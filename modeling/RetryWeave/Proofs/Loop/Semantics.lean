import Mathlib
import RetryWeave.Expansion.Loop
import RetryWeave.Retry

/-! # Executing the statements of a retry loop

A small interpreter for the statements that an expansion introduces: short declarations, loops with
a condition, branches, increments, returns, and calls of the closure and of `panic`. What lies
outside is stuck, and so is a statement that breaks a rule: a count that does not match, a name that
is not declared, a literal that is malformed or too large. -/

namespace RetryWeave.Execution

open Syntax

/-! ## Values and frames -/

/-- What a name stands for. -/
inductive Value (ε ν : Type) where
  | int (n : Int64)
  | bool (b : Bool)
  /-- An error, or `nil`. -/
  | error (e : Option ε)
  /-- A result of the closure before its error. -/
  | data (v : ν)
  /-- The closure itself. -/
  | closure

/-- The names of one block. An entry hides later ones of the same name. -/
abbrev Frame (ε ν : Type) := List (Bytes × Value ε ν)

/-- The frame of the innermost block, and those around it. -/
abbrev Frames (ε ν : Type) := List (Frame ε ν)

variable {σ ε ν : Type}

namespace Frames

def lookup (frames : Frames ε ν) (name : Bytes) : Option (Value ε ν) :=
  frames.findSome? (·.lookup name)

/-- Assigns to the innermost variable of a name. -/
def assign (name : Bytes) (v : Value ε ν) : Frames ε ν → Option (Frames ε ν)
  | [] => none
  | top :: rest =>
    if (top.lookup name).isSome then some (((name, v) :: top) :: rest)
    else (assign name v rest).map (top :: ·)

/-- A short declaration in the innermost block: as many values as names, no name twice, and at least
one that is new. The other names of the block are assigned to. -/
def define (names : List Bytes) (vs : List (Value ε ν)) : Frames ε ν → Option (Frames ε ν)
  | [] => none
  | top :: rest =>
    let isNew (name : Bytes) : Bool := name != [Ascii.underscore] && (top.lookup name).isNone
    let named := names.filter (· != [Ascii.underscore])
    if names.length = vs.length ∧ named.Nodup ∧ names.any isNew then
      some (((names.zip vs).filter (·.1 != [Ascii.underscore]) ++ top) :: rest)
    else none

end Frames

/-! ## Expressions -/

/-- The value of an integer literal as the lexer reads it, if it fits into 64 bits with a sign. -/
def literal? (text : Bytes) : Option Int64 :=
  if number? text = some (.int, text.length) ∧ Directive.literalValue text < 2 ^ 63 then
    some (Int64.ofNat (Directive.literalValue text))
  else none

/-- Numbers are compared with numbers, and errors with `nil`. -/
def compare? : Tok → Value ε ν → Value ε ν → Option Bool
  | .eql, .int a, .int b => some (a == b)
  | .lss, .int a, .int b => some (decide (a < b))
  | .eql, .error e, .error none => some e.isNone
  | .eql, .error none, .error e => some e.isNone
  | _, _, _ => none

/-- The value of an expression without calls. The name `nil` is predeclared. -/
def eval (frames : Frames ε ν) : Expr → Option (Value ε ν)
  | .ident id =>
    match frames.lookup id.name with
    | some v => some v
    | none => if id.name = Bytes.ofString "nil" then some (.error none) else none
  | .lit l => if l.kind = .int then (literal? l.text).map .int else none
  | .binary x _ op y => do
    let a ← eval frames x
    let b ← eval frames y
    (compare? op a b).map .bool
  | _ => none
termination_by structural x => x

/-! ## Statements -/

/-- What a 64-bit increment does at the largest number. -/
inductive Arithmetic where
  | wraps
  /-- The execution ends. -/
  | stops
deriving DecidableEq

/-- The function around the statements: the number of its results, which are those of the closure,
and what the closure does when it is called. -/
structure Machine (σ ε ν : Type) where
  results : Nat
  operation : σ → Retry.Outcome ε (Vector ν (results - 1)) × σ
  arithmetic : Arithmetic

/-- How the execution of statements ends. -/
inductive Ending (σ ε ν : Type) where
  /-- Control comes to the end of the statements. -/
  | next (frames : Frames ε ν) (s : σ)
  | returned (vs : List (Value ε ν)) (s : σ)
  | panicked (message : Bytes) (s : σ)
  | overflow
  | stuck
  | outOfFuel

namespace Ending

/-- Goes on if control comes to the end. -/
def andThen (e : Ending σ ε ν) (f : Frames ε ν → σ → Ending σ ε ν) : Ending σ ε ν :=
  match e with
  | next frames s => f frames s
  | other => other

/-- The variables of a block end with it. -/
def leave (e : Ending σ ε ν) : Ending σ ε ν := e.andThen fun frames s => next frames.tail s

end Ending

namespace Machine

/-- The results of a call of the closure, in order. -/
def resultsOf {results : Nat} (o : Retry.Outcome ε (Vector ν (results - 1))) :
    List (Value ε ν) :=
  o.value.toList.map .data ++ [.error o.error]

def names? (xs : List Expr) : Option (List Bytes) :=
  xs.mapM fun
    | .ident id => some id.name
    | _ => none

/-- A short declaration of the results of the closure, or of one variable. -/
def define (m : Machine σ ε ν) (lhs : List Expr) (rhs : Expr) (frames : Frames ε ν) (s : σ) :
    Ending σ ε ν :=
  match rhs with
  | .call (.ident fn) _ [] none _ =>
    match frames.lookup fn.name with
    | some .closure =>
      let (o, s') := m.operation s
      match (names? lhs).bind fun names => frames.define names (resultsOf o) with
      | some frames' => .next frames' s'
      | none => .stuck
    | _ => .stuck
  | _ =>
    match eval frames rhs, names? lhs with
    | some v, some names =>
      match frames.define names [v] with
      | some frames' => .next frames' s
      | none => .stuck
    | _, _ => .stuck

/-- The name `panic` is predeclared. Its argument is a text. -/
def panic (frames : Frames ε ν) (x : Expr) (s : σ) : Ending σ ε ν :=
  match x with
  | .call (.ident fn) _ [.lit message] none _ =>
    if (frames.lookup fn.name).isSome || fn.name != Bytes.ofString "panic" then .stuck
    else
      match Quoted.unquote? message.text with
      | some text => .panicked text s
      | none => .stuck
  | _ => .stuck

def increment (m : Machine σ ε ν) (x : Expr) (frames : Frames ε ν) (s : σ) : Ending σ ε ν :=
  match x with
  | .ident id =>
    match frames.lookup id.name with
    | some (.int n) =>
      if n = Int64.maxValue ∧ m.arithmetic = .stops then .overflow
      else
        match frames.assign id.name (.int (n + 1)) with
        | some frames' => .next frames' s
        | none => .stuck
    | _ => .stuck
  | _ => .stuck

/-- As many values are returned as the function has results. -/
def ret (m : Machine σ ε ν) (xs : List Expr) (frames : Frames ε ν) (s : σ) : Ending σ ε ν :=
  match xs.mapM (eval frames) with
  | some vs => if vs.length = m.results then .returned vs s else .stuck
  | none => .stuck

/-- A loop while its condition holds, for at most `fuel` rounds. -/
def loop (cond : Frames ε ν → Option (Value ε ν))
    (body : Frames ε ν → σ → Ending σ ε ν) : Nat → Frames ε ν → σ → Ending σ ε ν
  | 0, _, _ => .outOfFuel
  | fuel + 1, frames, s =>
    match cond frames with
    | some (.bool true) => (body frames s).andThen (loop cond body fuel)
    | some (.bool false) => .next frames s
    | _ => .stuck

mutual

def exec (m : Machine σ ε ν) (fuel : Nat) : Stmt → Frames ε ν → σ → Ending σ ε ν
  | .assign lhs _ .define [rhs], frames, s => m.define lhs rhs frames s
  | .expr x, frames, s => panic frames x s
  | .incDec x _ .inc, frames, s => m.increment x frames s
  | .ret _ xs, frames, s => m.ret xs frames s
  | .ifElse _ none cond body none, frames, s =>
    match eval frames cond with
    | some (.bool true) => execBlock m fuel body frames s
    | some (.bool false) => .next frames s
    | _ => .stuck
  | .forLoop _ none (some cond) none body, frames, s =>
    loop (eval · cond) (execBlock m fuel body) fuel frames s
  | _, _, _ => .stuck
termination_by structural x => x

/-- A block has a frame of its own. -/
def execBlock (m : Machine σ ε ν) (fuel : Nat) : Block → Frames ε ν → σ → Ending σ ε ν
  | ⟨_, stmts, _⟩, frames, s => (execAll m fuel stmts ([] :: frames) s).leave
termination_by structural x => x

def execAll (m : Machine σ ε ν) (fuel : Nat) : List Stmt → Frames ε ν → σ → Ending σ ε ν
  | [], frames, s => .next frames s
  | stmt :: rest, frames, s => (exec m fuel stmt frames s).andThen (execAll m fuel rest)
termination_by structural x => x

end

end Machine

/-- Executes the statements of a loop, with the helper bound to the closure. -/
def execLoop (l : RetryLoop) (m : Machine σ ε ν) (fuel : Nat) (s : σ) : Ending σ ε ν :=
  m.execAll fuel l.stmts [[(l.helper, .closure)]] s

end RetryWeave.Execution
