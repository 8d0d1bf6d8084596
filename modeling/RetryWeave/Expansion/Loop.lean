import RetryWeave.Directive
import RetryWeave.Expansion.Owner
import RetryWeave.Naming

/-!
The statements that replace the body of an annotated function. The body moves into a closure, which
a loop calls until it succeeds or the attempts are used up.
-/

namespace RetryWeave

open Syntax

/-- The names and numbers of one retry loop. -/
structure RetryLoop where
  function : Bytes
  /-- The closure with the body. -/
  helper : Bytes
  /-- The number of failed attempts. -/
  counter : Bytes
  /-- The results before the error. -/
  values : List Bytes
  error : Bytes
  retries : Int
  /-- The first parameter of the function is a context. -/
  async : Bool
  /-- What is said after the loop, where control never comes. -/
  message : Bytes
  results : FieldList
  body : Block

namespace RetryLoop

/-! ### Statements -/

def name (n : Bytes) : Expr := .ident (.fresh n)

def number (n : Int) : Expr := .lit ⟨none, none, .int, Bytes.ofInt n⟩

def text (t : Bytes) : Expr := .lit ⟨none, none, .string, Quoted.quote t⟩

def call (fn : Bytes) (args : List Expr) : Expr := .call (name fn) none args none none

def define (names : List Bytes) (value : Expr) : Stmt :=
  .assign (names.map name) none .define [value]

def compare (left : Bytes) (op : Tok) (right : Expr) : Expr := .binary (name left) none op right

def block (stmts : List Stmt) : Block := ⟨none, stmts, none⟩

/-- Returns the values of the last attempt. -/
def returning (l : RetryLoop) (last : Bytes) : Stmt := .ret none (l.values.map name ++ [name last])

/-- `counter := 0`. -/
def counterStmt (l : RetryLoop) : Stmt := define [l.counter] (number 0)

/-- Calls the closure; returns on success, and once the counter reaches the budget. -/
def loopBody (l : RetryLoop) : List Stmt := [
  define (l.values ++ [l.error]) (call l.helper []),
  .ifElse none none (compare l.error .eql (name "nil")) (block [l.returning "nil"]) none,
  .incDec (name l.counter) none .inc,
  .ifElse none none (compare l.counter .eql (number l.retries)) (block [l.returning l.error]) none]

def loopStmt (l : RetryLoop) : Stmt :=
  .forLoop none none (some (compare l.counter .lss (number l.retries))) none (block l.loopBody)

/-- Tells the compiler that control does not leave the loop. -/
def lastStmt (l : RetryLoop) : Stmt := .expr (call "panic" [text l.message])

/-- The statements after the closure. -/
def stmts (l : RetryLoop) : List Stmt := [l.counterStmt, l.loopStmt, l.lastStmt]

/-! ### Building -/

/-- The bases of the names of the values. -/
def valueBases (count : Nat) : List Bytes :=
  if count = 1 then ["result"] else (List.range count).map fun i => "result" ++ Bytes.ofNat i

/-- What applies to all expansions. -/
structure Defaults where
  retries : Int
  message : Bytes
deriving DecidableEq, Repr

/-- Validates a directive and what it is attached to, and builds the loop. The first of these rules
that is broken is reported: the budget, that a function is declared, that it returns an error, and
that it has a body. -/
def build (defaults : Defaults) (directive : Directive) (target : Option Owner) (place : Position)
    (contextName : Option Bytes) (names : NameSupply) : Except Diagnostic RetryLoop :=
  match Directive.budget directive.args defaults.retries with
  | .error fault => .error ⟨fault, directive.position⟩
  | .ok retries =>
    match target.bind Signature.ofOwner? with
    | none => .error ⟨.notFunction, directive.position⟩
    | some signature =>
      match signature.fallible? with
      | none => .error ⟨.notThrowing, directive.position⟩
      | some results =>
        match signature.body with
        | none => .error ⟨.noBody, place⟩
        | some body =>
          let (helper, names) := names.fresh "block"
          let (counter, names) := names.fresh "attempts"
          let (values, names) := names.freshAll (valueBases (Signature.resultCount results - 1))
          let (error, _) := names.fresh "err"
          .ok {
            function := signature.name
            helper, counter, values, error, retries
            async := signature.beginsWithContext contextName
            message := defaults.message
            results, body }

end RetryLoop

end RetryWeave
