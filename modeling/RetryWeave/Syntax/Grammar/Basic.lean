import RetryWeave.Syntax.Extent
import RetryWeave.Syntax.Lexer

/-!
Reading tokens in order. A reader fails at the first token that does not fit; there is no repair.
-/

namespace RetryWeave.Syntax

/-- The tokens that are left, and how deep in brackets the reader is: below zero, in the header of
a statement, a brace opens the statement's body and no composite literal. -/
structure Cursor where
  rest : List Token
  level : Int

abbrev Parse := StateT Cursor Option

namespace Parse

def endToken : Token := ⟨.eof, [], 0, 0, false, none, none⟩

/-- The current token. -/
def current : Parse Token := do
  let c ← get
  return c.rest.headD endToken

def kind : Parse Tok := do return (← current).kind

/-- Moves on to the next token; the last one, the end of the file, stays. -/
def next : Parse Unit := modify fun c =>
  match c.rest with
  | _ :: t :: rest => { c with rest := t :: rest }
  | _ => c

def refuse {α : Type} : Parse α := fun _ => none

/-- Passes a token of the given kind and tells where it is. -/
def expect (k : Tok) : Parse Pos := do
  let t ← current
  if t.kind == k then
    next
    return some t.start
  else refuse

/-- Passes a token of the given kind if it is there. -/
def accept (k : Tok) : Parse Bool := do
  if (← kind) == k then
    next
    return true
  else return false

/-- Passes the end of a statement or field, and returns the comment that trails it. Before a closing
parenthesis or brace the semicolon may be missing. -/
def expectSemi : Parse (Option CommentGroup) := do
  let t ← current
  match t.kind with
  | .rparen | .rbrace => return none
  | .semicolon =>
    next
    if t.implied then return t.trail else return (← current).trail
  | _ => refuse

/-- At a comma; before the closing token there may be none. -/
def atComma (closing : Tok) : Parse Bool := do
  let k ← kind
  if k == .comma then return true
  else if k == closing then return false
  else refuse

/-- Runs a reader at another bracket depth. -/
def atLevel {α : Type} (f : Int → Int) (p : Parse α) : Parse α := do
  let old := (← get).level
  modify fun c => { c with level := f c.level }
  let a ← p
  modify fun c => { c with level := old }
  return a

/-- Runs a reader one bracket deeper. -/
def deeper {α : Type} (p : Parse α) : Parse α := atLevel (· + 1) p

/-- Runs a reader in the header of a statement. -/
def inHeader {α : Type} (p : Parse α) : Parse α := atLevel (fun _ => -1) p

/-- Repeats a reader until it returns nothing, one time more than there are tokens in the list at
the most. -/
def manyWithin {α : Type} (step : Parse (Option α)) : List Token → Parse (List α)
  | [] => do
    match ← step with
    | none => return []
    | some _ => refuse
  | _ :: bound => do
    match ← step with
    | none => return []
    | some a =>
      let rest ← manyWithin step bound
      return a :: rest

/-- Repeats a reader until it returns nothing; each success has to pass a token. -/
def many {α : Type} (step : Parse (Option α)) : Parse (List α) := fun c =>
  manyWithin step c.rest c

/-- Extends a value until a reader returns nothing, one time more than there are tokens in the list
at the most. -/
def growWithin {α : Type} (step : α → Parse (Option α)) : List Token → α → Parse α
  | [], a => do
    match ← step a with
    | none => return a
    | some _ => refuse
  | _ :: bound, a => do
    match ← step a with
    | none => return a
    | some b => growWithin step bound b

/-- Extends a value as long as a reader can; each extension has to pass a token. -/
def grow {α : Type} (step : α → Parse (Option α)) (a : α) : Parse α := fun c =>
  growWithin step c.rest a c

/-- Elements that are separated by commas. The reader is told whether a comma came before, and
returns an element and whether a comma follows it. -/
def elementsWithin {α : Type} (element : Bool → Parse (Option (α × Bool))) :
    List Token → Bool → Parse (List α)
  | [], more => do
    match ← element more with
    | none => return []
    | some _ => refuse
  | _ :: bound, more => do
    match ← element more with
    | none => return []
    | some (a, comma) =>
      let rest ← elementsWithin element bound comma
      return a :: rest

/-- Elements that are separated by commas; each has to pass a token. -/
def elements {α : Type} (element : Bool → Parse (Option (α × Bool))) : Parse (List α) := fun c =>
  elementsWithin element c.rest true c

/-- Elements separated by commas up to the closing token, before which a comma may stand. -/
def commaList {α : Type} (closing : Tok) (element : Parse α) : Parse (List α) :=
  elements fun more => do
    if !more || (← kind) == closing then return none
    else
      let a ← element
      let comma ← atComma closing
      if comma then next
      return some (a, comma)

/-- One element, and more after commas. -/
def separated {α : Type} (element : Parse α) : Parse (List α) := do
  let first ← element
  let rest ← many do
    if ← accept .comma then return some (← element) else return none
  return first :: rest

def ident : Parse Ident := do
  let t ← current
  if t.kind == .ident then
    next
    return ⟨some t.start, t.text⟩
  else refuse

def identList : Parse (List Ident) := separated ident

def literal : Parse Lit := do
  let t ← current
  next
  return ⟨some t.start, some t.stop, t.kind, t.text⟩

end Parse

/-- The readers for nested syntax. Between a call and the calls nested three deep in it a token is
passed, so three times the number of tokens bounds the depth of the calls. -/
structure Nested where
  /-- A binary expression whose operators bind at least as tightly as given. -/
  binary : Nat → Parse Expr
  unary : Parse Expr
  /-- A type, or nothing where none starts. -/
  type? : Parse (Option Expr)
  /-- The braces of a composite literal of the given type. -/
  literalValue : Option Expr → Parse Expr
  stmt : Parse Stmt
  block : Parse Block

namespace Nested

/-- Readers that read nothing. -/
def refuse : Nested :=
  ⟨fun _ => Parse.refuse, Parse.refuse, Parse.refuse, fun _ => Parse.refuse, Parse.refuse,
    Parse.refuse⟩

def expr (r : Nested) : Parse Expr := r.binary 1

def exprList (r : Nested) : Parse (List Expr) := Parse.separated r.expr

def type (r : Nested) : Parse Expr := do
  match ← r.type? with
  | some t => return t
  | none => Parse.refuse

end Nested

end RetryWeave.Syntax
