import RetryWeave.Source.Position

/-!
Why a directive is rejected, and where.
-/

namespace RetryWeave

/-- The rule that a directive or its declaration breaks. -/
inductive Fault where
  | invalidRetries
  | nonPositiveRetries
  | notFunction
  | notThrowing
  | noBody
deriving DecidableEq, Repr

namespace Fault

def all : List Fault := [.invalidRetries, .nonPositiveRetries, .notFunction, .notThrowing, .noBody]

/-- The number of a rule; the first is one. -/
def code : Fault → Int
  | .invalidRetries => 1
  | .nonPositiveRetries => 2
  | .notFunction => 3
  | .notThrowing => 4
  | .noBody => 5

def ofCode? (code : Int) : Option Fault := all.find? (·.code == code)

def message : Fault → Bytes
  | .invalidRetries => "Missing or invalid 'retries' parameter"
  | .nonPositiveRetries => "Retries count must be positive"
  | .notFunction => "Macro can only be applied to function declarations"
  | .notThrowing => "Macro can only be applied to throwing functions"
  | .noBody => "Function must have a body to apply retry logic"

/-- The message of a rule given by its number; a number of no rule is shown. -/
def messageOfCode (code : Int) : Bytes :=
  match ofCode? code with
  | some fault => fault.message
  | none => "Kind(" ++ Bytes.ofInt code ++ ")"

end Fault

/-- A rejected directive. -/
structure Diagnostic where
  fault : Fault
  position : Position
deriving DecidableEq, Repr

namespace Diagnostic

/-- A message after its place, or alone where the place is unknown. -/
def describe (position : Position) (message : Bytes) : Bytes :=
  if position.isValid then position.render ++ ": " ++ message else message

def message (d : Diagnostic) : Bytes := d.fault.message

def render (d : Diagnostic) : Bytes := describe d.position d.message

end Diagnostic

end RetryWeave
