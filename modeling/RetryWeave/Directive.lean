import RetryWeave.Diagnostic
import RetryWeave.Syntax.Grammar.File
import RetryWeave.Text.Integer

/-!
Retry directives: comments such as `//retry:onfailure retries=3`.
-/

namespace RetryWeave

/-- A directive: its arguments, and where its comment starts. -/
structure Directive where
  args : List Bytes
  position : Position
deriving DecidableEq, Repr

namespace Directive

/-- The arguments of the directive `name` in a comment. The name stands right after the slashes, and
a space, a tab or the end of the comment follows it. -/
def args? (name text : Bytes) : Option (List Bytes) :=
  match Bytes.stripStart? ("//" ++ name) text with
  | none => none
  | some [] => some []
  | some (b :: rest) => if Ascii.isBlank b then some (Bytes.fields (b :: rest)) else none

/-! ### The attempt budget -/

/-- The largest budget. -/
def maxBudget : Nat := 0x7FFFFFFFFFFFFFFF

/-- The value of an integer literal as Go writes it: with an optional base mark and underscores, and
octal after a leading zero. -/
def literalValue (lit : Bytes) : Nat :=
  let (mark, _, digits) := Syntax.BaseMark.ofText lit
  let base := match mark with
    | .decimal => 10
    | .zero | .octal => 8
    | .hex => 16
    | .binary => 2
  (digits.filter (· ≠ Ascii.underscore)).foldl (fun n d => n * base + Ascii.digitValue d) 0

/-- A text that is an integer literal with an optional sign: whether it is negative, and the
literal. -/
def signedLiteral? (text : Bytes) : Option (Bool × Bytes) :=
  let literal? (negative : Bool) : Syntax.Expr → Option (Bool × Bytes)
    | .lit l => if l.kind == .int then some (negative, l.text) else none
    | _ => none
  match Syntax.parseExpr? text with
  | some (.unary _ .sub x) => literal? true x
  | some (.unary _ .add x) => literal? false x
  | some x => literal? false x
  | none => none

/-- The text of the budget in an argument: positional, or after `retries=`. -/
def budgetText? (arg : Bytes) : Option Bytes :=
  match Bytes.cut? "=" arg with
  | none => some arg
  | some (key, value) => if key = Bytes.ofString "retries" then some value else none

/-- The attempt budget that a directive asks for, or else the fault of its arguments. Without an
argument the default applies. -/
def budget (args : List Bytes) (default : Int) : Except Fault Int :=
  match args with
  | [] => if default ≤ 0 then .error .nonPositiveRetries else .ok default
  | [arg] =>
    match (budgetText? arg).bind signedLiteral? with
    | none => .error .invalidRetries
    | some (negative, lit) =>
      match Integer.read lit with
      | .error _ => .error .nonPositiveRetries
      | .ok n => if negative || n ≤ 0 then .error .nonPositiveRetries else .ok n
  | _ => .error .invalidRetries

end Directive

end RetryWeave
