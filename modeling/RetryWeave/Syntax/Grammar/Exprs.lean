import RetryWeave.Syntax.Grammar.Types

/-!
Expressions.
-/

namespace RetryWeave.Syntax

/-- An expression without the parentheses around it. -/
def Expr.unparen : Expr → Expr
  | .paren _ x _ => x.unparen
  | x => x
termination_by structural x => x

namespace Grammar

open Parse

/-! ### Operands -/

/-- A function type, or with a body a function literal. -/
def funcTypeOrLit (r : Nested) : Parse Expr := do
  let type ← funcType r
  if (← kind) == .lbrace then return .func type (← deeper r.block) else return .funcType type

def operand (r : Nested) : Parse Expr := do
  match ← kind with
  | .ident => return .ident (← ident)
  | .int | .float | .imag | .char | .string => return .lit (← literal)
  | .lparen =>
    let lparen ← expect .lparen
    let x ← deeper r.expr
    let rparen ← expect .rparen
    return .paren lparen x rparen
  | .kwFunc => funcTypeOrLit r
  | _ =>
    match ← type? r with
    | some t => return t
    | none => refuse

/-! ### What may follow an operand -/

def typeAssertion (r : Nested) (x : Expr) : Parse Expr := do
  let lparen ← expect .lparen
  let type ← if ← accept .kwType then pure none else some <$> r.type
  let rparen ← expect .rparen
  return .typeAssert x lparen type rparen

/-- An index, type arguments, or a slice. A slice with two colons has all indices but the first. -/
def indexOrSlice (r : Nested) (x : Expr) : Parse Expr := do
  let lbrack ← expect .lbrack
  let optional : Parse (Option Expr) := do
    let k ← kind
    if k == .colon || k == .rbrack then return none else return some (← r.expr)
  let build : Pos → Expr ← deeper do
    let first ← if (← kind) == .colon then pure none else some <$> r.expr
    match ← kind, first with
    | .colon, _ =>
      next
      let high ← optional
      if ← accept .colon then
        let max ← optional
        if high.isNone || max.isNone then refuse
        else pure fun rbrack => .slice x lbrack first high max true rbrack
      else pure fun rbrack => .slice x lbrack first high none false rbrack
    | .comma, some index =>
      let more ← many do
        if ← accept .comma then
          if (← kind) == .rbrack then return some none else return some (some (← r.type))
        else return none
      pure fun rbrack => .index x lbrack (index :: more.filterMap id) rbrack
    | _, some index => pure fun rbrack => .index x lbrack [index] rbrack
    | _, none => refuse
  let rbrack ← expect .rbrack
  return build rbrack

/-- The arguments of a call; after `...` only a comma may follow. -/
def call (r : Nested) (fn : Expr) : Parse Expr := do
  let lparen ← expect .lparen
  let args ← deeper <| elements fun more => do
    if !more || (← kind) == .rparen then return none
    else
      let x ← r.expr
      let t ← current
      let dots : Pos ← if t.kind == .ellipsis then do next; pure (some t.start) else pure none
      let comma ← atComma .rparen
      if comma then next
      return some ((x, dots), comma && dots.isNone)
  let rparen ← expect .rparen
  return .call fn lparen (args.map (·.1)) (args.getLast?.bind (·.2)) rparen

/-- Whether braces after an expression make it a composite literal, at a given bracket depth. -/
def takesBraces (level : Int) : Expr → Bool
  | .ident _ | .selector _ _ | .index _ _ _ _ => 0 ≤ level
  | .array _ _ _ | .struct _ _ | .map _ _ _ => true
  | _ => false

def isParen : Expr → Bool
  | .paren _ _ _ => true
  | _ => false

/-- Selectors, assertions, indices, calls and literal values after an expression. -/
def primaryFrom (r : Nested) (x : Expr) : Parse Expr :=
  grow (fun x => do
    match ← kind with
    | .period =>
      next
      match ← kind with
      | .ident => return some (.selector x (← ident))
      | .lparen => return some (← typeAssertion r x)
      | _ => refuse
    | .lbrack => return some (← indexOrSlice r x)
    | .lparen => return some (← call r x)
    | .lbrace =>
      if takesBraces (← get).level x.unparen then
        if isParen x then refuse else return some (← r.literalValue (some x))
      else return none
    | _ => return none) x

/-! ### Operators -/

/-- Gives a leading arrow to the channel types it belongs to: `<-` before `chan T` makes a receive
only channel, and moves on from `chan<- T` to the channel type `T`. -/
def receiveChan : Pos → Expr → Option Expr
  | arrow, .chan _ old dir value =>
    match dir with
    | .receive => none
    | .both => some (.chan arrow arrow .receive value)
    | .send => (receiveChan old value).map fun value' => .chan arrow arrow .receive value'
  | _, _ => none
termination_by structural _ x => x

def unaryExpr (r : Nested) : Parse Expr := do
  let t ← current
  match t.kind with
  | .add | .sub | .not | .xor | .and | .tilde =>
    next
    return .unary (some t.start) t.kind (← r.unary)
  | .arrow =>
    next
    let x ← r.unary
    match x with
    | .chan .. =>
      match receiveChan (some t.start) x with
      | some type => return type
      | none => refuse
    | _ => return .unary (some t.start) .arrow x
  | .mul =>
    next
    return .star (some t.start) (← r.unary)
  | _ => primaryFrom r (← operand r)

/-- Operators that bind at least as tightly as `bound`, after a first operand. -/
def binaryFrom (r : Nested) (bound : Nat) (x : Expr) : Parse Expr :=
  grow (fun x => do
    let t ← current
    let p := t.kind.precedence
    if p < bound then return none
    else
      next
      return some (.binary x (some t.start) t.kind (← r.binary (p + 1)))) x

def binaryExpr (r : Nested) (bound : Nat) : Parse Expr := do
  binaryFrom r bound (← unaryExpr r)

/-! ### Composite literals -/

def value (r : Nested) : Parse Expr := do
  if (← kind) == .lbrace then r.literalValue none else r.expr

def element (r : Nested) : Parse Expr := do
  let x ← value r
  let t ← current
  if t.kind == .colon then
    next
    return .keyValue x (some t.start) (← value r)
  else return x

def literalValue (r : Nested) (type : Option Expr) : Parse Expr := do
  let lbrace ← expect .lbrace
  let elems ← deeper (commaList .rbrace (element r))
  let rbrace ← expect .rbrace
  return .composite type lbrace elems rbrace

end Grammar

end RetryWeave.Syntax
