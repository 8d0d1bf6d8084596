import RetryWeave.Syntax.Grammar.Exprs

/-!
Declarations of imports, constants, variables and types.
-/

namespace RetryWeave.Syntax.Grammar

open Parse

def importSpec (doc : Option CommentGroup) : Parse Spec := do
  let t ← current
  let name ← match t.kind with
    | .ident => some <$> ident
    | .period => do
      next
      pure (some ⟨some t.start, [Ascii.dot]⟩)
    | _ => pure none
  if (← kind) == .string then
    let path ← literal
    return .importSpec doc name path (← expectSemi) none
  else refuse

def constSpec (r : Nested) (doc : Option CommentGroup) : Parse Spec := do
  let names ← identList
  let k ← kind
  let (type, values) ← if k == .eof || k == .semicolon || k == .rparen then pure (none, [])
    else do
      let type ← r.type?
      let values ← if ← accept .assign then r.exprList else pure []
      pure (type, values)
  return .valueSpec doc names type values (← expectSemi)

def varSpec (r : Nested) (doc : Option CommentGroup) : Parse Spec := do
  let names ← identList
  let type ← if (← kind) == .assign then pure none else some <$> r.type
  let values ← if ← accept .assign then r.exprList else pure []
  return .valueSpec doc names type values (← expectSemi)

/-! ### Type declarations -/

/-- Whether an expression can only be read as a type. -/
def isTypeElem : Expr → Bool
  | .array .. | .struct .. | .funcType .. | .interface .. | .map .. | .chan .. => true
  | .binary x _ _ y => isTypeElem x || isTypeElem y
  | .unary _ op _ => op == .tilde
  | .paren _ x _ => isTypeElem x
  | _ => false
termination_by structural x => x

/-- Splits an expression into the name and the constraint of a type parameter, if it can be written
so and the constraint is a type or `force` is set. A lone name has no constraint. -/
def splitParam : Bool → Expr → Option (Ident × Option Expr)
  | _, .ident name => some (name, none)
  | force, .binary x pos op y =>
    match op, x with
    | .mul, .ident name =>
      if force || isTypeElem y then some (name, some (.star pos y)) else none
    | .or, _ =>
      match splitParam (force || isTypeElem y) x with
      | some (name, some left) => some (name, some (.binary left pos .or y))
      | _ => none
    | _, _ => none
  | force, .call (.ident name) lparen [arg] none rparen =>
    if force || isTypeElem arg then some (name, some (.paren lparen arg rparen)) else none
  | _, _ => none
termination_by structural _ x => x

/-- The type of a declaration, which `=` makes an alias. -/
def aliasOrType (r : Nested) : Parse (Pos × Expr) := do
  let t ← current
  let assign : Pos ← if t.kind == .assign then do next; pure (some t.start) else pure none
  return (assign, ← r.type)

def typeSpec (r : Nested) (doc : Option CommentGroup) : Parse Spec := do
  let name ← ident
  let finish (params : Option FieldList) (assign : Pos) (type : Expr) : Parse Spec := do
    return .typeSpec doc name params assign type (← expectSemi)
  if (← kind) == .lbrack then
    let lbrack ← expect .lbrack
    if (← kind) == .ident then
      let first ← ident
      let x ← if (← kind) == .lbrack then pure (.ident first)
        else deeper do binaryFrom r 1 (← primaryFrom r (.ident first))
      let k ← kind
      match splitParam (k == .comma) x with
      | some (pname, ptype) =>
        if ptype.isSome || k != .rbrack then
          let fields ← paramList r .rbrack false (some pname) ptype
          let rbrack ← expect .rbrack
          let (assign, type) ← aliasOrType r
          finish (some ⟨lbrack, fields, rbrack⟩) assign type
        else finish none none (← arrayType r lbrack (some x))
      | none => finish none none (← arrayType r lbrack (some x))
    else finish none none (← arrayType r lbrack none)
  else
    let (assign, type) ← aliasOrType r
    finish none assign type

/-! ### Groups -/

/-- A declaration with one specification, or with several in parentheses. -/
def genDecl (k : Tok) (spec : Option CommentGroup → Parse Spec) : Parse GenDecl := do
  let doc := (← current).lead
  let pos ← expect k
  let t ← current
  if t.kind == .lparen then
    next
    let specs ← many do
      let s ← current
      if s.kind == .rparen then return none else return some (← spec s.lead)
    let rparen ← expect .rparen
    let _ ← expectSemi
    return ⟨doc, pos, k, some t.start, specs, rparen⟩
  else
    return ⟨doc, pos, k, none, [← spec none], none⟩

def importDecl : Parse GenDecl := genDecl .kwImport importSpec

/-- A declaration of constants, variables or types. -/
def localDecl (r : Nested) : Parse GenDecl := do
  match ← kind with
  | .kwConst => genDecl .kwConst (constSpec r)
  | .kwVar => genDecl .kwVar (varSpec r)
  | .kwType => genDecl .kwType (typeSpec r)
  | _ => refuse

end RetryWeave.Syntax.Grammar
