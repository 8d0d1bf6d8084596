import RetryWeave.Syntax.Grammar.Stmts

/-!
Whole files and single expressions.
-/

namespace RetryWeave.Syntax

namespace Grammar

open Parse

/-- The readers whose calls nest at most `depth` deep. -/
def nested : Nat → Nested
  | 0 => .refuse
  | depth + 1 =>
    let r := nested depth
    { binary := binaryExpr r
      unary := unaryExpr r
      type? := type? r
      literalValue := literalValue r
      stmt := stmt r
      block := block r }

def funcDecl (r : Nested) : Parse FuncDecl := do
  let doc := (← current).lead
  let pos ← expect .kwFunc
  let recv ← if (← kind) == .lparen then some <$> parameters r true else pure none
  let name ← ident
  let typeParams ← if (← kind) == .lbrack then some <$> typeParameters r else pure none
  let type ← signature r pos typeParams
  match ← kind with
  | .lbrace =>
    let body ← r.block
    let _ ← expectSemi
    return ⟨doc, recv, name, type, some body⟩
  | .semicolon =>
    next
    if (← kind) == .lbrace then refuse else return ⟨doc, recv, name, type, none⟩
  | _ =>
    let _ ← expectSemi
    return ⟨doc, recv, name, type, none⟩

/-- A declaration after the imports. -/
def decl (r : Nested) : Parse (Option Decl) := do
  match ← kind with
  | .eof => return none
  | .kwFunc => return some (.func (← funcDecl r))
  | _ => return some (.gen (← localDecl r))

def file (r : Nested) (comments : List CommentGroup) (table : LineTable) : Parse File := do
  let doc := (← current).lead
  let package ← expect .kwPackage
  let name ← ident
  let _ ← expectSemi
  let imports ← many do
    if (← kind) == .kwImport then return some (Decl.gen (← importDecl)) else return none
  let decls ← many (decl r)
  return ⟨doc, package, name, imports ++ decls, comments, table⟩

/-- An expression and nothing after it. -/
def lone (r : Nested) : Parse Expr := do
  let x ← r.expr
  let t ← current
  if t.kind == .semicolon && t.implied then next
  let _ ← expect .eof
  return x

def depthOf (tokens : List Token) : Nat := 3 * tokens.length + 8

end Grammar

/-- The syntax tree of a source file, if it has one. -/
def parseFile? (name src : Bytes) : Option File := do
  let l ← lex? name src
  let (f, _) ← (Grammar.file (Grammar.nested (Grammar.depthOf l.tokens)) l.comments l.table).run
    ⟨l.tokens, 0⟩
  return f

/-- The expression that a text consists of. -/
def parseExpr? (src : Bytes) : Option Expr := do
  let l ← lex? [] src
  let (x, _) ← (Grammar.lone (Grammar.nested (Grammar.depthOf l.tokens))).run ⟨l.tokens, 0⟩
  return x

end RetryWeave.Syntax
