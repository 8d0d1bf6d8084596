import RetryWeave.Syntax.Extent
import RetryWeave.Text.Quoted

/-!
The identifiers and declarations that occur in a syntax tree, outer ones before inner ones.
-/

namespace RetryWeave.Syntax

/-- An identifier, or what a comment can document. -/
inductive Node where
  | ident (id : Ident)
  | func (d : FuncDecl)
  | gen (d : GenDecl)
  | spec (s : Spec)
  /-- A field of a struct or signature, or an element of an interface. -/
  | field (f : Field) (element : Bool)

def identNodes (ids : List Ident) : List Node := ids.map .ident

mutual

def Expr.nodes : Expr → List Node
  | .ident id => [.ident id]
  | .lit _ => []
  | .ellipsis _ elem => optExprNodes elem
  | .func type body => type.nodes ++ body.nodes
  | .composite type _ elems _ => optExprNodes type ++ exprNodes elems
  | .paren _ x _ => x.nodes
  | .selector x sel => x.nodes ++ [.ident sel]
  | .index x _ indices _ => x.nodes ++ exprNodes indices
  | .slice x _ low high max _ _ =>
    x.nodes ++ optExprNodes low ++ optExprNodes high ++ optExprNodes max
  | .typeAssert x _ type _ => x.nodes ++ optExprNodes type
  | .call fn _ args _ _ => fn.nodes ++ exprNodes args
  | .star _ x => x.nodes
  | .unary _ _ x => x.nodes
  | .binary x _ _ y => x.nodes ++ y.nodes
  | .keyValue key _ value => key.nodes ++ value.nodes
  | .array _ len elem => optExprNodes len ++ elem.nodes
  | .struct _ fields => fields.nodes false
  | .funcType type => type.nodes
  | .interface _ methods => methods.nodes true
  | .map _ key value => key.nodes ++ value.nodes
  | .chan _ _ _ value => value.nodes
termination_by structural x => x

def exprNodes : List Expr → List Node
  | [] => []
  | x :: rest => x.nodes ++ exprNodes rest
termination_by structural x => x

def optExprNodes : Option Expr → List Node
  | none => []
  | some x => x.nodes
termination_by structural x => x

def optExprsNodes : Option (List Expr) → List Node
  | none => []
  | some xs => exprNodes xs
termination_by structural x => x

def FuncType.nodes : FuncType → List Node
  | ⟨_, typeParams, params, results⟩ =>
    optFieldListNodes typeParams ++ params.nodes false ++ optFieldListNodes results
termination_by structural x => x

def optFieldListNodes : Option FieldList → List Node
  | none => []
  | some l => l.nodes false
termination_by structural x => x

def FieldList.nodes : FieldList → Bool → List Node
  | ⟨_, list, _⟩, element => fieldNodes list element
termination_by structural x => x

def fieldNodes : List Field → Bool → List Node
  | [], _ => []
  | f :: rest, element => f.nodes element ++ fieldNodes rest element
termination_by structural x => x

def Field.nodes : Field → Bool → List Node
  | ⟨doc, names, type, tag, comment⟩, element =>
    .field ⟨doc, names, type, tag, comment⟩ element :: (identNodes names ++ type.nodes)
termination_by structural x => x

def Block.nodes : Block → List Node
  | ⟨_, stmts, _⟩ => stmtNodes stmts
termination_by structural x => x

def stmtNodes : List Stmt → List Node
  | [] => []
  | s :: rest => s.nodes ++ stmtNodes rest
termination_by structural x => x

def optStmtNodes : Option Stmt → List Node
  | none => []
  | some s => s.nodes
termination_by structural x => x

def Stmt.nodes : Stmt → List Node
  | .decl d => d.nodes
  | .empty _ _ => []
  | .labeled label _ stmt => .ident label :: stmt.nodes
  | .expr x => x.nodes
  | .send chan _ value => chan.nodes ++ value.nodes
  | .incDec x _ _ => x.nodes
  | .assign lhs _ _ rhs => exprNodes lhs ++ exprNodes rhs
  | .go _ call => call.nodes
  | .defer _ call => call.nodes
  | .ret _ results => exprNodes results
  | .branch _ _ label => identNodes label.toList
  | .block b => b.nodes
  | .ifElse _ init cond body orElse =>
    optStmtNodes init ++ cond.nodes ++ body.nodes ++ optStmtNodes orElse
  | .caseClause _ list _ body => optExprsNodes list ++ stmtNodes body
  | .switch _ init tag body => optStmtNodes init ++ optExprNodes tag ++ body.nodes
  | .typeSwitch _ init assign body => optStmtNodes init ++ assign.nodes ++ body.nodes
  | .commClause _ comm _ body => optStmtNodes comm ++ stmtNodes body
  | .select _ body => body.nodes
  | .forLoop _ init cond post body =>
    optStmtNodes init ++ optExprNodes cond ++ optStmtNodes post ++ body.nodes
  | .forRange _ key value _ _ _ x body =>
    optExprNodes key ++ optExprNodes value ++ x.nodes ++ body.nodes
termination_by structural x => x

def GenDecl.nodes : GenDecl → List Node
  | ⟨doc, pos, kind, lparen, specs, rparen⟩ =>
    .gen ⟨doc, pos, kind, lparen, specs, rparen⟩ :: specNodes specs
termination_by structural x => x

def specNodes : List Spec → List Node
  | [] => []
  | s :: rest => s.nodes ++ specNodes rest
termination_by structural x => x

def Spec.nodes : Spec → List Node
  | .importSpec doc name path comment stop =>
    .spec (.importSpec doc name path comment stop) :: identNodes name.toList
  | .valueSpec doc names type values comment =>
    .spec (.valueSpec doc names type values comment) ::
      (identNodes names ++ optExprNodes type ++ exprNodes values)
  | .typeSpec doc name typeParams assign type comment =>
    .spec (.typeSpec doc name typeParams assign type comment) ::
      .ident name :: (optFieldListNodes typeParams ++ type.nodes)
termination_by structural x => x

end

def FuncDecl.nodes (d : FuncDecl) : List Node :=
  .func d :: (optFieldListNodes d.recv ++ [.ident d.name] ++ d.type.nodes ++
    ((d.body.map Block.nodes).getD []))

def Decl.nodes : Decl → List Node
  | .gen d => d.nodes
  | .func d => d.nodes

def File.nodes (f : File) : List Node := .ident f.name :: f.decls.flatMap Decl.nodes

/-! ### Declarations of a file -/

/-- The function declarations of a file, in order. -/
def File.funcs (f : File) : List FuncDecl :=
  f.decls.filterMap fun
    | .func d => some d
    | .gen _ => none

/-- The local name, if one is given, and the path literal of every import. -/
def File.imports (f : File) : List (Option Ident × Lit) :=
  f.decls.flatMap fun
    | .gen d => d.specs.filterMap fun
      | .importSpec _ name path _ _ => some (name, path)
      | _ => none
    | .func _ => []

/-! ### Names in use -/

/-- The last element of an import path: the name under which it is most likely imported. -/
def lastElement (path : Bytes) : Bytes :=
  match Bytes.cutLast? Ascii.slash path with
  | some (_, name) => name
  | none => path

/-- All identifiers of a file, and the default names of its imports. -/
def File.idents (f : File) : List Bytes :=
  let written := f.nodes.filterMap fun
    | .ident id => some id.name
    | _ => none
  let imported := f.imports.filterMap fun
    | (none, path) => (Quoted.unquote? path.text).map lastElement
    | (some _, _) => none
  written ++ imported

/-- The local name of the package `context`, if the file imports it under a name it can use. -/
def File.contextName? (f : File) : Option Bytes :=
  f.imports.findSome? fun (name, path) =>
    if path.text ≠ Bytes.ofString "\"context\"" then none
    else
      match name with
      | none => some "context"
      | some id => if id.name = [Ascii.underscore] then none else some id.name

end RetryWeave.Syntax
