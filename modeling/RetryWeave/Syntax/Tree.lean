import RetryWeave.Source.Position
import RetryWeave.Syntax.Token

/-!
Syntax trees of Go source files. Positions are byte offsets; nodes that were not read from a file
have none.
-/

namespace RetryWeave.Syntax

abbrev Pos := Option Nat

namespace Pos

def plus (p : Pos) (n : Nat) : Pos := p.map (· + n)

end Pos

structure Ident where
  pos : Pos
  name : Bytes
deriving DecidableEq, Repr, Inhabited

namespace Ident

def stop (i : Ident) : Pos := i.pos.plus i.name.length

/-- An identifier without a place in a file. -/
def fresh (name : Bytes) : Ident := ⟨none, name⟩

end Ident

/-- A literal: a number, a character or a string. -/
structure Lit where
  pos : Pos
  stop : Pos
  kind : Tok
  text : Bytes
deriving DecidableEq, Repr, Inhabited

inductive ChanDir where
  | send
  | receive
  | both
deriving DecidableEq, Repr, Inhabited

mutual

inductive Expr where
  | ident (id : Ident)
  | lit (l : Lit)
  | ellipsis (pos : Pos) (elem : Option Expr)
  | func (type : FuncType) (body : Block)
  | composite (type : Option Expr) (lbrace : Pos) (elems : List Expr) (rbrace : Pos)
  | paren (lparen : Pos) (x : Expr) (rparen : Pos)
  | selector (x : Expr) (sel : Ident)
  | index (x : Expr) (lbrack : Pos) (indices : List Expr) (rbrack : Pos)
  | slice (x : Expr) (lbrack : Pos) (low high max : Option Expr) (full : Bool) (rbrack : Pos)
  | typeAssert (x : Expr) (lparen : Pos) (type : Option Expr) (rparen : Pos)
  | call (fn : Expr) (lparen : Pos) (args : List Expr) (ellipsis : Pos) (rparen : Pos)
  | star (pos : Pos) (x : Expr)
  | unary (pos : Pos) (op : Tok) (x : Expr)
  | binary (x : Expr) (opPos : Pos) (op : Tok) (y : Expr)
  | keyValue (key : Expr) (colon : Pos) (value : Expr)
  | array (lbrack : Pos) (len : Option Expr) (elem : Expr)
  | struct (pos : Pos) (fields : FieldList)
  | funcType (type : FuncType)
  | interface (pos : Pos) (methods : FieldList)
  | map (pos : Pos) (key value : Expr)
  | chan (pos : Pos) (arrow : Pos) (dir : ChanDir) (value : Expr)

/-- A signature, with the place of `func` where it is written. -/
structure FuncType where
  func : Pos
  typeParams : Option FieldList
  params : FieldList
  results : Option FieldList

/-- Parameters, results, struct fields or interface elements. -/
structure FieldList where
  opening : Pos
  list : List Field
  closing : Pos

structure Field where
  doc : Option CommentGroup
  names : List Ident
  type : Expr
  tag : Option Lit
  comment : Option CommentGroup

structure Block where
  lbrace : Pos
  stmts : List Stmt
  rbrace : Pos

inductive Stmt where
  | decl (d : GenDecl)
  | empty (pos : Pos) (implied : Bool)
  | labeled (label : Ident) (colon : Pos) (stmt : Stmt)
  | expr (x : Expr)
  | send (chan : Expr) (arrow : Pos) (value : Expr)
  | incDec (x : Expr) (opPos : Pos) (op : Tok)
  | assign (lhs : List Expr) (opPos : Pos) (op : Tok) (rhs : List Expr)
  | go (pos : Pos) (call : Expr)
  | defer (pos : Pos) (call : Expr)
  | ret (pos : Pos) (results : List Expr)
  | branch (pos : Pos) (kind : Tok) (label : Option Ident)
  | block (b : Block)
  | ifElse (pos : Pos) (init : Option Stmt) (cond : Expr) (body : Block) (orElse : Option Stmt)
  | caseClause (pos : Pos) (list : Option (List Expr)) (colon : Pos) (body : List Stmt)
  | switch (pos : Pos) (init : Option Stmt) (tag : Option Expr) (body : Block)
  | typeSwitch (pos : Pos) (init : Option Stmt) (assign : Stmt) (body : Block)
  | commClause (pos : Pos) (comm : Option Stmt) (colon : Pos) (body : List Stmt)
  | select (pos : Pos) (body : Block)
  | forLoop (pos : Pos) (init : Option Stmt) (cond : Option Expr) (post : Option Stmt)
      (body : Block)
  | forRange (pos : Pos) (key value : Option Expr) (opPos : Pos) (op : Option Tok) (rangePos : Pos)
      (x : Expr) (body : Block)

/-- A declaration of imports, constants, variables or types. -/
structure GenDecl where
  doc : Option CommentGroup
  pos : Pos
  kind : Tok
  lparen : Pos
  specs : List Spec
  rparen : Pos

inductive Spec where
  | importSpec (doc : Option CommentGroup) (name : Option Ident) (path : Lit)
      (comment : Option CommentGroup) (stop : Pos)
  | valueSpec (doc : Option CommentGroup) (names : List Ident) (type : Option Expr)
      (values : List Expr) (comment : Option CommentGroup)
  | typeSpec (doc : Option CommentGroup) (name : Ident) (typeParams : Option FieldList)
      (assign : Pos) (type : Expr) (comment : Option CommentGroup)

end

structure FuncDecl where
  doc : Option CommentGroup
  recv : Option FieldList
  name : Ident
  type : FuncType
  body : Option Block

inductive Decl where
  | gen (d : GenDecl)
  | func (d : FuncDecl)

structure File where
  doc : Option CommentGroup
  package : Pos
  name : Ident
  decls : List Decl
  comments : List CommentGroup
  table : LineTable

end RetryWeave.Syntax
