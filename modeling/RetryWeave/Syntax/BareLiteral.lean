import RetryWeave.Syntax.Extent

/-!
Composite literals that need the parentheses around them: in the header of a statement the brace of
a literal whose type is a name would open the statement's body.
-/

namespace RetryWeave.Syntax

/-- A name, or a selector of one. -/
def Expr.isTypeName : Expr → Bool
  | .ident _ => true
  | .selector x _ => x.isTypeName
  | _ => false
termination_by structural x => x

def optIsTypeName : Option Expr → Bool
  | some x => x.isTypeName
  | none => false

mutual

/-- Whether a literal whose type is a name stands anywhere in an expression, other than in
parentheses or in another literal. -/
def Expr.hasBareLiteral : Expr → Bool
  | .ident _ => false
  | .lit _ => false
  | .ellipsis _ elem => optBare elem
  | .func type body => type.hasBareLiteral || body.hasBareLiteral
  | .composite type _ _ _ => optIsTypeName type
  | .paren _ _ _ => false
  | .selector x _ => x.hasBareLiteral
  | .index x _ indices _ => x.hasBareLiteral || anyBare indices
  | .slice x _ low high max _ _ => x.hasBareLiteral || optBare low || optBare high || optBare max
  | .typeAssert x _ type _ => x.hasBareLiteral || optBare type
  | .call fn _ args _ _ => fn.hasBareLiteral || anyBare args
  | .star _ x => x.hasBareLiteral
  | .unary _ _ x => x.hasBareLiteral
  | .binary x _ _ y => x.hasBareLiteral || y.hasBareLiteral
  | .keyValue key _ value => key.hasBareLiteral || value.hasBareLiteral
  | .array _ len elem => optBare len || elem.hasBareLiteral
  | .struct _ fields => fields.hasBareLiteral
  | .funcType type => type.hasBareLiteral
  | .interface _ methods => methods.hasBareLiteral
  | .map _ key value => key.hasBareLiteral || value.hasBareLiteral
  | .chan _ _ _ value => value.hasBareLiteral
termination_by structural x => x

def anyBare : List Expr → Bool
  | [] => false
  | x :: rest => x.hasBareLiteral || anyBare rest
termination_by structural x => x

def optBare : Option Expr → Bool
  | none => false
  | some x => x.hasBareLiteral
termination_by structural x => x

def optAnyBare : Option (List Expr) → Bool
  | none => false
  | some xs => anyBare xs
termination_by structural x => x

def FuncType.hasBareLiteral : FuncType → Bool
  | ⟨_, typeParams, params, results⟩ =>
    optFieldsBare typeParams || params.hasBareLiteral || optFieldsBare results
termination_by structural x => x

def optFieldsBare : Option FieldList → Bool
  | none => false
  | some l => l.hasBareLiteral
termination_by structural x => x

def FieldList.hasBareLiteral : FieldList → Bool
  | ⟨_, list, _⟩ => anyFieldBare list
termination_by structural x => x

def anyFieldBare : List Field → Bool
  | [] => false
  | f :: rest => f.hasBareLiteral || anyFieldBare rest
termination_by structural x => x

def Field.hasBareLiteral : Field → Bool
  | ⟨_, _, type, _, _⟩ => type.hasBareLiteral
termination_by structural x => x

def Block.hasBareLiteral : Block → Bool
  | ⟨_, stmts, _⟩ => anyStmtBare stmts
termination_by structural x => x

def anyStmtBare : List Stmt → Bool
  | [] => false
  | s :: rest => s.hasBareLiteral || anyStmtBare rest
termination_by structural x => x

def optStmtBare : Option Stmt → Bool
  | none => false
  | some s => s.hasBareLiteral
termination_by structural x => x

def Stmt.hasBareLiteral : Stmt → Bool
  | .decl d => d.hasBareLiteral
  | .empty _ _ => false
  | .labeled _ _ stmt => stmt.hasBareLiteral
  | .expr x => x.hasBareLiteral
  | .send chan _ value => chan.hasBareLiteral || value.hasBareLiteral
  | .incDec x _ _ => x.hasBareLiteral
  | .assign lhs _ _ rhs => anyBare lhs || anyBare rhs
  | .go _ call => call.hasBareLiteral
  | .defer _ call => call.hasBareLiteral
  | .ret _ results => anyBare results
  | .branch _ _ _ => false
  | .block b => b.hasBareLiteral
  | .ifElse _ init cond body orElse =>
    optStmtBare init || cond.hasBareLiteral || body.hasBareLiteral || optStmtBare orElse
  | .caseClause _ list _ body => optAnyBare list || anyStmtBare body
  | .switch _ init tag body => optStmtBare init || optBare tag || body.hasBareLiteral
  | .typeSwitch _ init assign body =>
    optStmtBare init || assign.hasBareLiteral || body.hasBareLiteral
  | .commClause _ comm _ body => optStmtBare comm || anyStmtBare body
  | .select _ body => body.hasBareLiteral
  | .forLoop _ init cond post body =>
    optStmtBare init || optBare cond || optStmtBare post || body.hasBareLiteral
  | .forRange _ key value _ _ _ x body =>
    optBare key || optBare value || x.hasBareLiteral || body.hasBareLiteral
termination_by structural x => x

def GenDecl.hasBareLiteral : GenDecl → Bool
  | ⟨_, _, _, _, specs, _⟩ => anySpecBare specs
termination_by structural x => x

def anySpecBare : List Spec → Bool
  | [] => false
  | s :: rest => s.hasBareLiteral || anySpecBare rest
termination_by structural x => x

def Spec.hasBareLiteral : Spec → Bool
  | .importSpec _ _ _ _ _ => false
  | .valueSpec _ _ type values _ => optBare type || anyBare values
  | .typeSpec _ _ typeParams _ type _ => optFieldsBare typeParams || type.hasBareLiteral
termination_by structural x => x

end

/-- An expression in the header of a statement, without the parentheses it does not need. -/
def Expr.stripParens : Expr → Expr
  | .paren l x r => if x.hasBareLiteral then .paren l x r else x.stripParens
  | x => x
termination_by structural x => x

/-- An expression without the parentheses around it. -/
def Expr.stripAllParens : Expr → Expr
  | .paren _ x _ => x.stripAllParens
  | x => x
termination_by structural x => x

end RetryWeave.Syntax
