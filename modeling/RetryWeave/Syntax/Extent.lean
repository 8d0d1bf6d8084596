import RetryWeave.Syntax.Tree

/-!
Where the nodes of a syntax tree start and stop.
-/

namespace RetryWeave.Syntax

namespace Expr

/-- Where an expression starts. -/
def start : Expr → Pos
  | .ident id => id.pos
  | .lit l => l.pos
  | .ellipsis pos _ => pos
  | .func type _ => type.func
  | .composite (some type) _ _ _ => type.start
  | .composite none lbrace _ _ => lbrace
  | .paren lparen _ _ => lparen
  | .selector x _ => x.start
  | .index x _ _ _ => x.start
  | .slice x _ _ _ _ _ _ => x.start
  | .typeAssert x _ _ _ => x.start
  | .call fn _ _ _ _ => fn.start
  | .star pos _ => pos
  | .unary pos _ _ => pos
  | .binary x _ _ _ => x.start
  | .keyValue key _ _ => key.start
  | .array lbrack _ _ => lbrack
  | .struct pos _ => pos
  | .funcType type => type.func <|> type.params.opening
  | .interface pos _ => pos
  | .map pos _ _ => pos
  | .chan pos _ _ _ => pos
termination_by structural x => x

end Expr

mutual

/-- Where an expression stops. -/
def Expr.stop : Expr → Pos
  | .ident id => id.stop
  | .lit l => l.stop
  | .ellipsis pos none => pos.plus 3
  | .ellipsis _ (some elem) => elem.stop
  | .func _ body => body.rbrace.plus 1
  | .composite _ _ _ rbrace => rbrace.plus 1
  | .paren _ _ rparen => rparen.plus 1
  | .selector _ sel => sel.stop
  | .index _ _ _ rbrack => rbrack.plus 1
  | .slice _ _ _ _ _ _ rbrack => rbrack.plus 1
  | .typeAssert _ _ _ rparen => rparen.plus 1
  | .call _ _ _ _ rparen => rparen.plus 1
  | .star _ x => x.stop
  | .unary _ _ x => x.stop
  | .binary _ _ _ y => y.stop
  | .keyValue _ _ value => value.stop
  | .array _ _ elem => elem.stop
  | .struct _ fields => fields.closing.plus 1
  | .funcType type => type.stop
  | .interface _ methods => methods.closing.plus 1
  | .map _ _ value => value.stop
  | .chan _ _ _ value => value.stop
termination_by structural x => x

/-- Where a signature stops. -/
def FuncType.stop : FuncType → Pos
  | ⟨_, _, _, some results⟩ => results.stop
  | ⟨_, _, params, none⟩ => params.closing.plus 1
termination_by structural x => x

/-- A list without closing delimiter stops with its last field. -/
def FieldList.stop : FieldList → Pos
  | ⟨_, _, some closing⟩ => some (closing + 1)
  | ⟨_, list, none⟩ => lastStop list
termination_by structural x => x

/-- Where the last of some fields stops. -/
def lastStop : List Field → Pos
  | [] => none
  | [f] => f.stop
  | _ :: rest => lastStop rest
termination_by structural x => x

/-- Where a field stops. -/
def Field.stop : Field → Pos
  | ⟨_, _, _, some tag, _⟩ => tag.stop
  | ⟨_, _, type, none, _⟩ => type.stop
termination_by structural x => x

end

/-- Where a field starts: with its first name, or with its type. -/
def Field.start (f : Field) : Pos :=
  match f.names with
  | id :: _ => id.pos
  | [] => f.type.start

/-- A list without opening delimiter starts with its first field. -/
def FieldList.start (l : FieldList) : Pos :=
  match l.opening with
  | some p => some p
  | none => l.list.head?.bind (·.start)

/-- Where a statement starts. -/
def Stmt.start : Stmt → Pos
  | .decl d => d.pos
  | .empty pos _ => pos
  | .labeled label _ _ => label.pos
  | .expr x => x.start
  | .send chan _ _ => chan.start
  | .incDec x _ _ => x.start
  | .assign lhs _ _ _ => lhs.head?.bind (·.start)
  | .go pos _ => pos
  | .defer pos _ => pos
  | .ret pos _ => pos
  | .branch pos _ _ => pos
  | .block b => b.lbrace
  | .ifElse pos _ _ _ _ => pos
  | .caseClause pos _ _ _ => pos
  | .switch pos _ _ _ => pos
  | .typeSwitch pos _ _ _ => pos
  | .commClause pos _ _ _ => pos
  | .select pos _ => pos
  | .forLoop pos _ _ _ _ => pos
  | .forRange pos _ _ _ _ _ _ _ => pos

/-- Where a specification starts. -/
def Spec.start : Spec → Pos
  | .importSpec _ (some name) _ _ _ => name.pos
  | .importSpec _ none path _ _ => path.pos
  | .valueSpec _ names _ _ _ => names.head?.bind (·.pos)
  | .typeSpec _ name _ _ _ _ => name.pos

/-- Where a specification stops. -/
def Spec.stop : Spec → Pos
  | .importSpec _ _ path _ stop => stop <|> path.stop
  | .valueSpec _ names type values _ =>
    match values.getLast?, type with
    | some value, _ => value.stop
    | none, some t => t.stop
    | none, none => names.getLast?.bind (·.stop)
  | .typeSpec _ _ _ _ type _ => type.stop

/-- Where a function declaration starts: with its `func`. -/
def FuncDecl.start (d : FuncDecl) : Pos := d.type.func

/-- Where a function declaration stops: with its body, or with its signature. -/
def FuncDecl.stop (d : FuncDecl) : Pos :=
  match d.body with
  | some body => body.rbrace.plus 1
  | none => d.type.stop

/-- Where a declaration starts. -/
def Decl.start : Decl → Pos
  | .gen d => d.pos
  | .func d => d.start

end RetryWeave.Syntax
