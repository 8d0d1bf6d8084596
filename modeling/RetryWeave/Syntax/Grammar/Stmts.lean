import RetryWeave.Syntax.Grammar.Decls

/-!
Statements.
-/

namespace RetryWeave.Syntax.Grammar

open Parse

/-! ### Simple statements -/

/-- What a simple statement may be besides an expression, a send, an increment or an assignment. -/
inductive SimpleMode where
  | basic
  | label
  | range
deriving DecidableEq

/-- A simple statement, or the head of a range loop. -/
inductive Simple where
  | stmt (s : Stmt)
  | range (lhs : List Expr) (opPos : Pos) (op : Option Tok) (rangePos : Pos) (x : Expr)

def simple (r : Nested) (mode : SimpleMode) : Parse Simple := do
  let lhs ← r.exprList
  let t ← current
  if t.kind.isAssignment then
    next
    let u ← current
    if mode == .range && u.kind == .kwRange && (t.kind == .define || t.kind == .assign) then
      next
      return .range lhs (some t.start) (some t.kind) (some u.start) (← r.expr)
    else
      return .stmt (.assign lhs (some t.start) t.kind (← r.exprList))
  else
    match lhs with
    | [x] =>
      match t.kind, x with
      | .colon, .ident label =>
        next
        if mode == .label then return .stmt (.labeled label (some t.start) (← r.stmt)) else refuse
      | .colon, _ => refuse
      | .arrow, _ =>
        next
        return .stmt (.send x (some t.start) (← r.expr))
      | .inc, _ | .dec, _ =>
        next
        return .stmt (.incDec x (some t.start) t.kind)
      | _, _ => return .stmt (.expr x)
    | _ => refuse

/-- A simple statement. -/
def simpleStmt (r : Nested) (mode : SimpleMode) : Parse Stmt := do
  match ← simple r mode with
  | .stmt s => return s
  | .range .. => refuse

/-- The expression that a statement consists of. -/
def asExpr : Stmt → Parse Expr
  | .expr x => pure x
  | _ => refuse

/-! ### Blocks -/

def stmtList (r : Nested) : Parse (List Stmt) :=
  many do
    let k ← kind
    if k == .kwCase || k == .kwDefault || k == .rbrace || k == .eof then return none
    else return some (← r.stmt)

def block (r : Nested) : Parse Block := do
  let lbrace ← expect .lbrace
  let stmts ← stmtList r
  let rbrace ← expect .rbrace
  return ⟨lbrace, stmts, rbrace⟩

/-! ### Calls, returns and jumps -/

def deferredCall (r : Nested) : Parse Expr := do
  let x ← r.expr
  match x with
  | .call .. =>
    let _ ← expectSemi
    return x
  | _ => refuse

def returnStmt (r : Nested) : Parse Stmt := do
  let pos ← expect .kwReturn
  let k ← kind
  let values ← if k == .semicolon || k == .rbrace then pure [] else r.exprList
  let _ ← expectSemi
  return .ret pos values

def branchStmt (k : Tok) : Parse Stmt := do
  let pos ← expect k
  let labeled := k == .kwGoto || ((k == .kwContinue || k == .kwBreak) && (← kind) == .ident)
  let label ← if labeled then some <$> ident else pure none
  let _ ← expectSemi
  return .branch pos k label

/-! ### Conditions -/

/-- The optional statement and the condition of an `if`. -/
def ifHeader (r : Nested) : Parse (Option Stmt × Expr) := inHeader do
  let k ← kind
  if k == .lbrace then refuse
  else
    let init ← if k == .semicolon then pure none else some <$> simpleStmt r .basic
    if (← kind) == .lbrace then
      match init with
      | some s => return (none, ← asExpr s)
      | none => refuse
    else
      let _ ← expect .semicolon
      return (init, ← asExpr (← simpleStmt r .basic))

def ifStmt (r : Nested) : Parse Stmt := do
  let pos ← expect .kwIf
  let (init, cond) ← ifHeader r
  let body ← r.block
  if ← accept .kwElse then
    match ← kind with
    | .kwIf => return .ifElse pos init cond body (some (← r.stmt))
    | .lbrace =>
      let orElse ← r.block
      let _ ← expectSemi
      return .ifElse pos init cond body (some (.block orElse))
    | _ => refuse
  else
    let _ ← expectSemi
    return .ifElse pos init cond body none

/-! ### Switches -/

def caseClause (r : Nested) : Parse (Option Stmt) := do
  let t ← current
  let list ← match t.kind with
    | .kwCase => do
      next
      pure (some (some (← r.exprList)))
    | .kwDefault => do
      next
      pure (some none)
    | _ => pure none
  match list with
  | none => return none
  | some list =>
    let colon ← expect .colon
    return some (.caseClause (some t.start) list colon (← stmtList r))

/-- What stands before the braces of a switch: `x.(type)`, or with a variable `v := x.(type)`. -/
def isTypeGuard : Stmt → Bool
  | .expr (.typeAssert _ _ none _) => true
  | .assign [_] _ .define [.typeAssert _ _ none _] => true
  | _ => false

def switchStmt (r : Nested) : Parse Stmt := do
  let pos ← expect .kwSwitch
  let (init, tag) ← if (← kind) == .lbrace then pure (none, none)
    else inHeader do
      let first ← if (← kind) == .semicolon then pure none else some <$> simpleStmt r .basic
      if ← accept .semicolon then
        let second ← if (← kind) == .lbrace then pure none else some <$> simpleStmt r .basic
        pure (first, second)
      else pure (none, first)
  let lbrace ← expect .lbrace
  let clauses ← many (caseClause r)
  let rbrace ← expect .rbrace
  let _ ← expectSemi
  let body : Block := ⟨lbrace, clauses, rbrace⟩
  match tag with
  | none => return .switch pos init none body
  | some s =>
    if isTypeGuard s then return .typeSwitch pos init s body
    else return .switch pos init (some (← asExpr s)) body

/-! ### Communication -/

def commStmt (r : Nested) : Parse Stmt := do
  let lhs ← r.exprList
  let t ← current
  match t.kind, lhs with
  | .arrow, [chan] =>
    next
    return .send chan (some t.start) (← r.expr)
  | .arrow, _ => refuse
  | .assign, _ | .define, _ =>
    if 2 < lhs.length then refuse
    else
      next
      return .assign lhs (some t.start) t.kind [← r.expr]
  | _, [x] => return .expr x
  | _, _ => refuse

def commClause (r : Nested) : Parse (Option Stmt) := do
  let t ← current
  let comm ← match t.kind with
    | .kwCase => do
      next
      pure (some (some (← commStmt r)))
    | .kwDefault => do
      next
      pure (some none)
    | _ => pure none
  match comm with
  | none => return none
  | some comm =>
    let colon ← expect .colon
    return some (.commClause (some t.start) comm colon (← stmtList r))

def selectStmt (r : Nested) : Parse Stmt := do
  let pos ← expect .kwSelect
  let lbrace ← expect .lbrace
  let clauses ← many (commClause r)
  let rbrace ← expect .rbrace
  let _ ← expectSemi
  return .select pos ⟨lbrace, clauses, rbrace⟩

/-! ### Loops -/

/-- What stands between `for` and its body. -/
inductive LoopHeader where
  | clauses (init : Option Stmt) (cond : Option Stmt) (post : Option Stmt)
  | range (lhs : List Expr) (opPos : Pos) (op : Option Tok) (rangePos : Pos) (x : Expr)

def loopHeader (r : Nested) : Parse LoopHeader := do
  let t ← current
  let first : Option Simple ← match t.kind with
    | .semicolon => pure none
    | .kwRange => do
      next
      pure (some (.range [] none none (some t.start) (← r.expr)))
    | _ => some <$> simple r .range
  match first with
  | some (.range lhs opPos op rangePos x) => return .range lhs opPos op rangePos x
  | some (.stmt s) => if (← kind) == .semicolon then clauses (some s) else
      return .clauses none (some s) none
  | none => clauses none
where
  /-- The condition and the last clause, after the first. -/
  clauses (init : Option Stmt) : Parse LoopHeader := do
    next
    let cond ← if (← kind) == .semicolon then pure none else some <$> simpleStmt r .basic
    let _ ← expectSemi
    let post ← if (← kind) == .lbrace then pure none else some <$> simpleStmt r .basic
    return .clauses init cond post

def forStmt (r : Nested) : Parse Stmt := do
  let pos ← expect .kwFor
  let header ← if (← kind) == .lbrace then pure (.clauses none none none)
    else inHeader (loopHeader r)
  let body ← r.block
  let _ ← expectSemi
  match header with
  | .range lhs opPos op rangePos x =>
    match lhs with
    | [] => return .forRange pos none none opPos op rangePos x body
    | [key] => return .forRange pos (some key) none opPos op rangePos x body
    | [key, value] => return .forRange pos (some key) (some value) opPos op rangePos x body
    | _ => refuse
  | .clauses init cond post =>
    let cond ← match cond with
      | some s => some <$> asExpr s
      | none => pure none
    return .forLoop pos init cond post body

/-! ### Statements -/

def startsSimple (k : Tok) : Bool :=
  k.isLiteral || k == .ident || k == .kwFunc || k == .lparen || k == .lbrack || k == .kwStruct ||
    k == .kwMap || k == .kwChan || k == .kwInterface || k == .add || k == .sub || k == .mul ||
    k == .and || k == .xor || k == .arrow || k == .not

def stmt (r : Nested) : Parse Stmt := do
  let t ← current
  match t.kind with
  | .kwConst | .kwType | .kwVar => return .decl (← localDecl r)
  | .kwGo =>
    next
    return .go (some t.start) (← deferredCall r)
  | .kwDefer =>
    next
    return .defer (some t.start) (← deferredCall r)
  | .kwReturn => returnStmt r
  | .kwBreak | .kwContinue | .kwGoto | .kwFallthrough => branchStmt t.kind
  | .lbrace =>
    let b ← block r
    let _ ← expectSemi
    return .block b
  | .kwIf => ifStmt r
  | .kwSwitch => switchStmt r
  | .kwSelect => selectStmt r
  | .kwFor => forStmt r
  | .semicolon =>
    next
    return .empty (some t.start) t.implied
  | .rbrace => return .empty (some t.start) true
  | k =>
    if startsSimple k then
      match ← simpleStmt r .label with
      | .labeled label colon s => return .labeled label colon s
      | s =>
        let _ ← expectSemi
        return s
    else refuse

end RetryWeave.Syntax.Grammar
