import RetryWeave.Layout.Exprs
import RetryWeave.Text.Quoted

/-!
The layout of declarations and statements, and of all kinds of expressions.
-/

namespace RetryWeave.Layout

open Syntax Print

/-! ### Specifications -/

/-- Characters that an import path may not have. -/
def badPathChars : List Char := "!\"#$%&'()*,:;<=>?[\\]^\x7b|\x7d\x60\uFFFD".toList

/-- An import path in double quotes, if it is a valid one. -/
def importPath (text : Bytes) : Bytes :=
  match Quoted.unquote? text with
  | none => text
  | some path =>
    let good (r : Rune) : Bool :=
      Unicode.isPrintable r.char && !Unicode.isSpace r.char && !badPathChars.contains r.char
    if path.isEmpty || !path.runes.all good then text else Quoted.quote path

/-- A specification in a group of the given size. -/
def spec (r : Parts) (count : Nat) (indents : Bool) : Spec → Print Unit
  | .importSpec doc id path comment stop => do
    setComment doc
    match id with
    | some id =>
      setPos id.pos
      name id
      blank
    | none => pure ()
    r.outer (.lit { path with text := importPath path.text })
    setComment comment
    setPos stop
  | .valueSpec doc names type values comment => do
    setComment doc
    identList r names indents
    match type with
    | some t =>
      blank
      r.outer t
    | none => pure ()
    if !values.isEmpty then
      blank
      token .assign
      blank
      exprList r none values 1 false false none
    setComment comment
  | .typeSpec doc id typeParams assign type comment => do
    setComment doc
    setPos id.pos
    name id
    match typeParams with
    | some l => parameters r l .declared
    | none => pure ()
    space (if count = 1 then .blank else .cell)
    if assign.isSome then
      token .assign
      blank
    r.outer type
    setComment comment

/-- A constant or variable in a group: names, type, values and comment in cells. -/
def valueSpec (r : Parts) (keepType : Bool) : Spec → Print Unit
  | .valueSpec doc names type values comment => do
    setComment doc
    identList r names false
    let typed := type.isSome || keepType
    if typed then space .cell
    match type with
    | some t => r.outer t
    | none => pure ()
    if !values.isEmpty then
      space .cell
      token .assign
      blank
      exprList r none values 1 false false none
    if comment.isSome then
      repeatSpace .cell (3 - (if typed then 1 else 0) - (if values.isEmpty then 0 else 1))
      setComment comment
  | other => spec r 2 false other

/-- A specification with values, one with a type. -/
def specShape : Spec → Bool × Bool
  | .valueSpec _ _ type values _ => (!values.isEmpty, type.isSome)
  | _ => (false, false)

/-- Which specifications have a cell for the type: in a run of specifications with values all have
one if any has a type. The arguments are the length of the run so far, and whether it has a type. -/
def keepTypes : Nat → Bool → List (Bool × Bool) → List Bool
  | run, typed, [] => List.replicate run typed
  | run, typed, (valued, hasType) :: rest =>
    if valued then
      let typed := if run = 0 then hasType else typed || hasType
      keepTypes (run + 1) typed rest
    else List.replicate run typed ++ false :: keepTypes 0 false rest

/-- Specifications on lines of their own. -/
def specsOnLines : Bool → Nat → List (Spec × Print Unit) → Print Unit
  | _, _, [] => return
  | first, lines, (s, layout) :: rest => do
    if !first then
      let _ ← linebreak (← lineOf s.start) 1 .dropped (0 < lines)
    let lines ← spanning layout
    specsOnLines false lines rest

def genDecl (r : Parts) (d : GenDecl) : Print Unit := do
  setComment d.doc
  tokenAt d.pos d.kind
  blank
  let count := d.specs.length
  match d.lparen, d.specs with
  | none, [s] => spec r 1 true s
  | _, _ =>
    tokenAt d.lparen .lparen
    if 0 < count then
      indent
      space .section
      let cells := 1 < count && (d.kind == .kwConst || d.kind == .kwVar)
      let keep := keepTypes 0 false (d.specs.map specShape)
      specsOnLines true 0 ((d.specs.zip keep).map fun (s, k) =>
        (s, if cells then valueSpec r k s else spec r count false s))
      unindent
      space .section
    tokenAt d.rparen .rparen

/-! ### Statements -/

/-- How many labels stand before a statement. -/
def labelCount : Stmt → Nat
  | .labeled _ _ s => labelCount s + 1
  | _ => 0
termination_by structural s => s

def isEmptyStmt : Stmt → Bool
  | .empty _ _ => true
  | _ => false

/-- Statements on lines of their own. Clauses each start a new section; so does a statement after
one that takes several lines, not counting its labels. -/
def stmtsOnLines (r : Parts) (clauses nextIsBrace : Bool) : Bool → Nat → List Stmt → Print Unit
  | _, _, [] => return
  | first, lines, s :: rest => do
    if isEmptyStmt s then stmtsOnLines r clauses nextIsBrace first lines rest
    else
      if 0 < (← get).size then
        let _ ← linebreak (← lineOf s.start) 1 .dropped (first || clauses || 0 < lines)
      let lines ← spanning (r.stmt s (nextIsBrace && rest.isEmpty))
      stmtsOnLines r clauses nextIsBrace false (lines - labelCount s) rest

/-- A list of statements, indented unless they are clauses. A list with empty statements is not
taken to reach up to a closing brace. -/
def stmtList (r : Parts) (clauses nextIsBrace : Bool) (list : List Stmt) : Print Unit := do
  if !clauses then indent
  stmtsOnLines r clauses (nextIsBrace && !list.any isEmptyStmt) true 0 list
  if !clauses then unindent

def stmtBlock (r : Parts) (b : Block) : Print Unit := block (stmtList r false true) b

def clauseBlock (r : Parts) (b : Block) : Print Unit := block (stmtList r true true) b

/-- The header of an `if`, `switch` or `for`. -/
def controlClause (r : Parts) (loop : Bool) (init : Option Stmt) (cond : Option Expr)
    (post : Option Stmt) : Print Unit := do
  let layoutCond : Print Unit := match cond with
    | some x => r.outer x.stripParens
    | none => pure ()
  blank
  if init.isNone && post.isNone then
    layoutCond
    if cond.isSome then blank
  else
    match init with
    | some s => r.stmt s false
    | none => pure ()
    token .semicolon
    blank
    layoutCond
    if loop then
      token .semicolon
      blank
      match post with
      | some s =>
        r.stmt s false
        blank
      | none => pure ()
    else if cond.isSome then blank

/-- Whether an expression is a composite literal, or the address of one. -/
def isComposite : Expr → Bool
  | .composite _ _ _ _ => true
  | .paren _ x _ => isComposite x
  | .unary _ op x => op == .and && isComposite x
  | _ => false
termination_by structural x => x

/-- The lines on which the parts of a list start and stop: whether some part does not start where
the one before it stops. -/
def isScattered : Nat → List (Nat × Nat) → Bool
  | _, [] => false
  | line, (top, bottom) :: rest => line < top || isScattered bottom rest

/-- Whether a list of results looks better if all of it is indented: one of them does not start
where the one before it stops, or several that are no composite literals take several lines. -/
def indentsAll (list : List Expr) : Print Bool := do
  let lines ← list.mapM fun x => return (← lineOf x.start, ← lineOf x.stop)
  match lines, lines.getLast? with
  | (top, _) :: _ :: _, some (_, bottom) =>
    if 0 < top && top < bottom then
      let tall := (list.zip lines).filter fun (x, a, b) => a < b && !isComposite x
      return isScattered top lines || 1 < tall.length
    else return false
  | _, _ => return false

/-- A statement; the flag says that a closing brace follows. -/
def stmt (r : Parts) (s : Stmt) (nextIsBrace : Bool) : Print Unit := do
  setPos s.start
  match s with
  | .decl d => genDecl r d
  | .empty _ _ => pure ()
  | .labeled label colon inner =>
    unindent
    setPos label.pos
    name label
    tokenAt colon .colon
    indent
    match inner with
    | .empty pos _ =>
      if nextIsBrace then r.stmt inner nextIsBrace
      else
        space .newline
        tokenAt pos .semicolon
    | _ =>
      let _ ← linebreak (← lineOf inner.start) 1 .dropped true
      r.stmt inner nextIsBrace
  | .expr x => r.expr0 x 1
  | .send chan arrow value =>
    r.expr0 chan 1
    blank
    tokenAt arrow .arrow
    blank
    r.expr0 value 1
  | .incDec x opPos op =>
    r.expr0 x 2
    tokenAt opPos op
  | .assign lhs opPos op rhs =>
    let depth := if 1 < lhs.length && 1 < rhs.length then 2 else 1
    exprList r s.start lhs depth false false opPos
    blank
    tokenAt opPos op
    blank
    exprList r opPos rhs depth false false none
  | .go _ call =>
    token .kwGo
    blank
    r.outer call
  | .defer _ call =>
    token .kwDefer
    blank
    r.outer call
  | .ret _ results =>
    token .kwReturn
    if !results.isEmpty then
      blank
      if ← indentsAll results then
        indent
        exprList r none results 1 false true none
        unindent
      else exprList r none results 1 false false none
  | .branch _ kind label =>
    token kind
    match label with
    | some id =>
      blank
      setPos id.pos
      name id
    | none => pure ()
  | .block b => stmtBlock r b
  | .ifElse _ init cond body orElse =>
    token .kwIf
    controlClause r false init (some cond) none
    stmtBlock r body
    match orElse with
    | some e =>
      blank
      token .kwElse
      blank
      r.stmt e nextIsBrace
    | none => pure ()
  | .caseClause _ list colon body =>
    match list with
    | some xs =>
      token .kwCase
      blank
      exprList r s.start xs 1 false false colon
    | none => token .kwDefault
    tokenAt colon .colon
    stmtList r false nextIsBrace body
  | .switch _ init tag body =>
    token .kwSwitch
    controlClause r false init tag none
    clauseBlock r body
  | .typeSwitch _ init assign body =>
    token .kwSwitch
    match init with
    | some i =>
      blank
      r.stmt i false
      token .semicolon
    | none => pure ()
    blank
    r.stmt assign false
    blank
    clauseBlock r body
  | .commClause _ comm colon body =>
    match comm with
    | some c =>
      token .kwCase
      blank
      r.stmt c false
    | none => token .kwDefault
    tokenAt colon .colon
    stmtList r false nextIsBrace body
  | .select _ body =>
    token .kwSelect
    blank
    let empty := body.stmts.isEmpty && !(← commentBefore (← placeOf body.rbrace))
    if empty then
      tokenAt body.lbrace .lbrace
      tokenAt body.rbrace .rbrace
    else clauseBlock r body
  | .forLoop _ init cond post body =>
    token .kwFor
    controlClause r true init cond post
    stmtBlock r body
  | .forRange _ key value opPos op _ x body =>
    token .kwFor
    blank
    match key with
    | some k =>
      r.outer k
      match value with
      | some v =>
        tokenAt v.start .comma
        blank
        r.outer v
      | none => pure ()
      blank
      match op with
      | some op =>
        tokenAt opPos op
        blank
      | none => pure ()
    | none => pure ()
    token .kwRange
    blank
    r.outer x.stripParens
    blank
    stmtBlock r body

/-! ### Expressions -/

/-- An expression of any kind. -/
def expr (r : Parts) (x : Expr) (bound depth : Nat) : Print Unit := do
  setPos x.start
  match x with
  | .ident id => name id
  | .lit l =>
    let number := l.kind == .int || l.kind == .float || l.kind == .imag
    let text := if number && !(← get).measuring then normalNumber l.text else l.text
    literal l.kind text
  | .ellipsis _ elem =>
    token .ellipsis
    match elem with
    | some t => r.outer t
    | none => pure ()
  | .func type body =>
    tokenAt type.func .kwFunc
    let column := (← get).outColumn - 4
    signature r type
    funcBody r (stmtList r false true) (← headerSize type.func column) .blank body
  | .composite type lbrace elems rbrace =>
    match type with
    | some t => r.expr t Parts.operandBound depth
    | none => pure ()
    modify fun p => { p with literals := p.literals + 1 }
    tokenAt lbrace .lbrace
    exprList r lbrace elems 1 true false rbrace
    indent
    unindent
    noteOpen
    let toggle : Print Unit := modify fun p => { p with
      tightBreak := !p.tightBreak
      tightBlank := if elems.isEmpty then p.tightBlank else !p.tightBlank }
    toggle
    tokenAt rbrace .rbrace
    noteOpen
    toggle
    modify fun p => { p with literals := p.literals - 1 }
  | .paren _ inner rparen =>
    match inner with
    | .paren _ _ _ => r.expr0 inner depth
    | _ =>
      token .lparen
      r.expr0 inner (reduceDepth depth)
      tokenAt rparen .rparen
  | .selector x sel =>
    let _ ← selector r x sel depth false
  | .index x lbrack indices rbrack =>
    r.expr x Parts.operandBound 1
    tokenAt lbrack .lbrack
    match indices with
    | [i] => r.expr0 i (depth + 1)
    | _ => exprList r lbrack indices (depth + 1) true false rbrack
    tokenAt rbrack .rbrack
  | .slice x lbrack low high max _ rbrack =>
    r.expr x Parts.operandBound 1
    tokenAt lbrack .lbrack
    let indices := [low, high] ++ max.toList.map some
    let given := indices.filterMap id
    let blanks := depth ≤ 1 && 1 < given.length && given.any isBinary
    sliceIndices r depth blanks none indices
    tokenAt rbrack .rbrack
  | .typeAssert x lparen type rparen =>
    r.expr x Parts.operandBound depth
    token .period
    tokenAt lparen .lparen
    match type with
    | some t => r.outer t
    | none => token .kwType
    tokenAt rparen .rparen
  | .call fn lparen args dots rparen => callExpr r fn lparen args dots rparen depth
  | .star _ inner =>
    if Parts.unaryBound < bound then
      token .lparen
      token .mul
      r.outer inner
      token .rparen
    else
      token .mul
      r.outer inner
  | .unary _ op inner =>
    if Parts.unaryBound < bound then
      token .lparen
      r.outer x
      token .rparen
    else
      token op
      r.expr inner Parts.unaryBound depth
  | .binary left opPos op right => binary r left opPos op right bound (cutoff x depth) depth
  | .keyValue key colon value =>
    r.outer key
    tokenAt colon .colon
    blank
    r.outer value
  | .array _ len elem =>
    token .lbrack
    match len with
    | some n => r.outer n
    | none => pure ()
    token .rbrack
    r.outer elem
  | .struct _ fields =>
    token .kwStruct
    fieldList r fields true
  | .funcType type =>
    token .kwFunc
    signature r type
  | .interface _ methods =>
    token .kwInterface
    fieldList r methods false
  | .map _ key value =>
    token .kwMap
    token .lbrack
    r.outer key
    token .rbrack
    r.outer value
  | .chan _ arrow dir value =>
    match dir with
    | .both => token .kwChan
    | .receive =>
      token .arrow
      token .kwChan
    | .send =>
      token .kwChan
      tokenAt arrow .arrow
    blank
    r.outer value

/-- The layouts of syntax nested at most `depth` deep. -/
def parts : Nat → Parts
  | 0 => ⟨fun _ _ _ => refuse, fun _ _ => refuse⟩
  | depth + 1 =>
    let r := parts depth
    ⟨expr r, stmt r⟩

end RetryWeave.Layout
