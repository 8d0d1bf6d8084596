import RetryWeave.Layout.Words
import RetryWeave.Syntax.BareLiteral

/-!
The layout of expressions, types and signatures.
-/

namespace RetryWeave.Layout

open Syntax Print

/-- The layouts of nested syntax. -/
structure Parts where
  /-- An expression where operators have to bind at least as tightly as `bound`; the deeper it is
  nested, the fewer blanks stand around its operators. -/
  expr : Expr → (bound depth : Nat) → Print Unit
  /-- A statement; the flag says that a closing brace follows. -/
  stmt : Stmt → Bool → Print Unit

namespace Parts

def expr0 (r : Parts) (x : Expr) (depth : Nat) : Print Unit := r.expr x 0 depth

def outer (r : Parts) (x : Expr) : Print Unit := r.expr x 0 1

/-- How tightly a unary operator binds. -/
def unaryBound : Nat := 6

/-- How tightly operands of selectors, indices and calls bind. -/
def operandBound : Nat := 7

end Parts

/-! ### Numbers -/

/-- Replaces the last `old` of a text. -/
def replaceLast (old new : UInt8) (text : Bytes) : Bytes :=
  match Bytes.cutLast? old text with
  | some (before, after) => before ++ [new] ++ after
  | none => text

/-- A number with lower case base marks and exponents. An imaginary integer has no leading zeros. -/
def normalNumber (text : Bytes) : Bytes :=
  match text with
  | a :: b :: rest =>
    if a == Ascii.zero && Ascii.toLower b == 120 then
      [a, 120] ++ replaceLast 80 112 rest
    else if a == Ascii.zero && (Ascii.toLower b == 111 || Ascii.toLower b == 98) then
      a :: Ascii.toLower b :: rest
    else if text.contains 69 then replaceLast 69 101 text
    else if text.getLast? == some 105 && !text.contains Ascii.dot && !text.contains 101 then
      match text.dropWhile fun d => d == Ascii.zero || d == Ascii.underscore with
      | [105] => [Ascii.zero, 105]
      | trimmed => trimmed
    else text
  | _ => text

/-! ### Lists of expressions -/

/-- The sizes since the last break of the columns: the sum of their logarithms, and their number. -/
structure Sizes where
  logs : Nat
  count : Nat

namespace Sizes

def none : Sizes := ⟨0, 0⟩

/-- How many units a logarithm is counted in. Sizes are smaller than this. -/
def unit : Nat := 1 <<< 20

/-- The logarithm to the base two, taken as linear between powers of two. -/
def log (size : Nat) : Nat :=
  unit * size.log2 + unit * (size - (1 <<< size.log2)) / (1 <<< size.log2)

def insert (s : Sizes) (size : Nat) : Sizes :=
  if size = 0 then s else ⟨s.logs + log size, s.count + 1⟩

/-- The number whose logarithm is the mean of those of the sizes, as a numerator; the denominator is
the number of sizes in units. -/
def mean (s : Sizes) : Nat :=
  let all := unit * s.count
  (1 <<< (s.logs / all)) * (all + s.logs % all)

/-- Whether a size is at least two and a half times the mean, or at most two fifths of it. -/
def isFar (s : Sizes) (size : Nat) : Bool :=
  let size := size * (unit * s.count)
  5 * size ≤ 2 * s.mean || 5 * s.mean ≤ 2 * size

end Sizes

/-- What is known between two expressions of a list. -/
structure ListLayout where
  /-- The indentation still to come before the first line break. -/
  first : Space
  /-- The number of expressions up to the one after the last line break. -/
  broken : Nat
  /-- The size of the last expression, or of its key; zero if it takes several lines. -/
  size : Nat
  sizes : Sizes
  /-- The line of the last expression. -/
  line : Nat

/-- Sizes up to which columns are always aligned. -/
def smallSize : Nat := 40

/-- The size by which an expression is aligned with the one before: that of a key, or that of the
whole expression. -/
def alignmentSize (r : Parts) (x : Expr) : Print Nat := do
  match ← sizeOf? (r.outer x) with
  | none => return 0
  | some size =>
    match x with
    | .keyValue key _ _ => return (← sizeOf? (r.outer key)).getD 0
    | _ => return size

/-- The expressions of a list that spans lines, with the breaks that it has in the source. -/
def listElements (r : Parts) (depth total : Nat) (sized : Bool) :
    Nat → ListLayout → List Expr → Print ListLayout
  | _, l, [] => return l
  | i, l, x :: rest => do
    let line ← lineOf x.start
    let size ← if sized && !(← get).measuring then alignmentSize r x else pure 0
    let aligned := 0 < l.size && 0 < size &&
      (l.sizes.count = 0 || (l.size ≤ smallSize && size ≤ smallSize) || !l.sizes.isFar size)
    let needsBreak := 0 < l.line && l.line < line
    let l ← if i = 0 then pure l else do
      if !needsBreak then setPos x.start
      token .comma
      let breaks ← if needsBreak then linebreak line 0 l.first (!aligned || l.broken < i)
        else pure 0
      if breaks = 0 then
        blank
        pure l
      else
        pure { l with
          first := .dropped, broken := i + 1
          sizes := if 1 < breaks then .none else l.sizes }
    match x with
    | .keyValue key colon value =>
      if 1 < total && 0 < size && needsBreak then
        r.outer key
        tokenAt colon .colon
        space .cell
        r.outer value
      else r.expr0 x depth
    | _ => r.expr0 x depth
    listElements r depth total sized (i + 1)
      { l with size, sizes := l.sizes.insert size, line } rest

/-- The expressions of a list on one line. -/
def lineElements (r : Parts) (depth : Nat) : Bool → List Expr → Print Unit
  | _, [] => return
  | first, x :: rest => do
    if !first then
      tokenAt x.start .comma
      blank
    r.expr0 x depth
    lineElements r depth false rest

/-- A list of expressions between two places. With `closes` a comma ends the list where the next
word is on a new line; with `flush` line breaks indent nothing. -/
def exprList (r : Parts) (before : Pos) (list : List Expr) (depth : Nat) (closes flush : Bool)
    (after : Pos) : Print Unit := do
  if list.isEmpty then return
  let prev ← placeOf before
  let next ← placeOf after
  let line ← lineOf (list.head?.bind (·.start))
  let endLine ← lineOf (list.getLast?.bind (·.stop))
  if prev.isValid && prev.line == line && line == endLine then lineElements r depth true list
  else
    let first : Space := if flush then .dropped else .indent
    let breaks ← if prev.isValid && prev.line < line then linebreak line 0 first true else pure 0
    let l : ListLayout :=
      ⟨if 0 < breaks then .dropped else first, if 0 < breaks then 1 else 0, 0, .none, prev.line⟩
    let l ← listElements r depth list.length (prev.isValid && next.isValid) 0 l list
    let indented := l.first == .dropped && !flush
    if closes && next.isValid && (← get).pos.line < next.line then
      token .comma
      if indented then unindent
      space .section
    else if indented then unindent

def identList (r : Parts) (names : List Ident) (indents : Bool) : Print Unit :=
  exprList r none (names.map .ident) 1 false (!indents) none

/-! ### Signatures -/

inductive ParamKind where
  | params
  | typeParams
  /-- The type parameters of a type declaration. -/
  | declared
deriving DecidableEq

/-- Whether an expression can only be part of a constraint. -/
def isTypeElement : Expr → Bool
  | .array _ _ _ | .struct _ _ | .funcType _ | .interface _ _ | .map _ _ _ | .chan _ _ _ _ => true
  | .unary _ op _ => op == .tilde
  | .binary x _ _ y => isTypeElement x || isTypeElement y
  | .paren _ x _ => isTypeElement x
  | _ => false
termination_by structural x => x

/-- Whether a name and a constraint after it would read as an expression. -/
def combinesWithName : Expr → Bool
  | .star _ x => !isTypeElement x
  | .paren _ x _ => !isTypeElement x
  | .binary x _ _ y => combinesWithName x && !isTypeElement y
  | _ => false
termination_by structural x => x

/-- The parameters of a list; the state is the indentation to come and the line of the last one. -/
def paramFields (r : Parts) : Bool → Space → Nat → List Field → Print (Space × Nat)
  | _, first, line, [] => return (first, line)
  | head, first, line, f :: rest => do
    let top ← lineOf f.start
    let bottom ← lineOf f.stop
    let needsBreak := 0 < line && line < top
    if !head then
      if !needsBreak then setPos f.start
      token .comma
    let breaks ← if needsBreak then linebreak top 0 first true else pure 0
    let first := if 0 < breaks then .dropped else first
    if breaks = 0 && !head then blank
    if !f.names.isEmpty then
      identList r f.names (first == .indent)
      blank
    r.outer f.type.stripAllParens
    paramFields r false first bottom rest

def parameters (r : Parts) (l : FieldList) (kind : ParamKind) : Print Unit := do
  let square := kind != .params
  tokenAt l.opening (if square then .lbrack else .lparen)
  match l.list with
  | [] => pure ()
  | f :: rest =>
    let (first, line) ← paramFields r true .indent (← lineOf l.opening) l.list
    let closing ← lineOf l.closing
    if 0 < line && line < closing then
      token .comma
      let _ ← linebreak closing 0 .dropped true
    else if kind == .declared && rest.isEmpty && f.names.length ≤ 1 &&
        combinesWithName f.type.stripAllParens then
      token .comma
    if first == .dropped then unindent
  tokenAt l.closing (if square then .rbrack else .rparen)

def signature (r : Parts) (type : FuncType) : Print Unit := do
  match type.typeParams with
  | some l => parameters r l .typeParams
  | none => pure ()
  parameters r type.params .params
  match type.results with
  | none | some ⟨_, [], _⟩ => pure ()
  | some ⟨opening, [f], closing⟩ =>
    blank
    if f.names.isEmpty then r.outer f.type.stripAllParens
    else parameters r ⟨opening, [f], closing⟩ .params
  | some results =>
    blank
    parameters r results .params

/-! ### Fields -/

/-- The largest size of a field that is laid out on one line with its braces. -/
def maxFieldSize : Nat := 30

/-- Whether the only field of a list is small enough for one line. -/
def isOneLineField (r : Parts) (f : Field) : Print Bool := do
  if f.tag.isSome || f.comment.isSome then return false
  let gap := if f.names.isEmpty then 0 else 1
  match ← sizeOf? (r.outer f.type) with
  | none => return false
  | some size => return gap + size ≤ maxFieldSize

def namesOnLine : Bool → List Ident → Print Unit
  | _, [] => return
  | first, id :: rest => do
    if !first then
      token .comma
      blank
    setPos id.pos
    name id
    namesOnLine false rest

/-- A method or an embedded element of an interface. -/
def element (r : Parts) (f : Field) : Print Unit := do
  match f.names, f.type with
  | id :: _, .funcType type =>
    setPos id.pos
    name id
    signature r type
  | _, type => r.outer type

def repeatSpace (s : Space) : Nat → Print Unit
  | 0 => return
  | n + 1 => do
    space s
    repeatSpace s n

/-- A field of a struct, with its cells separated by `sep`. -/
def structField (r : Parts) (sep : Space) (f : Field) : Print Unit := do
  if f.names.isEmpty then r.outer f.type
  else
    identList r f.names false
    space sep
    r.outer f.type
  match f.tag with
  | some tag =>
    if !f.names.isEmpty && sep == .cell then space sep
    space sep
    r.outer (.lit tag)
  | none => pure ()
  if f.comment.isSome then
    repeatSpace sep (if f.tag.isSome then 0 else if f.names.isEmpty then 2 else 1)
    setComment f.comment

/-- Fields on lines of their own; `lines` is the number of line breaks in the one before. -/
def fieldsOnLines (layout : Field → Print Unit) : Bool → Nat → List Field → Print Unit
  | _, _, [] => return
  | first, lines, f :: rest => do
    if !first then
      let _ ← linebreak (← lineOf f.start) 1 .dropped (0 < lines)
    setComment f.doc
    let lines ← spanning (layout f)
    fieldsOnLines layout false lines rest

/-- The fields of a struct or the elements of an interface. -/
def fieldList (r : Parts) (l : FieldList) (isStruct : Bool) : Print Unit := do
  let hasComments ← commentBefore (← placeOf l.closing)
  let oneLine := l.opening.isSome && l.closing.isSome &&
    (← lineOf l.opening) == (← lineOf l.closing)
  let small ← match l.list with
    | [f] => if !hasComments && oneLine then isOneLineField r f else pure false
    | _ => pure false
  match l.list with
  | f :: _ =>
    if small then
      tokenAt l.opening .lbrace
      blank
      if isStruct then
        namesOnLine true f.names
        if !f.names.isEmpty then blank
        r.outer f.type
      else element r f
      blank
      tokenAt l.closing .rbrace
    else
      blank
      tokenAt l.opening .lbrace
      indent
      space .section
      if isStruct then
        fieldsOnLines (structField r (if l.list.length = 1 then .blank else .cell)) true 0 l.list
      else
        fieldsOnLines (fun f => do
          element r f
          setComment f.comment) true 0 l.list
      unindent
      space .section
      tokenAt l.closing .rbrace
  | [] =>
    if !hasComments && oneLine then
      tokenAt l.opening .lbrace
      tokenAt l.closing .rbrace
    else
      blank
      tokenAt l.opening .lbrace
      indent
      if hasComments then space .section
      unindent
      space .section
      tokenAt l.closing .rbrace

/-! ### Operators -/

/-- What the operators of an expression are, as far as no parentheses separate them: whether there
are additive ones, multiplicative ones, and how tightly those bind that need blanks to be told from
the operator after them. -/
def operators : Expr → Bool × Bool × Nat
  | .binary x _ op y =>
    let p := op.precedence
    let left : Bool × Bool × Nat :=
      match x with
      | .binary _ _ op' _ => if op'.precedence < p then (false, false, 0) else operators x
      | _ => (false, false, 0)
    let right : Bool × Bool × Nat :=
      match y with
      | .binary _ _ op' _ => if op'.precedence ≤ p then (false, false, 0) else operators y
      | .star _ _ => (false, false, if op == .quo then 5 else 0)
      | .unary _ op' _ =>
        (false, false,
          if (op == .quo && op' == .mul) || (op == .and && (op' == .and || op' == .xor)) then 5
          else if (op == .add && op' == .add) || (op == .sub && op' == .sub) then 4
          else 0)
      | _ => (false, false, 0)
    (p == 4 || left.1 || right.1, p == 5 || left.2.1 || right.2.1, max left.2.2 right.2.2)
  | _ => (false, false, 0)
termination_by structural x => x

/-- Operators that bind less tightly than this have blanks around them. -/
def cutoff (x : Expr) (depth : Nat) : Nat :=
  let (additive, multiplicative, problem) := operators x
  if 0 < problem then problem + 1
  else if additive && multiplicative then if depth = 1 then 5 else 4
  else if depth = 1 then 6
  else 4

/-- How much deeper the left operand of an operator is. -/
def deeperBy (x : Expr) (precedence : Nat) : Nat :=
  match x with
  | .binary _ _ op _ => if op.precedence = precedence then 0 else 1
  | _ => 1

def reduceDepth (depth : Nat) : Nat := max 1 (depth - 1)

def binary (r : Parts) (x : Expr) (opPos : Pos) (op : Tok) (y : Expr) (bound cutoff depth : Nat) :
    Print Unit := do
  let p := op.precedence
  if p < bound then
    token .lparen
    r.expr0 (.binary x opPos op y) (reduceDepth depth)
    token .rparen
  else
    let blanks := p < cutoff
    r.expr x p (depth + deeperBy x p)
    if blanks then blank
    let xline := (← get).pos.line
    let yline ← lineOf y.start
    tokenAt opPos op
    let breaks ← if xline ≠ yline && 0 < xline && 0 < yline then linebreak yline 1 .indent true
      else pure 0
    if blanks && breaks = 0 then blank
    r.expr y (p + 1) (depth + 1)
    if 0 < breaks then unindent

/-! ### Selectors and calls -/

/-- A selector. If the name stands on a line of its own it is indented, and so is what follows the
selector in a call: the result tells that the indentation is still to be ended. -/
def selector (r : Parts) (x : Expr) (sel : Ident) (depth : Nat) (called : Bool) : Print Bool := do
  r.expr x Parts.operandBound depth
  token .period
  let line ← lineOf sel.pos
  let p ← get
  let breaks := p.pos.isValid && p.pos.line < line
  if breaks then
    indent
    space .newline
  setPos sel.pos
  name sel
  if breaks && !called then unindent
  return breaks

/-- Whether a type needs parentheses before the arguments of a conversion. -/
def needsParens : Expr → Bool
  | .funcType _ => true
  | .chan _ _ dir _ => dir == .receive
  | _ => false

def callExpr (r : Parts) (fn : Expr) (lparen : Pos) (args : List Expr) (dots rparen : Pos)
    (depth : Nat) : Print Unit := do
  let depth := if 1 < args.length then depth + 1 else depth
  let parens := needsParens fn
  if parens then token .lparen
  let indented ← match fn with
    | .selector x sel => do
      setPos fn.start
      selector r x sel depth true
    | _ => do
      r.expr fn Parts.operandBound depth
      pure false
  if parens then token .rparen
  tokenAt lparen .lparen
  if dots.isSome then
    exprList r lparen args depth false false dots
    tokenAt dots .ellipsis
    if rparen.isSome && (← lineOf dots) < (← lineOf rparen) then
      token .comma
      space .section
  else exprList r lparen args depth true false rparen
  tokenAt rparen .rparen
  if indented then unindent

def isBinary : Expr → Bool
  | .binary _ _ _ _ => true
  | _ => false

/-- The indices of a slice, with blanks around the colons if an index is a binary expression. -/
def sliceIndices (r : Parts) (depth : Nat) (blanks : Bool) :
    Option (Option Expr) → List (Option Expr) → Print Unit
  | _, [] => return
  | before, x :: rest => do
    match before with
    | none => pure ()
    | some b =>
      if b.isSome && blanks then blank
      token .colon
      if x.isSome && blanks then blank
    match x with
    | some x => r.expr0 x (depth + 1)
    | none => pure ()
    sliceIndices r depth blanks (some x) rest

/-! ### Function bodies -/

/-- The largest size of a function on one line. -/
def maxFuncSize : Nat := 100

/-- The size of the comments before a place. -/
def commentSizeBefore (next : Place) : Print Nat := do
  let p ← get
  let sizes ← p.comments.mapM fun g => do
    let ends ← if p.impliedSemi then endsLine g else pure false
    return (min g.start p.table.size < next.offset && !ends,
      g.list.foldr (fun c size => c.text.length + size) 0)
  return (sizes.takeWhile (·.1)).foldr (fun (_, size) sum => size + sum) 0

/-- The size of statements on one line; nothing once they are too large. -/
def stmtSizes? (r : Parts) : Bool → Nat → List Stmt → Print (Option Nat)
  | _, size, [] => return some size
  | first, size, s :: rest => do
    let size := if first then size else size + 2
    match ← sizeOf? (r.stmt s false) with
    | none => return none
    | some n =>
      if maxFuncSize < size + n then return none else stmtSizes? r false (size + n) rest

/-- The statements of a body on one line. -/
def lineStmts (r : Parts) : Bool → List Stmt → Print Unit
  | _, [] => return
  | first, s :: rest => do
    if !first then
      token .semicolon
      blank
    r.stmt s false
    lineStmts r false rest

/-- The block of a statement, on at least two lines. -/
def block (stmts : List Stmt → Print Unit) (b : Block) : Print Unit := do
  tokenAt b.lbrace .lbrace
  stmts b.stmts
  let _ ← linebreak (← lineOf b.rbrace) 1 .dropped true
  tokenAt b.rbrace .rbrace

/-- Whether a body could stand on one line: in the source it does, and it is short. -/
def mayBeOneLine (b : Block) : Print Bool := do
  let sameLine := !(b.lbrace.isSome && b.rbrace.isSome) ||
    (← lineOf b.lbrace) == (← lineOf b.rbrace)
  return sameLine && b.stmts.length ≤ 5

/-- A body on one line. While measuring, it has to fit there. -/
def lineBody (r : Parts) (header comments : Nat) (sep : Space) (b : Block) : Print Unit := do
  space sep
  tokenAt b.lbrace .lbrace
  let start := (← get).outColumn
  if !b.stmts.isEmpty then
    blank
    lineStmts r true b.stmts
  let p ← get
  if p.measuring && maxFuncSize < header + comments + (p.outColumn - start - 1) then refuse
  if !b.stmts.isEmpty then blank
  modify fun p => { p with tightBreak := !p.tightBreak }
  tokenAt b.rbrace .rbrace
  modify fun p => { p with tightBreak := !p.tightBreak }

/-- A function body after a header of the given size, if the header is on one line. A body that is
small enough stays on the line of the header. -/
def funcBody (r : Parts) (stmts : List Stmt → Print Unit) (header : Option Nat) (sep : Space)
    (b : Block) : Print Unit := do
  let literals := (← get).literals
  modify fun p => { p with literals := 0 }
  let comments ← commentSizeBefore (← placeOf b.rbrace)
  let fits : Option Nat ← match header with
    | none => pure none
    | some h =>
      if !(← mayBeOneLine b) then pure none
      else if (← get).measuring then pure (some h)
      else do
        match ← stmtSizes? r true comments b.stmts with
        | none => pure none
        | some n => pure (if h + n ≤ maxFuncSize then some h else none)
  match fits with
  | some h => lineBody r h comments sep b
  | none =>
    if sep != .dropped then blank
    block stmts b
  modify fun p => { p with literals }

/-- The size of a header that starts at an output column, if it is on one line of the source. -/
def headerSize (start : Pos) (column : Nat) : Print (Option Nat) := do
  let p ← get
  let place ← placeOf start
  return if place.isValid && p.pos.isValid && place.line == p.pos.line then
      some (p.outColumn - column)
    else none

end RetryWeave.Layout
