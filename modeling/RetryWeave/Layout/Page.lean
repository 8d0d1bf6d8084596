import RetryWeave.DocComment.Reformat
import RetryWeave.Layout.Margin
import RetryWeave.Source.Position
import RetryWeave.Syntax.Extent

/-!
A page on which a syntax tree is laid out: the text so far, the white space that is still pending,
and the comments that are still to be placed. Text between two marks is kept as it is; elsewhere
tabs, vertical tabs and form feeds stand for columns, see `RetryWeave.Layout.Columns`.
-/

namespace RetryWeave.Layout

open Syntax

/-- A place in the source; line zero is no place. -/
structure Place where
  line : Nat
  column : Nat
  offset : Nat
deriving DecidableEq, Repr, Inhabited

namespace Place

def isValid (p : Place) : Bool := 0 < p.line

/-- No place. -/
def none : Place := ⟨0, 0, 0⟩

/-- Beyond all places of a source. -/
def beyond : Place := ⟨0x40000000, 0, 0x40000000⟩

end Place

/-- White space that waits for the next word. -/
inductive Space where
  /-- Taken back. -/
  | dropped
  | blank
  /-- The end of a cell. -/
  | cell
  | newline
  /-- A line break that ends the alignment of columns. -/
  | section
  | indent
  | unindent
deriving DecidableEq, Repr

namespace Space

def isBreak (s : Space) : Bool := s == .newline || s == .section

end Space

/-- The mark around text that is kept as it is. It occurs in no UTF-8 text. -/
def mark : UInt8 := 0xFF

def cellByte : UInt8 := 11

def sectionByte : UInt8 := 12

def isBreakByte (b : UInt8) : Bool := b == Ascii.newline || b == sectionByte

structure Page where
  /-- The text so far, last byte first. -/
  output : List UInt8
  size : Nat
  outLine : Nat
  outColumn : Nat
  indent : Nat
  /-- The number of composite literals around the current place. -/
  literals : Nat
  /-- No blank is added after a general comment. -/
  tightBlank : Bool
  /-- No line break is added after a general comment. -/
  tightBreak : Bool
  /-- Columns end with the current line. -/
  endAlignment : Bool
  /-- A line break here would end a statement. -/
  impliedSemi : Bool
  /-- The last word, unless white space follows it. -/
  lastTok : Option Tok
  /-- The opening bracket or parenthesis right before the current word. -/
  lastOpen : Option Tok
  spaces : List Space
  /-- Where build constraints start in the text, in either of their two forms. -/
  buildLines : List Nat
  plusLines : List Nat
  /-- The place in the source. -/
  pos : Place
  /-- The place in the source right after the last word. -/
  last : Place
  /-- The output lines of constructs that are being laid out, innermost first; nothing until their
  first word. -/
  starts : List (Option Nat)
  comments : List CommentGroup
  /-- Comments are those attached to nodes, instead of those of the file. -/
  nodeComments : Bool
  /-- Only the size of a construct on one line is wanted. -/
  measuring : Bool
  table : LineTable

namespace Page

def start (table : LineTable) (comments : List CommentGroup) (nodeComments measuring : Bool) :
    Page where
  output := []
  size := 0
  outLine := 1
  outColumn := 1
  indent := 0
  literals := 0
  tightBlank := false
  tightBreak := false
  endAlignment := false
  impliedSemi := false
  lastTok := none
  lastOpen := none
  spaces := []
  buildLines := []
  plusLines := []
  pos := ⟨1, 1, 0⟩
  last := .none
  starts := []
  comments := comments
  nodeComments := nodeComments
  measuring := measuring
  table := table

/-- The length of the text without marks and without blanks at its end. -/
def trimmedSize (p : Page) : Nat :=
  ((p.output.dropWhile fun b => Ascii.isBlank b || b == cellByte).filter (· ≠ mark)).length

end Page

/-- Laying out fails only where a line break comes while measuring. -/
abbrev Print := StateT Page Option

namespace Print

def refuse {α : Type} : Print α := fun _ => none

def placeOf (pos : Pos) : Print Place := do
  match pos with
  | none => return .none
  | some offset =>
    let p := (← get).table.physical offset
    return ⟨p.line.toNat, p.column.toNat, p.offset.toNat⟩

/-- The line of a place; zero for none. -/
def lineOf (pos : Pos) : Print Nat := do
  match pos with
  | none => return 0
  | some offset =>
    let t := (← get).table
    return t.lineOf (min offset t.size)

/-- The place of the next word, if it has one. -/
def setPos (pos : Pos) : Print Unit := do
  if pos.isSome then
    let place ← placeOf pos
    modify fun p => { p with pos := place }

/-! ### Writing -/

/-- Writes white space. -/
def writeByte (b : UInt8) (n : Nat) : Print Unit := do
  let p ← get
  let ends := p.endAlignment && isBreakByte b
  let b := if !p.endAlignment then b
    else if b == Ascii.tab || b == cellByte then Ascii.space
    else if isBreakByte b then sectionByte
    else b
  if isBreakByte b then
    if p.measuring then refuse
    else
      set { p with
        output := List.replicate n b ++ p.output, size := p.size + n
        endAlignment := p.endAlignment && !ends
        pos := ⟨p.pos.line + n, 1, p.pos.offset + n⟩
        outLine := p.outLine + n, outColumn := 1 }
  else
    set { p with
      output := List.replicate n b ++ p.output, size := p.size + n
      pos := ⟨p.pos.line, p.pos.column + n, p.pos.offset + n⟩
      outColumn := p.outColumn + n }

/-- Writes a word, after the indentation if it is the first of its line. -/
def writeText (place : Place) (text : Bytes) (kept : Bool) : Print Unit := do
  let p ← get
  let tabs := if p.outColumn == 1 then p.indent else 0
  let pos := if place.isValid then place
    else ⟨p.pos.line, p.pos.column + tabs, p.pos.offset + tabs⟩
  let breaks := (text.filter isBreakByte).length
  if 0 < breaks && p.measuring then refuse
  else
    let around : List UInt8 := if kept then [mark] else []
    let output := around ++ text.reverse ++ around ++ List.replicate tabs Ascii.tab ++ p.output
    let size := p.size + tabs + text.length + 2 * around.length
    let tail := (text.reverse.takeWhile (!isBreakByte ·)).length + 1
    let pos : Place := ⟨pos.line + breaks,
      if 0 < breaks then tail else pos.column + text.length, pos.offset + text.length⟩
    set { p with
      output, size, pos, last := pos
      endAlignment := p.endAlignment || 0 < breaks
      outLine := p.outLine + breaks
      outColumn := if 0 < breaks then tail else p.outColumn + tabs + text.length }

/-! ### Pending white space -/

/-- Writes white space. A line break right before the end of an indentation comes after it. -/
def writeSpaces : List Space → Print Unit
  | [] => pure ()
  | .dropped :: rest => writeSpaces rest
  | .indent :: rest => do
    modify fun p => { p with indent := p.indent + 1 }
    writeSpaces rest
  | .unindent :: rest => do
    modify fun p => { p with indent := p.indent - 1 }
    writeSpaces rest
  | .blank :: rest => do
    writeByte Ascii.space 1
    writeSpaces rest
  | .cell :: rest => do
    writeByte cellByte 1
    writeSpaces rest
  | .newline :: .unindent :: rest => do
    modify fun p => { p with indent := p.indent - 1 }
    writeSpaces (.section :: rest)
  | .newline :: rest => do
    writeByte Ascii.newline 1
    writeSpaces rest
  | .section :: .unindent :: rest => do
    modify fun p => { p with indent := p.indent - 1 }
    writeSpaces (.section :: rest)
  | .section :: rest => do
    writeByte sectionByte 1
    writeSpaces rest
termination_by spaces => spaces.length

/-- Writes the first `n` pending spaces. -/
def flushSpaces (n : Nat) : Print Unit := do
  let spaces := (← get).spaces
  modify fun p => { p with spaces := spaces.drop n }
  writeSpaces (spaces.take n)

def flushAllSpaces : Print Unit := do flushSpaces (← get).spaces.length

/-! ### Comments before a word -/

/-- No more than one blank line is kept. -/
def limitBreaks (n : Nat) : Nat := min n 2

/-- Whether a group of comments ends a line: it has a line comment, or spans several lines. -/
def endsLine (group : CommentGroup) : Print Bool := do
  let first ← lineOf (some group.start)
  let lines ← group.list.mapM fun c => lineOf (some c.start)
  return lines.any (· ≠ first) ||
    group.list.any fun c => c.isLine || c.text.contains Ascii.newline

/-- Whether the next comment group comes before a place, and may be written here. -/
def commentBefore (next : Place) : Print Bool := do
  let p ← get
  match p.comments with
  | [] => return false
  | group :: _ =>
    if min group.start p.table.size < next.offset then
      if p.impliedSemi then return !(← endsLine group) else return true
    else return false

/-- White space before a comment on the line of the last word: blanks are dropped, and cells and
indentations are written. Returns the white space, how much of it to write, and whether it has a
cell. -/
def spacesBesideComment (spaces : List Space) : List Space × Nat × Bool :=
  let head := spaces.takeWhile fun s => s == .blank || s == .cell || s == .indent
  let count := if head.length < spaces.length then head.length else 0
  (head.map (fun s => if s == .blank then .dropped else s) ++ spaces.drop head.length, count,
    head.contains .cell)

/-- White space before a comment on a line of its own: blanks and cells are dropped, and so is the
first line break. An end of indentation is written if another follows, or if `aligned` says that
the comment belongs to what comes after it. Returns the white space, how much of it to write, and
whether a line break was dropped. -/
def spacesAboveComment (aligned : Bool) : List Space → List Space × Option Nat × Bool
  | [] => ([], none, false)
  | s :: rest =>
    let more (s : Space) : List Space × Option Nat × Bool :=
      let (rest', count, broken) := spacesAboveComment aligned rest
      (s :: rest', count.map (· + 1), broken)
    match s with
    | .blank | .cell => more .dropped
    | .indent => more s
    | .unindent =>
      if rest.head? == some .unindent || aligned then more s else (s :: rest, some 0, false)
    | .newline | .section => (.dropped :: rest, some 0, true)
    | .dropped => (s :: rest, some 0, false)

/-- Writes the white space before a comment. `before` is the comment written right before it, and
`next` the place of the word `tok` after all comments. -/
def writeCommentLead (place next : Place) (before : Option Comment) (tok : Option Tok) :
    Print Unit := do
  let p ← get
  if p.size = 0 then return
  let afterLine := (before.map (·.isLine)).getD false
  if place.line == p.last.line && !afterLine then
    let separated ← if before.isNone then do
        let (spaces, count, cell) := spacesBesideComment p.spaces
        modify fun p => { p with spaces }
        flushSpaces count
        pure cell
      else pure false
    if !separated then
      writeByte (if place.line == next.line then Ascii.space else Ascii.tab) 1
  else
    let aligned := tok != some .rbrace && place.column == next.column
    let (spaces, count, broken) := spacesAboveComment aligned p.spaces
    modify fun p => { p with spaces }
    flushSpaces (count.getD 0)
    let p ← get
    let distance := if place.isValid && p.last.isValid then place.line - p.last.line else 0
    let distance := if p.indent = 0 && broken && before.isNone then distance + 1 else distance
    let distance := if distance = 0 && afterLine then 1 else distance
    if 0 < distance then writeByte sectionByte (limitBreaks distance)

/-- Whether a comment is a build constraint that starts with `//go:build`. -/
def isBuildLine (text : Bytes) : Bool :=
  match Bytes.stripStart? "//go:build" (Bytes.trimRight text) with
  | none => false
  | some [] => true
  | some rest => (Bytes.trimSpace rest).length < rest.length

/-- Whether a comment is a build constraint that starts with `// +build`. -/
def isPlusLine (text : Bytes) : Bool :=
  match Bytes.stripStart? "//" (Bytes.trimRight text) with
  | none => false
  | some rest =>
    match Bytes.stripStart? "+build" (Bytes.trimSpace rest) with
    | none => false
    | some [] => true
    | some rest => (Bytes.trimSpace rest).length < rest.length

/-- Writes the lines of a comment. -/
def writeLines : Place → List Bytes → Print Unit
  | _, [] => pure ()
  | place, line :: rest => do
    if !line.isEmpty then writeText place (Bytes.trimRight line) true
    if !rest.isEmpty then writeByte sectionByte 1
    writeLines (← get).pos rest

def writeComment (c : Comment) : Print Unit := do
  let place ← placeOf (some c.start)
  let indent := (← get).indent
  if Bytes.startsWith "//line " c.text && place.column == 1 then
    modify fun p => { p with indent := 0 }
  if c.isLine then
    if isBuildLine c.text then
      modify fun p => { p with buildLines := p.buildLines ++ [p.size] }
    else if isPlusLine c.text then
      modify fun p => { p with plusLines := p.plusLines ++ [p.size] }
    writeText place (Bytes.trimRight c.text) true
  else
    let lines := Bytes.lines c.text
    let lines := if place.column == 1 && 0 < indent then
        lines.take 1 ++ (lines.drop 1).map (List.replicate 3 Ascii.space ++ ·)
      else lines
    writeLines place (Margin.remove lines)
  modify fun p => { p with indent := indent }

/-- Writes what is pending after a comment; if a line break is needed, exactly one is kept. Returns
whether one was written, and whether one that ends columns was dropped. -/
def writeCommentTail (needsBreak : Bool) : Print (Bool × Bool) := do
  let step : (List Space × Bool × Bool × Bool) → Space → (List Space × Bool × Bool × Bool) :=
    fun (seen, needs, wrote, lost) s =>
      match s with
      | .blank | .cell => (seen ++ [.dropped], needs, wrote, lost)
      | .newline | .section =>
        if needs then (seen ++ [s], false, true, lost)
        else (seen ++ [.dropped], needs, wrote, lost || s == .section)
      | _ => (seen ++ [s], needs, wrote, lost)
  let (spaces, needs, wrote, lost) := (← get).spaces.foldl step ([], needsBreak, false, false)
  modify fun p => { p with spaces }
  flushAllSpaces
  if needs then
    writeByte Ascii.newline 1
    return (true, lost)
  else return (wrote, lost)

/-- Writes the comments of a group. -/
def writeGroup (next : Place) (tok : Option Tok) : Option Comment → List Comment →
    Print (Option Comment)
  | before, [] => return before
  | before, c :: rest => do
    writeCommentLead (← placeOf (some c.start)) next before tok
    writeComment c
    writeGroup next tok (some c) rest

/-- Writes at most `fuel` of the comment groups before the word `tok` at `next`. A group that starts
a line and stands right above the word is reformatted, unless the word is an import or a name.
Returns the last comment written, or nothing if all comments of a group disappeared. -/
def writeGroups (next : Place) (tok : Option Tok) :
    Nat → Option Comment → Print (Option (Option Comment))
  | 0, before => return some before
  | fuel + 1, before => do
    let p ← get
    match p.comments with
    | [] => return some before
    | group :: rest =>
      if !(← commentBefore next) then return some before
      else
        let place ← placeOf (some group.start)
        let after ← if group.stop < p.table.size then placeOf (some (group.stop + 1))
          else pure .none
        if tok != some .kwImport && tok != some .ident && place.column == 1 && after == next then
          let list := DocComment.reformat group.list
          if list.isEmpty then
            writeCommentLead place next before tok
            modify fun p => { p with pos := next, last := next, comments := rest }
            return none
          else
            let _ ← writeGroup next tok before list
            let stop ← placeOf (some group.stop)
            modify fun p => { p with pos := stop, last := stop, comments := rest }
            writeGroups next tok fuel group.list.getLast?
        else
          let last ← writeGroup next tok before group.list
          modify fun p => { p with comments := rest }
          writeGroups next tok fuel last

/-- Writes the comments before the word `tok` at `next`, and the pending white space. -/
def writeComments (next : Place) (tok : Option Tok) : Print (Bool × Bool) := do
  match ← writeGroups next tok (← get).comments.length none with
  | none => writeCommentTail false
  | some none => writeCommentTail false
  | some (some c) =>
    let p ← get
    let line ← lineOf (some c.start)
    let besideWord := !p.tightBlank && !c.isLine && line == next.line && tok != some .comma &&
      (tok != some .rparen || p.lastOpen == some .lparen) &&
      (tok != some .rbrack || p.lastOpen == some .lbrack)
    let breaks := p.spaces.any (·.isBreak) && !p.tightBreak && p.literals == 0
    if besideWord && !breaks then writeByte Ascii.space 1
    let needsBreak := (besideWord && breaks) || c.isLine || tok == some .eof ||
      (tok == some .rbrace && !p.tightBreak)
    writeCommentTail needsBreak

/-- Writes the comments and white space before a word. -/
def flush (next : Place) (tok : Option Tok) : Print (Bool × Bool) := do
  if ← commentBefore next then writeComments next tok
  else
    flushAllSpaces
    return (false, false)

end Print

end RetryWeave.Layout
