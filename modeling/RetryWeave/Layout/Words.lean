import RetryWeave.Layout.Page

/-!
Putting words and white space on a page.
-/

namespace RetryWeave.Layout.Print

open Syntax

/-- Remembers an opening bracket or parenthesis as long as no other word follows. -/
def noteOpen : Print Unit := modify fun p =>
  match p.lastTok with
  | none => p
  | some t =>
    { p with lastOpen := if t == .lparen || t == .lbrack then some t else none }

/-- The most spaces that are pending at a time. -/
def maxSpaces : Nat := 16

/-- Adds white space before the next word. -/
def space (s : Space) : Print Unit := do
  noteOpen
  if s == .dropped then return
  if (← get).spaces.length = maxSpaces then flushAllSpaces
  modify fun p => { p with
    spaces := p.spaces ++ [s]
    impliedSemi := p.impliedSemi && !s.isBreak
    lastTok := none }

def blank : Print Unit := space .blank

def indent : Print Unit := space .indent

def unindent : Print Unit := space .unindent

/-- Puts down a word, after comments and white space, and after the line breaks that the source has
before it. `implied` says that a line break after it would end a statement. -/
def word (text : Bytes) (tok : Tok) (kept implied : Bool) : Print Unit := do
  modify fun p => { p with lastTok := some tok }
  let next := (← get).pos
  let (wrote, lost) ← flush next (some tok)
  let p ← get
  let wanted := if p.impliedSemi then 0 else limitBreaks (next.line - p.pos.line)
  let breaks := if wrote && wanted = 2 then 1 else wanted
  if 0 < breaks then writeByte (if lost then sectionByte else Ascii.newline) breaks
  modify fun p => { p with starts := p.starts.map fun s => some (s.getD p.outLine) }
  writeText next text kept
  modify fun p => { p with impliedSemi := implied && breaks = 0 }

/-- Whether two tokens without white space between them would read as another token. -/
def mayCombine (before : Option Tok) (next : UInt8) : Bool :=
  match before with
  | some .int => next == Ascii.dot
  | some .add => next == Ascii.plus
  | some .sub => next == Ascii.minus
  | some .quo => next == Ascii.star
  | some .lss => next == Ascii.minus || next == Ascii.less
  | some .and => next == Ascii.amp || next == Ascii.caret
  | _ => false

def token (t : Tok) : Print Unit := do
  noteOpen
  if mayCombine (← get).lastTok (t.spelling.headD 0) then
    modify fun p => { p with spaces := [.blank] }
  word t.spelling t false
    (t == .kwBreak || t == .kwContinue || t == .kwFallthrough || t == .kwReturn || t == .inc ||
      t == .dec || t == .rparen || t == .rbrack || t == .rbrace)

/-- A token at its place. -/
def tokenAt (pos : Pos) (t : Tok) : Print Unit := do
  setPos pos
  token t

def name (id : Ident) : Print Unit := do
  noteOpen
  word id.name .ident false true

def literal (kind : Tok) (text : Bytes) : Print Unit := do
  noteOpen
  word text kind true true

/-! ### Line breaks -/

/-- As many line breaks as there are up to a line of the source, at least `least` and at most two,
with `first` before them. In a new section the first ends the alignment of columns. Returns how many
breaks there are, counting that one twice. -/
def linebreak (line least : Nat) (first : Space) (newSection : Bool) : Print Nat := do
  let n := max (limitBreaks (line - (← get).pos.line)) least
  if n = 0 then return 0
  space first
  if newSection then space .section
  for _ in List.range (if newSection then n - 1 else n) do space .newline
  return if newSection then n + 1 else n

/-- Lays out a construct and tells over how many line breaks it goes on the page. -/
def spanning (construct : Print Unit) : Print Nat := do
  modify fun p => { p with starts := none :: p.starts }
  construct
  let p ← get
  set { p with starts := p.starts.tail }
  return p.outLine - ((p.starts.headD none).getD p.outLine)

/-! ### Comments of nodes -/

/-- Makes a comment of a node pending, if nodes bring their own comments. -/
def setComment (group : Option CommentGroup) : Print Unit := do
  match group with
  | none => return
  | some g =>
    let p ← get
    if !p.nodeComments then return
    if 2 ≤ p.comments.length then
      let place ← placeOf (some g.start)
      let _ ← flush place none
    modify fun p => { p with comments := p.comments.take 1 ++ [g] }

/-! ### Sizes -/

/-- Writes the comments that are left. -/
def finish : Print Unit := do
  modify fun p => { p with impliedSemi := false }
  let _ ← flush .beyond (some .eof)

/-- The size of a construct laid out on its own, if that takes a single line. -/
def sizeOf? (construct : Print Unit) : Print (Option Nat) := do
  let p ← get
  let alone : Print Unit := do
    construct
    finish
  return (alone (.start p.table [] true true)).map fun (_, q) => q.trimmedSize

end RetryWeave.Layout.Print
