import RetryWeave.Yaml.Cursor

/-!
The scalars at a place in a YAML stream: plain, quoted, and blocks of lines.
-/

namespace RetryWeave.Yaml

open Scan

/-! ### White space inside scalars -/

/-- White space between words: blanks, or a first line break with further ones. -/
structure Gap where
  blanks : List Char
  first : Option (List Char)
  more : List Char

namespace Gap

def none : Gap := ⟨[], .none, []⟩

/-- What a gap reads as: blanks stay, a single line feed becomes a space, and of several the first
is dropped. -/
def folded (g : Gap) : List Char :=
  match g.first with
  | .none => g.blanks
  | some f =>
    if f.head? == some '\n' then if g.more.isEmpty then [' '] else g.more
    else f ++ g.more

end Gap

def gapFrom (margin : Nat) : Nat → Gap → Scan Gap
  | 0, g => return g
  | fuel + 1, g => do
    want 1
    match ← ask Cursor.head? with
    | .none => return g
    | some ch =>
      if isBlank ch then
        if g.first.isSome && ch == '\t' && (← ask Cursor.column) < margin then refuse
        else
          skip
          gapFrom margin fuel (if g.first.isSome then g else { g with blanks := g.blanks ++ [ch] })
      else if isBreak ch then
        let br ← lineBreak
        gapFrom margin fuel
          (if g.first.isSome then { g with more := g.more ++ br } else ⟨[], some br, []⟩)
      else return g

/-- Passes white space. A tab before column `margin` of a later line is refused. -/
def gap (margin : Nat) (g : Gap) : Scan Gap := do gapFrom margin (← bound) g

/-! ### Plain scalars -/

/-- Whether a word of a plain scalar ends here: at white space, at a colon that white space follows,
and in a flow collection at the marks of one. -/
def endsWord (flow : Bool) (c : Cursor) : Bool :=
  c.spaceAt 0 || (c.isAt ':' && c.spaceAt 1) ||
    (flow && c.testAt 0 fun ch =>
      ch == ',' || ch == '?' || ch == '[' || ch == ']' || ch == '\x7b' || ch == '\x7d')

def wordFrom (flow : Bool) : Nat → Scan (List Char)
  | 0 => return []
  | fuel + 1 => do
    match ← ask fun c => if endsWord flow c then .none else c.head? with
    | .none => return []
    | some ch =>
      skip
      want 2
      return ch :: (← wordFrom flow fuel)

/-- A word of a plain scalar. -/
def word (flow : Bool) : Scan (List Char) := do wordFrom flow (← bound)

def plainFrom (flow : Bool) (margin : Nat) : Nat → Gap → Scan (List Char × Bool)
  | 0, g => return ([], g.first.isSome)
  | fuel + 1, g => do
    want 4
    if ← ask fun c => c.isMarker || c.isAt '#' then return ([], g.first.isSome)
    else
      let w ← word flow
      let (lead, g') := if w.isEmpty then ([], g) else (g.folded ++ w, .none)
      if !(← ask fun c => c.testAt 0 isBlank || c.testAt 0 isBreak) then
        return (lead, g'.first.isSome)
      else
        let g'' ← gap margin .none
        if !flow && (← ask Cursor.column) < margin then return (lead, g''.first.isSome)
        else
          let (rest, broke) ← plainFrom flow margin fuel g''
          return (lead ++ rest, broke)

/-- A plain scalar, and whether a line break follows its last word. Outside flow collections it ends
with the indentation. -/
def plain (flow : Bool) (margin : Nat) : Scan (List Char × Bool) := do
  plainFrom flow margin (← bound) .none

/-! ### Quoted scalars -/

/-- The character of an escape of one letter. -/
def escapeChar? (ch : Char) : Option Char :=
  match ch with
  | '0' => some '\x00'
  | 'a' => some '\x07'
  | 'b' => some '\x08'
  | 't' => some '\t'
  | '\t' => some '\t'
  | 'n' => some '\n'
  | 'v' => some '\x0B'
  | 'f' => some '\x0C'
  | 'r' => some '\r'
  | 'e' => some '\x1B'
  | ' ' => some ' '
  | '"' => some '"'
  | '\'' => some '\''
  | '\\' => some '\\'
  | 'N' => some '\u0085'
  | '_' => some '\u00A0'
  | 'L' => some '\u2028'
  | 'P' => some '\u2029'
  | _ => .none

def hexValue? (digits : List Char) : Option Nat :=
  digits.foldl (fun n d => n.bind fun n =>
    let v := Ascii.digitValue d.toNat.toUInt8
    if d.toNat < 128 && v < 16 then some (n * 16 + v) else .none) (some 0)

/-- The number of digits after the letter of an escape. -/
def escapeWidth (ch : Char) : Nat :=
  if ch == 'x' then 2 else if ch == 'u' then 4 else if ch == 'U' then 8 else 0

/-- An escape with its backslash. -/
def escape : Scan Char := do
  match ← ask fun c => c.ahead[1]? with
  | .none => refuse
  | some ch =>
    let width := escapeWidth ch
    if width = 0 then
      match escapeChar? ch with
      | .none => refuse
      | some e =>
        skipMany 2
        return e
    else
      skipMany 2
      want width
      let digits ← ask fun c => c.ahead.take width
      match hexValue? digits with
      | .none => refuse
      | some n =>
        if digits.length < width || (0xD800 ≤ n && n ≤ 0xDFFF) || 0x10FFFF < n then refuse
        else
          skipMany width
          return Char.ofNat n

/-- Characters of a quoted scalar up to white space or the closing quote, and whether an escaped
line break ended them. -/
def quotedWord (single : Bool) : Nat → Scan (List Char × Bool)
  | 0 => return ([], false)
  | fuel + 1 => do
    let c ← get
    let more (ch : Char) : Scan (List Char × Bool) := do
      want 2
      let (rest, escaped) ← quotedWord single fuel
      return (ch :: rest, escaped)
    match c.head? with
    | .none => return ([], false)
    | some ch =>
      if isBlank ch || isBreak ch then return ([], false)
      else if single && ch == '\'' then
        if c.testAt 1 (· == '\'') then
          skipMany 2
          more '\''
        else return ([], false)
      else if !single && ch == '"' then return ([], false)
      else if !single && ch == '\\' then
        if c.testAt 1 isBreak then
          want 3
          skip
          let _ ← lineBreak
          return ([], true)
        else more (← escape)
      else
        skip
        more ch

def quotedFrom (single : Bool) : Nat → Scan (List Char)
  | 0 => refuse
  | fuel + 1 => do
    want 4
    if ← ask fun c => c.isMarker || c.ahead.isEmpty then refuse
    else
      let (text, escaped) ← quotedWord single (← bound)
      want 1
      if ← ask fun c => c.isAt (if single then '\'' else '"') then
        skip
        return text
      else
        let g ← gap 0 (if escaped then ⟨[], some [], []⟩ else .none)
        return text ++ g.folded ++ (← quotedFrom single fuel)

/-- A quoted scalar. -/
def quoted (single : Bool) : Scan (List Char) := do
  skip
  quotedFrom single (← bound)

/-! ### Block scalars -/

/-- What becomes of the line breaks at the end. -/
inductive Chomp where
  | strip
  | clip
  | keep
deriving DecidableEq

def indentationFrom (margin : Nat) : Nat → Scan Unit
  | 0 => return ()
  | fuel + 1 => do
    want 1
    if ← ask fun c => (margin = 0 || c.column < margin) && c.isAt ' ' then
      skip
      indentationFrom margin fuel

/-- Passes spaces before column `margin`, or all spaces if that is zero. -/
def indentation (margin : Nat) : Scan Unit := do indentationFrom margin (← bound)

def blockBreaksFrom (margin : Nat) : Nat → Nat → List Char → Scan (List Char × Nat)
  | 0, deepest, breaks => return (breaks, deepest)
  | fuel + 1, deepest, breaks => do
    indentation margin
    let c ← get
    let deepest' := max deepest c.column
    if (margin = 0 || c.column < margin) && c.isAt '\t' then refuse
    else if c.testAt 0 isBreak then
      let br ← lineBreak
      blockBreaksFrom margin fuel deepest' (breaks ++ br)
    else return (breaks, deepest')

/-- The lines above the text of a block scalar: their breaks, and the deepest column reached. With
margin zero any indentation is passed. -/
def blockBreaks (margin : Nat) : Scan (List Char × Nat) := do blockBreaksFrom margin (← bound) 0 []

/-- The lines of a block scalar, the break after the last one, and those of empty lines below it.
`last` is the break after the line before, `breaks` are those of empty lines, and `indented` says
that the line before started with a blank. -/
def blockLines (literal : Bool) (margin : Nat) : Nat → List Char → List Char → Bool →
    Scan (List Char × List Char × List Char)
  | 0, last, breaks, _ => return ([], last, breaks)
  | fuel + 1, last, breaks, indented => do
    let c ← get
    if c.column ≠ margin || c.ahead.isEmpty then return ([], last, breaks)
    else
      let blank := c.testAt 0 isBlank
      let joint :=
        if !literal && !indented && !blank && last.head? == some '\n' then
          if breaks.isEmpty then [' '] else []
        else last
      let line ← takeWhile (!isBreak ·)
      let br ← lineBreak
      let (below, _) ← blockBreaks margin
      let (rest, last', breaks') ← blockLines literal margin fuel br below blank
      return (joint ++ breaks ++ line ++ rest, last', breaks')

/-- The sign of what becomes of the line breaks at the end. -/
def chompSign : Scan (Option Chomp) := do
  want 1
  if ← ask (·.isAt '+') then
    skip
    return some .keep
  else if ← ask (·.isAt '-') then
    skip
    return some .strip
  else return none

/-- A digit that tells an indentation; zero if there is none. -/
def depthDigit : Scan Nat := do
  want 1
  match ← ask Cursor.head? with
  | some ch =>
    if ch == '0' then refuse
    else if ch.isDigit then
      skip
      return ch.toNat - 48
    else return 0
  | none => return 0

/-- The marks after the sign of a block scalar: what becomes of line breaks at the end, and how much
deeper than its parent it is indented, if that is given. -/
def blockHeader : Scan (Chomp × Nat) := do
  match ← chompSign with
  | some k => return (k, ← depthDigit)
  | none =>
    let n ← depthDigit
    if n = 0 then return (.clip, 0) else return ((← chompSign).getD .clip, n)

/-- Passes blanks and a comment up to the end of a line, and the end. -/
def endOfLine : Scan Unit := do
  blanks
  if ← ask (·.isAt '#') then restOfLine
  if ← ask (·.testAt 0 isBreak) then
    let _ ← lineBreak
  else if !(← ask Cursor.atLineEnd) then refuse

/-- A block scalar inside a collection indented by `indent`, below zero outside any. -/
def block (literal : Bool) (indent : Int) : Scan (List Char) := do
  skip
  let (chomp, depth) ← blockHeader
  endOfLine
  let given := if depth = 0 then 0 else (max indent 0).toNat + depth
  let (breaks, deepest) ← blockBreaks given
  let margin := if given = 0 then max deepest (max (indent + 1) 1).toNat else given
  let (text, last, breaks') ← blockLines literal margin (← bound) [] breaks false
  return text ++ (if chomp == .strip then [] else last) ++ (if chomp == .keep then breaks' else [])

end RetryWeave.Yaml
