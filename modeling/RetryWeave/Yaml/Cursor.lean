import RetryWeave.Yaml.Stream

/-!
A place in a YAML stream, and scans that move it. A scan states how many characters it is about to
look at, since blocks are read only on demand.
-/

namespace RetryWeave.Yaml

/-! ### Characters -/

def isBlank (c : Char) : Bool := c == ' ' || c == '\t'

/-- Line breaks: carriage return, line feed, next line, line and paragraph separator. -/
def isBreak (c : Char) : Bool :=
  c == '\r' || c == '\n' || c == '\u0085' || c == '\u2028' || c == '\u2029'

def isWordChar (c : Char) : Bool := c.isAlphanum || c == '_' || c == '-'

/-! ### Places -/

structure Cursor where
  /-- The characters that have been read and not been passed. -/
  ahead : List Char
  supply : Supply
  /-- How often the end of the stream has been met; it can be looked at like a character. -/
  ends : Nat
  /-- The characters in memory start with a mark of byte order. -/
  marked : Bool
  line : Nat
  column : Nat
  index : Nat
  /-- Nothing but blanks stands between the last line break and here. -/
  fresh : Bool
  /-- The number of characters in the stream. -/
  size : Nat
deriving Repr

namespace Cursor

def start (s : Supply) : Cursor := ⟨[], s, 0, false, 0, 0, 0, false, s.size⟩

def head? (c : Cursor) : Option Char := c.ahead.head?

/-- Whether a test holds of the character `n` places ahead. -/
def testAt (c : Cursor) (n : Nat) (test : Char → Bool) : Bool := (c.ahead[n]?).any test

def isAt (c : Cursor) (ch : Char) : Bool := c.head? == some ch

/-- White space or the end of the stream `n` places ahead. -/
def spaceAt (c : Cursor) (n : Nat) : Bool := (c.ahead[n]?).all fun ch => isBlank ch || isBreak ch

/-- The end of a line or of the stream. -/
def atLineEnd (c : Cursor) : Bool := (c.head?).all isBreak

/-- A document marker: three dashes or points at the start of a line. -/
def isMarker (c : Cursor) : Bool :=
  c.column = 0 && c.spaceAt 3 &&
    (c.ahead.take 3 == ['-', '-', '-'] || c.ahead.take 3 == ['.', '.', '.'])

/-- Reads blocks until `n` characters are ahead or the stream has ended, and tells which. -/
def fill (n : Nat) : List Char → Supply → Option (List Char × Supply × Bool)
  | ahead, .ended => some (ahead, .ended, true)
  | _, .malformed => none
  | ahead, .block cs more =>
    let ahead' := ahead ++ cs
    if n ≤ ahead'.length then some (ahead', more, false) else fill n ahead' more

/-- Makes sure that `n` characters can be looked at. Before more of them are read, those that have
been passed are forgotten. -/
def want? (n : Nat) (c : Cursor) : Option Cursor :=
  if n ≤ (c.ahead.take n).length + c.ends then some c
  else
    (fill n c.ahead c.supply).map fun (ahead, supply, ended) => { c with
      ahead, supply, ends := c.ends + (if ended then 1 else 0)
      marked := ahead.head? == some orderMark }

/-- Passes a character. -/
def skip (c : Cursor) : Cursor :=
  { c with
    ahead := c.ahead.tail, ends := if c.ahead.isEmpty then c.ends - 1 else c.ends
    column := c.column + 1, index := c.index + 1, fresh := c.fresh && c.testAt 0 isBlank }

/-- Passes a line break. It reads as a line feed, unless it is a line or paragraph separator. -/
def readBreak (c : Cursor) : List Char × Cursor :=
  let next (n : Nat) : Cursor := { c with
    ahead := c.ahead.drop n, line := c.line + 1, column := 0, index := c.index + n, fresh := true }
  match c.ahead with
  | '\r' :: '\n' :: _ => (['\n'], next 2)
  | ch :: _ =>
    if isBreak ch then (if ch == '\u2028' || ch == '\u2029' then [ch] else ['\n'], next 1)
    else ([], c)
  | [] => ([], c)

end Cursor

/-! ### Scans -/

/-- A scan moves a place in a stream, or finds that it is malformed. -/
abbrev Scan := StateT Cursor Option

namespace Scan

def refuse {α : Type} : Scan α := fun _ => none

/-- Something about the place. -/
def ask {α : Type} (f : Cursor → α) : Scan α := fun c => some (f c, c)

def want (n : Nat) : Scan Unit := fun c => (c.want? n).map ((), ·)

def skip : Scan Unit := modify Cursor.skip

def skipMany : Nat → Scan Unit
  | 0 => pure ()
  | n + 1 => do
    skip
    skipMany n

/-- A bound on the steps of a scan: each but the last passes a character or meets the end. -/
def bound : Scan Nat := ask fun c => c.size + 2

/-- Passes a line break. -/
def lineBreak : Scan (List Char) := do
  want 2
  let (br, c) ← ask Cursor.readBreak
  set c
  return br

def takeWhileFrom (test : Char → Bool) : Nat → Scan (List Char)
  | 0 => return []
  | fuel + 1 => do
    want 1
    match ← ask Cursor.head? with
    | none => return []
    | some ch =>
      if test ch then
        skip
        return ch :: (← takeWhileFrom test fuel)
      else return []

/-- Passes characters as long as a test holds. -/
def takeWhile (test : Char → Bool) : Scan (List Char) := do takeWhileFrom test (← bound)

/-- Passes the rest of a line, up to its break. -/
def restOfLine : Scan Unit := do
  let _ ← takeWhile (!isBreak ·)

/-- Passes blanks. -/
def blanks : Scan Unit := do
  let _ ← takeWhile isBlank

end Scan

end RetryWeave.Yaml
