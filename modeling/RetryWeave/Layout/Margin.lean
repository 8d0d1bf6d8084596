import RetryWeave.Text.Rune

/-!
The left margin of general comments that span several lines. The margin that the inner lines share
is removed, so that a comment keeps its shape at any indentation.
-/

namespace RetryWeave.Layout.Margin

def isWhite (b : UInt8) : Bool := b ≤ Ascii.space

def isBlank (line : Bytes) : Bool := line.all isWhite

/-- The white space and stars with which two lines start alike. -/
def shared : Bytes → Bytes → Bytes
  | x :: a, y :: b => if x = y && (isWhite x || x = Ascii.star) then x :: shared a b else []
  | _, _ => []

/-- The start that all lines share. -/
def sharedAll : List Bytes → Bytes
  | [] => []
  | line :: rest => rest.foldl shared (shared line line)

/-- The margin without up to three spaces, or else a tab, at its end: inner text stays indented
below an opening that stands alone. -/
def looseEnd (margin : Bytes) : Bytes :=
  match margin.reverse with
  | Ascii.space :: Ascii.space :: Ascii.space :: rest => rest.reverse
  | Ascii.space :: Ascii.space :: rest => rest.reverse
  | Ascii.space :: rest => rest.reverse
  | Ascii.tab :: rest => rest.reverse
  | _ => margin

/-- The margin without the white space that follows the opening, if it ends with that. The opening
counts as two spaces, or as nothing before a tab. -/
def belowText (first margin : Bytes) : Bytes :=
  let white := (first.drop 2).takeWhile isWhite
  let gap := if white.head? == some Ascii.tab then white else "  " ++ white
  (Bytes.stripEnd? gap margin).getD margin

/-- Removes the shared margin from all lines but the first. Inner lines that are blank become empty;
a closing that stands alone is aligned with the opening, or with a line of stars. -/
def remove (lines : List Bytes) : List Bytes :=
  match lines with
  | first :: second :: more =>
    let rest := second :: more
    let last := rest.getLastD []
    let inner := rest.dropLast.map fun line => if isBlank line then [] else line
    let filled := inner.filter (!·.isEmpty)
    let margin := sharedAll (if filled.isEmpty then [last] else filled)
    let (margin, stars) : Bytes × Bool :=
      match Bytes.cut? "*" margin with
      | some (before, _) => ((Bytes.stripEnd? " " before).getD before, true)
      | none =>
        if isBlank (first.drop 2) then (looseEnd margin, false)
        else (belowText first margin, false)
    let before := (Bytes.cut? "*/" last).elim last (·.1)
    let (margin, last) : Bytes × Bytes :=
      if isBlank before then (margin, margin ++ (if stars then " */" else "*/"))
      else (shared margin last, last)
    first :: (inner ++ [last]).map (·.drop margin.length)
  | _ => lines

end RetryWeave.Layout.Margin
