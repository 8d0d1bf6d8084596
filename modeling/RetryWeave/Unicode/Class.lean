import RetryWeave.Unicode.Digit
import RetryWeave.Unicode.Letter
import RetryWeave.Unicode.Printable
import RetryWeave.Unicode.Punct
import RetryWeave.Unicode.Upper

/-!
Classes of characters. Below 128 each class is spelled out; above, it is a table of ranges.
-/

namespace RetryWeave.Unicode

def inRanges (ranges : List (Nat × Nat)) (n : Nat) : Bool :=
  ranges.any fun (lo, hi) => lo ≤ n && n ≤ hi

def isLetter (c : Char) : Bool :=
  if c.toNat < 128 then c.isAlpha else inRanges letterRanges c.toNat

def isDigit (c : Char) : Bool :=
  if c.toNat < 128 then c.isDigit else inRanges digitRanges c.toNat

def isUpper (c : Char) : Bool :=
  if c.toNat < 128 then c.isUpper else inRanges upperRanges c.toNat

/-- Punctuation; in ASCII all signs but the symbols. -/
def isPunct (c : Char) : Bool :=
  if c.toNat < 128 then "!\"#%&'()*,-./:;?@[\\]_\x7b\x7d".toList.contains c
  else inRanges punctRanges c.toNat

/-- Printable characters; of the spaces only the ASCII space is one. -/
def isPrintable (c : Char) : Bool :=
  if c.toNat < 128 then 32 ≤ c.toNat && c.toNat < 127 else inRanges printableRanges c.toNat

/-- White space: the ASCII blanks and line ends, next line, and the space separators. -/
def isSpace (c : Char) : Bool :=
  let n := c.toNat
  (9 ≤ n && n ≤ 13) || n == 32 || n == 0x85 || n == 0xA0 || n == 0x1680 ||
    (0x2000 ≤ n && n ≤ 0x200A) || n == 0x2028 || n == 0x2029 || n == 0x202F || n == 0x205F ||
    n == 0x3000

/-- The one-to-one map to upper case: a character without an upper case form is kept. -/
def toUpper (c : Char) : Char :=
  if c.toNat < 128 then c.toUpper
  else
    let n := c.toNat
    match upperRuns.find? fun (lo, hi, step, _) => lo ≤ n && n ≤ hi && (n - lo) % step == 0 with
    | some (lo, _, _, target) => Char.ofNat (target + (n - lo))
    | none => c

end RetryWeave.Unicode
