/-!
Byte strings. Source text, names, paths and messages are lists of bytes, so that offsets count
bytes and text that is not valid UTF-8 is kept as it is.
-/

namespace RetryWeave

abbrev Bytes := List UInt8

namespace Bytes

/-- The UTF-8 bytes of a string. -/
def ofString (s : String) : Bytes := s.toByteArray.data.toList

end Bytes

instance : Coe String Bytes := ⟨Bytes.ofString⟩

/-! ### Named bytes -/

namespace Ascii

@[match_pattern, reducible] def nul : UInt8 := 0
@[match_pattern, reducible] def tab : UInt8 := 9
@[match_pattern, reducible] def newline : UInt8 := 10
@[match_pattern, reducible] def cr : UInt8 := 13
@[match_pattern, reducible] def space : UInt8 := 32
@[match_pattern, reducible] def bang : UInt8 := 33
@[match_pattern, reducible] def quote : UInt8 := 34
@[match_pattern, reducible] def hash : UInt8 := 35
@[match_pattern, reducible] def dollar : UInt8 := 36
@[match_pattern, reducible] def percent : UInt8 := 37
@[match_pattern, reducible] def amp : UInt8 := 38
@[match_pattern, reducible] def apostrophe : UInt8 := 39
@[match_pattern, reducible] def lparen : UInt8 := 40
@[match_pattern, reducible] def rparen : UInt8 := 41
@[match_pattern, reducible] def star : UInt8 := 42
@[match_pattern, reducible] def plus : UInt8 := 43
@[match_pattern, reducible] def comma : UInt8 := 44
@[match_pattern, reducible] def minus : UInt8 := 45
@[match_pattern, reducible] def dot : UInt8 := 46
@[match_pattern, reducible] def slash : UInt8 := 47
@[match_pattern, reducible] def zero : UInt8 := 48
@[match_pattern, reducible] def colon : UInt8 := 58
@[match_pattern, reducible] def semicolon : UInt8 := 59
@[match_pattern, reducible] def less : UInt8 := 60
@[match_pattern, reducible] def equal : UInt8 := 61
@[match_pattern, reducible] def question : UInt8 := 63
@[match_pattern, reducible] def atSign : UInt8 := 64
@[match_pattern, reducible] def lbrack : UInt8 := 91
@[match_pattern, reducible] def backslash : UInt8 := 92
@[match_pattern, reducible] def rbrack : UInt8 := 93
@[match_pattern, reducible] def caret : UInt8 := 94
@[match_pattern, reducible] def underscore : UInt8 := 95
@[match_pattern, reducible] def backquote : UInt8 := 96
@[match_pattern, reducible] def lbrace : UInt8 := 123
@[match_pattern, reducible] def bar : UInt8 := 124
@[match_pattern, reducible] def rbrace : UInt8 := 125

def isDigit (b : UInt8) : Bool := 48 ≤ b && b ≤ 57

def isLower (b : UInt8) : Bool := 97 ≤ b && b ≤ 122

def isUpper (b : UInt8) : Bool := 65 ≤ b && b ≤ 90

def isHexDigit (b : UInt8) : Bool :=
  isDigit b || (97 ≤ b && b ≤ 102) || (65 ≤ b && b ≤ 70)

def isOctalDigit (b : UInt8) : Bool := 48 ≤ b && b ≤ 55

def isLetter (b : UInt8) : Bool := isLower b || isUpper b || b == underscore

/-- A blank is a space or a tab. -/
def isBlank (b : UInt8) : Bool := b == space || b == tab

def toLower (b : UInt8) : UInt8 := if isUpper b then b + 32 else b

/-- The value of a digit in any base up to sixteen; sixteen for a byte that is no digit. -/
def digitValue (b : UInt8) : Nat :=
  if isDigit b then b.toNat - 48
  else if 97 ≤ b && b ≤ 102 then b.toNat - 87
  else if 65 ≤ b && b ≤ 70 then b.toNat - 55
  else 16

end Ascii

namespace Bytes

/-! ### Cutting -/

/-- The rest of `b` after the leading `p`, if `b` starts with `p`. -/
def stripStart? : Bytes → Bytes → Option Bytes
  | [], b => some b
  | _ :: _, [] => none
  | x :: p, y :: b => if x = y then stripStart? p b else none

def startsWith (p b : Bytes) : Bool := (stripStart? p b).isSome

/-- The part of `b` before the trailing `p`, if `b` ends with `p`. -/
def stripEnd? (p b : Bytes) : Option Bytes :=
  (stripStart? p.reverse b.reverse).map List.reverse

def endsWith (p b : Bytes) : Bool := (stripEnd? p b).isSome

/-- What stands before and after the first occurrence of `sep`. -/
def cut? (sep : Bytes) : Bytes → Option (Bytes × Bytes)
  | [] => if sep.isEmpty then some ([], []) else none
  | b :: rest =>
    match stripStart? sep (b :: rest) with
    | some after => some ([], after)
    | none => (cut? sep rest).map fun (before, after) => (b :: before, after)

/-- What stands before and after the last occurrence of the byte `sep`. -/
def cutLast? (sep : UInt8) (b : Bytes) : Option (Bytes × Bytes) :=
  let r := b.reverse
  let after := r.takeWhile (· ≠ sep)
  match r.dropWhile (· ≠ sep) with
  | [] => none
  | _ :: before => some (before.reverse, after.reverse)

/-- The pieces of `b` between occurrences of the byte `sep`; always at least one. -/
def split (sep : UInt8) : Bytes → List Bytes
  | [] => [[]]
  | b :: rest =>
    if b = sep then [] :: split sep rest
    else
      match split sep rest with
      | [] => [[b]]
      | piece :: more => (b :: piece) :: more

def lines (b : Bytes) : List Bytes := split Ascii.newline b

def join (sep : Bytes) : List Bytes → Bytes
  | [] => []
  | [piece] => piece
  | piece :: more => piece ++ sep ++ join sep more

/-- The part of `b` from offset `start` to offset `stop`. -/
def slice (b : Bytes) (start stop : Nat) : Bytes := (b.drop start).take (stop - start)

def trimEndWhile (p : UInt8 → Bool) (b : Bytes) : Bytes := (b.reverse.dropWhile p).reverse

/-- The longest common start of two byte strings. -/
def commonStart : Bytes → Bytes → Bytes
  | x :: a, y :: b => if x = y then x :: commonStart a b else []
  | _, _ => []

def toLower (b : Bytes) : Bytes := b.map Ascii.toLower

/-! ### Order -/

/-- The byte order, by which names and paths are sorted. -/
def compare : Bytes → Bytes → Ordering
  | [], [] => .eq
  | [], _ :: _ => .lt
  | _ :: _, [] => .gt
  | x :: a, y :: b => if x < y then .lt else if y < x then .gt else compare a b

def le (a b : Bytes) : Bool := compare a b != .gt

/-- The different members of a list, in order. -/
def distinct (names : List Bytes) : List Bytes := (names.mergeSort le).eraseReps

/-! ### Decimal numerals -/

def ofNat (n : Nat) : Bytes := (Nat.toDigits 10 n).map fun c => c.toNat.toUInt8

def ofInt (i : Int) : Bytes :=
  if i < 0 then Ascii.minus :: ofNat i.natAbs else ofNat i.natAbs

/-- The value of a string of decimal digits, none of which may be missing. -/
def decimal? (b : Bytes) : Option Nat :=
  if b.isEmpty || !b.all Ascii.isDigit then none
  else some (b.foldl (fun n d => n * 10 + Ascii.digitValue d) 0)

end Bytes

end RetryWeave
