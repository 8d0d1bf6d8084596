import RetryWeave.Text.Bytes
import RetryWeave.Unicode.Class

/-!
Byte strings as sequences of characters. A byte that belongs to no well formed UTF-8 sequence
stands for itself and reads as the replacement character.
-/

namespace RetryWeave

/-- One character of a byte string, with the bytes it was read from. -/
structure Rune where
  char : Char
  raw : Bytes
deriving DecidableEq, Repr

def replacementChar : Char := '\uFFFD'

namespace Rune

/-- A rune is valid if its bytes are the encoding of its character. -/
def isValid (r : Rune) : Bool := String.utf8EncodeChar r.char == r.raw

def isTail (b : UInt8) : Bool := 0x80 ≤ b && b ≤ 0xBF

/-- The second byte of a three byte sequence: neither an overlong form nor a surrogate. -/
def isSecondOfThree (a b : UInt8) : Bool :=
  if a == 0xE0 then 0xA0 ≤ b && b ≤ 0xBF
  else if a == 0xED then 0x80 ≤ b && b ≤ 0x9F
  else isTail b

/-- The second byte of a four byte sequence: neither an overlong form nor beyond the last plane. -/
def isSecondOfFour (a b : UInt8) : Bool :=
  if a == 0xF0 then 0x90 ≤ b && b ≤ 0xBF
  else if a == 0xF4 then 0x80 ≤ b && b ≤ 0x8F
  else isTail b

/-- The first rune of `a :: rest`. -/
def first (a : UInt8) (rest : Bytes) : Rune :=
  let low (b : UInt8) : Nat := b.toNat % 64
  if a < 0x80 then ⟨Char.ofNat a.toNat, [a]⟩
  else if 0xC2 ≤ a && a ≤ 0xDF then
    match rest with
    | b :: _ =>
      if isTail b then ⟨Char.ofNat (a.toNat % 32 * 64 + low b), [a, b]⟩
      else ⟨replacementChar, [a]⟩
    | _ => ⟨replacementChar, [a]⟩
  else if 0xE0 ≤ a && a ≤ 0xEF then
    match rest with
    | b :: c :: _ =>
      if isSecondOfThree a b && isTail c then
        ⟨Char.ofNat (a.toNat % 16 * 4096 + low b * 64 + low c), [a, b, c]⟩
      else ⟨replacementChar, [a]⟩
    | _ => ⟨replacementChar, [a]⟩
  else if 0xF0 ≤ a && a ≤ 0xF4 then
    match rest with
    | b :: c :: d :: _ =>
      if isSecondOfFour a b && isTail c && isTail d then
        ⟨Char.ofNat (a.toNat % 8 * 262144 + low b * 4096 + low c * 64 + low d), [a, b, c, d]⟩
      else ⟨replacementChar, [a]⟩
    | _ => ⟨replacementChar, [a]⟩
  else ⟨replacementChar, [a]⟩

end Rune

namespace Bytes

/-- The runes of a byte string after its first `skip` bytes. -/
def runesFrom : Nat → Bytes → List Rune
  | _, [] => []
  | skip + 1, _ :: rest => runesFrom skip rest
  | 0, a :: rest =>
    let r := Rune.first a rest
    r :: runesFrom (r.raw.length - 1) rest

def runes (b : Bytes) : List Rune := runesFrom 0 b

def firstRune? : Bytes → Option Rune
  | [] => none
  | a :: rest => some (Rune.first a rest)

def ofRunes (rs : List Rune) : Bytes := rs.flatMap (·.raw)

def ofChar (c : Char) : Bytes := String.utf8EncodeChar c

def ofChars (cs : List Char) : Bytes := cs.flatMap ofChar

def runeCount (b : Bytes) : Nat := b.runes.length

/-! ### White space -/

def isSpaceRune (r : Rune) : Bool := Unicode.isSpace r.char

def trimLeft (b : Bytes) : Bytes := ofRunes (b.runes.dropWhile isSpaceRune)

def trimRight (b : Bytes) : Bytes := ofRunes (b.runes.reverse.dropWhile isSpaceRune).reverse

def trimSpace (b : Bytes) : Bytes := trimRight (trimLeft b)

/-- The maximal runs of runes that are not white space. -/
def fieldsOf : List Rune → List Bytes
  | [] => []
  | r :: rest =>
    if isSpaceRune r then fieldsOf rest
    else
      match rest with
      | [] => [r.raw]
      | s :: _ =>
        if isSpaceRune s then r.raw :: fieldsOf rest
        else
          match fieldsOf rest with
          | [] => [r.raw]
          | word :: more => (r.raw ++ word) :: more

/-- The words of a text: its maximal runs without white space. -/
def fields (b : Bytes) : List Bytes := fieldsOf b.runes

end Bytes

end RetryWeave
