import RetryWeave.Text.Rune

/-!
Quoted text: the double quoted form in which every message fits on one line, and the reading of
double quoted and raw string literals.
-/

namespace RetryWeave.Quoted

def hexDigit (n : Nat) : UInt8 := if n < 10 then 48 + n.toUInt8 else 87 + n.toUInt8

/-- The lowest `width` hexadecimal digits of `n`. -/
def hexDigits : Nat → Nat → Bytes
  | 0, _ => []
  | width + 1, n => hexDigits width (n / 16) ++ [hexDigit (n % 16)]

/-- The letter of a one-letter escape, for the control characters that have one. -/
def controlLetter? (n : Nat) : Option UInt8 :=
  match n with
  | 7 => some 97
  | 8 => some 98
  | 9 => some 116
  | 10 => some 110
  | 11 => some 118
  | 12 => some 102
  | 13 => some 114
  | _ => none

def escapeChar (c : Char) : Bytes :=
  let n := c.toNat
  if n = 34 || n = 92 then [Ascii.backslash, n.toUInt8]
  else if Unicode.isPrintable c then Bytes.ofChar c
  else
    match controlLetter? n with
    | some letter => [Ascii.backslash, letter]
    | none =>
      if n < 32 || n = 127 then [Ascii.backslash, 120] ++ hexDigits 2 n
      else if n < 0x10000 then [Ascii.backslash, 117] ++ hexDigits 4 n
      else [Ascii.backslash, 85] ++ hexDigits 8 n

/-- Printable characters stand for themselves; a byte that is no UTF-8 is written as `\xhh`. -/
def escapeRune (r : Rune) : Bytes :=
  if r.isValid then escapeChar r.char
  else r.raw.flatMap fun b => [Ascii.backslash, 120] ++ hexDigits 2 b.toNat

def quote (b : Bytes) : Bytes :=
  [Ascii.quote] ++ b.runes.flatMap escapeRune ++ [Ascii.quote]

/-- A character in single quotes. -/
def quoteChar (c : Char) : Bytes :=
  let body := if c == '\'' then [Ascii.backslash, Ascii.apostrophe]
    else if c == '"' then [Ascii.quote]
    else escapeChar c
  [Ascii.apostrophe] ++ body ++ [Ascii.apostrophe]

/-! ### Reading -/

/-- The value of hexadecimal digits, if all of them are. -/
def hexValue? (digits : Bytes) : Option Nat :=
  if digits.all Ascii.isHexDigit then
    some (digits.foldl (fun n d => n * 16 + Ascii.digitValue d) 0)
  else none

/-- The bytes of a code point, unless it is a surrogate or too large. -/
def codePoint? (n : Nat) : Option Bytes :=
  if n < 0xD800 || (0xE000 ≤ n && n < 0x110000) then some (Bytes.ofChar (Char.ofNat n)) else none

/-- The byte of a one-letter escape. -/
def simpleEscape? (b : UInt8) : Option UInt8 :=
  match b with
  | 97 => some 7
  | 98 => some 8
  | 102 => some 12
  | 110 => some 10
  | 114 => some 13
  | 116 => some 9
  | 118 => some 11
  | 92 => some 92
  | _ => none

/-- The value of the inside of a literal delimited by the byte `delim`. -/
def unescape (delim : UInt8) : Bytes → Option Bytes
  | [] => some []
  | Ascii.backslash :: 120 :: a :: b :: rest => do
    let n ← hexValue? [a, b]
    let tail ← unescape delim rest
    pure (n.toUInt8 :: tail)
  | Ascii.backslash :: 117 :: a :: b :: c :: d :: rest => do
    let n ← hexValue? [a, b, c, d]
    let char ← codePoint? n
    let tail ← unescape delim rest
    pure (char ++ tail)
  | Ascii.backslash :: 85 :: a :: b :: c :: d :: e :: f :: g :: h :: rest => do
    let n ← hexValue? [a, b, c, d, e, f, g, h]
    let char ← codePoint? n
    let tail ← unescape delim rest
    pure (char ++ tail)
  | Ascii.backslash :: a :: rest =>
    if Ascii.isOctalDigit a then
      match rest with
      | b :: c :: rest' =>
        let n := Ascii.digitValue a * 64 + Ascii.digitValue b * 8 + Ascii.digitValue c
        if Ascii.isOctalDigit b && Ascii.isOctalDigit c && n < 256 then
          (unescape delim rest').map (n.toUInt8 :: ·)
        else none
      | _ => none
    else if a = delim then (unescape delim rest).map (a :: ·)
    else do
      let b ← simpleEscape? a
      let tail ← unescape delim rest
      pure (b :: tail)
  | b :: rest =>
    if b = delim || b = Ascii.newline || b = Ascii.backslash then none
    else (unescape delim rest).map (b :: ·)

/-- The value of a string literal: double quoted with escapes, or raw between backquotes. -/
def unquote? (lit : Bytes) : Option Bytes :=
  match lit with
  | Ascii.backquote :: rest =>
    match Bytes.stripEnd? [Ascii.backquote] rest with
    | some inner =>
      if inner.contains Ascii.backquote then none else some (inner.filter (· ≠ Ascii.cr))
    | none => none
  | Ascii.quote :: rest =>
    match Bytes.stripEnd? [Ascii.quote] rest with
    | some inner => unescape Ascii.quote inner
    | none => none
  | _ => none

end RetryWeave.Quoted
