import RetryWeave.Syntax.Token
import RetryWeave.Text.Rune

/-!
The extent of identifiers, numbers, strings and comments at the start of a text. A malformed
literal has no extent.
-/

namespace RetryWeave.Syntax

/-! ### Identifiers -/

def isIdentStart (c : Char) : Bool := c == '_' || Unicode.isLetter c

def isIdentPart (c : Char) : Bool := isIdentStart c || Unicode.isDigit c

/-- The number of bytes, after `skip`, up to the first that belongs to no identifier. -/
def identLength : Nat → Bytes → Nat
  | _, [] => 0
  | skip + 1, _ :: rest => 1 + identLength skip rest
  | 0, b :: rest =>
    let r := Rune.first b rest
    if isIdentPart r.char then 1 + identLength (r.raw.length - 1) rest else 0

/-- An identifier: a letter or underscore, then letters, digits and underscores; no keyword. -/
def isIdentifier (name : Bytes) : Bool :=
  match name.runes with
  | [] => false
  | r :: rest =>
    isIdentStart r.char && rest.all (fun s => isIdentPart s.char) && (Tok.keyword? name).isNone

/-! ### Numbers -/

/-- Digits of a number, with underscores. -/
def digitSpan (hex : Bool) (text : Bytes) : Bytes × Bytes :=
  text.span fun b => (if hex then Ascii.isHexDigit b else Ascii.isDigit b) || b == Ascii.underscore

def hasDigit (run : Bytes) : Bool := run.any (· != Ascii.underscore)

/-- Underscores must separate digits; the base mark of a number counts as a digit. The flags say
whether the byte before was a digit, and whether it was an underscore. -/
def separatorsOk (hex : Bool) : Bool → Bool → Bytes → Bool
  | _, under, [] => !under
  | digit, under, b :: rest =>
    if b = Ascii.underscore then digit && separatorsOk hex false true rest
    else if Ascii.isDigit b || (hex && Ascii.isHexDigit b) then separatorsOk hex true false rest
    else !under && separatorsOk hex false false rest

/-- The base mark of a number: none, a leading zero, or a letter. -/
inductive BaseMark where
  | decimal
  | zero
  | hex
  | octal
  | binary
deriving DecidableEq

def BaseMark.ofText : Bytes → BaseMark × Bytes × Bytes
  | Ascii.zero :: b :: rest =>
    match Ascii.toLower b with
    | 120 => (.hex, [Ascii.zero, b], rest)
    | 111 => (.octal, [Ascii.zero, b], rest)
    | 98 => (.binary, [Ascii.zero, b], rest)
    | _ => (.zero, [Ascii.zero], b :: rest)
  | [Ascii.zero] => (.zero, [Ascii.zero], [])
  | text => (.decimal, [], text)

/-- Digits that are too large for the base make an integer malformed. -/
def BaseMark.fits (m : BaseMark) (run : Bytes) : Bool :=
  match m with
  | .decimal | .hex => true
  | .zero | .octal => run.all fun b => Ascii.isOctalDigit b || b == Ascii.underscore
  | .binary => run.all fun b => b == 48 || b == 49 || b == Ascii.underscore

/-- The exponent at the start of a text, if there is one. `none` means that it is malformed. -/
def exponent? (m : BaseMark) (text : Bytes) : Option (Bytes × Bytes) :=
  match text with
  | [] => some ([], [])
  | e :: rest =>
    let mark := Ascii.toLower e
    if mark == 101 || mark == 112 then
      if mark == 101 && !(m == .decimal || m == .zero) then none
      else if mark == 112 && m != .hex then none
      else
        let (sign, rest) : Bytes × Bytes :=
          match rest with
          | s :: more => if s == Ascii.plus || s == Ascii.minus then ([s], more) else ([], rest)
          | [] => ([], rest)
        let (run, rest) := digitSpan false rest
        if hasDigit run then some (e :: sign ++ run, rest) else none
    else some ([], text)

/-- The kind and the extent of the number at the start of a text. -/
def number? (text : Bytes) : Option (Tok × Nat) := do
  let (mark, head, rest) := BaseMark.ofText text
  let hex := mark == .hex
  let (whole, rest) := digitSpan hex rest
  let point := rest.head? == some Ascii.dot
  if point && (mark == .octal || mark == .binary) then none
  let (fraction, rest) := if point then digitSpan hex rest.tail else ([], rest)
  if !(mark == .zero || hasDigit whole || hasDigit fraction) then none
  let (power, rest) ← exponent? mark rest
  if power.isEmpty && hex && point then none
  let (suffix, kind) : Bytes × Tok :=
    if rest.head? == some 105 then ([105], .imag)
    else if point || !power.isEmpty then ([], .float)
    else ([], .int)
  if kind == .int && !mark.fits whole then none
  let body := whole ++ (if point then [Ascii.dot] else []) ++ fraction ++ power ++ suffix
  let marked := mark == .hex || mark == .octal || mark == .binary
  let separated :=
    if marked then separatorsOk hex true false body
    else separatorsOk false false false (head ++ body)
  if !separated then none
  pure (kind, (head ++ body).length)

/-! ### Strings and characters -/

/-- The number of bytes of an escape after its backslash. -/
def escapeLength? (delim : UInt8) (text : Bytes) : Option Nat :=
  let digits (base count limit : Nat) (run : Bytes) : Bool :=
    let values := (run.take count).map Ascii.digitValue
    let n := values.foldl (fun n d => n * base + d) 0
    values.length == count && values.all (· < base) && n ≤ limit && !(0xD800 ≤ n && n < 0xE000)
  match text with
  | [] => none
  | b :: rest =>
    if b == delim || b == 97 || b == 98 || b == 102 || b == 110 || b == 114 || b == 116 ||
        b == 118 || b == Ascii.backslash then some 1
    else if Ascii.isOctalDigit b then if digits 8 3 255 text then some 3 else none
    else if b == 120 then if digits 16 2 255 rest then some 3 else none
    else if b == 117 then if digits 16 4 0x10FFFF rest then some 5 else none
    else if b == 85 then if digits 16 8 0x10FFFF rest then some 9 else none
    else none

/-- The extent of an interpreted literal after its opening `delim`, with its number of characters.
The first argument counts bytes that belong to a character already seen. -/
def quotedLength? (delim : UInt8) : Nat → Bytes → Option (Nat × Nat)
  | _, [] => none
  | skip + 1, _ :: rest => (quotedLength? delim skip rest).map fun (n, chars) => (n + 1, chars)
  | 0, b :: rest =>
    if b = delim then some (1, 0)
    else if b = Ascii.newline then none
    else do
      let more ← if b = Ascii.backslash then escapeLength? delim rest
        else some ((Rune.first b rest).raw.length - 1)
      let (n, chars) ← quotedLength? delim more rest
      pure (n + 1, chars + 1)

/-- The extent of a raw string after its opening backquote. -/
def rawLength? : Bytes → Option Nat
  | [] => none
  | b :: rest => if b = Ascii.backquote then some 1 else (rawLength? rest).map (· + 1)

/-! ### Comments -/

/-- The extent of a general comment after its opening `/*`. -/
def blockLength? : Bytes → Option Nat
  | [] => none
  | b :: rest =>
    match b, rest with
    | Ascii.star, Ascii.slash :: _ => some 2
    | _, _ => (blockLength? rest).map (· + 1)

/-- The inside of a general comment without carriage returns. One is kept where the `*` before it
and the `/` after it would otherwise end the comment; the flag says that a `*` was kept last. -/
def stripReturns : Bool → Bytes → Bytes
  | _, [] => []
  | star, b :: rest =>
    if b = Ascii.cr && !(star && rest.head? == some Ascii.slash) then stripReturns star rest
    else b :: stripReturns (b = Ascii.star) rest

/-- The text of a comment: without carriage returns. -/
def commentText (raw : Bytes) : Bytes :=
  if raw.getD 1 0 == Ascii.star then raw.take 2 ++ stripReturns false (raw.drop 2)
  else raw.filter (· ≠ Ascii.cr)

end RetryWeave.Syntax
