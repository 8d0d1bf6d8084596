import RetryWeave.Text.Rune

/-!
Files of environment variables: lines such as `export NAME="value" # note`.
-/

namespace RetryWeave

/-- Variables and their values; of several values the last counts. -/
abbrev Variables := List (Bytes × Bytes)

namespace Variables

def get? (vs : Variables) (name : Bytes) : Option Bytes := vs.reverse.lookup name

end Variables

namespace EnvFile

/-! ### White space -/

/-- White space within a line. -/
def isInlineSpace (c : Char) : Bool :=
  c == ' ' || c == '\t' || c == '\r' || c.toNat == 11 || c.toNat == 12 || c.toNat == 0x85 ||
    c.toNat == 0xA0

/-- A byte as the character of the same number. -/
def byteChar (b : UInt8) : Char := Char.ofNat b.toNat

def trimInlineLeft (b : Bytes) : Bytes :=
  Bytes.ofRunes (b.runes.dropWhile fun r => isInlineSpace r.char)

def trimInline (b : Bytes) : Bytes :=
  Bytes.ofRunes
    ((b.runes.dropWhile fun r => isInlineSpace r.char).reverse.dropWhile fun r =>
      isInlineSpace r.char).reverse

def isLineEnd (b : UInt8) : Bool := b == Ascii.newline || b == Ascii.cr

/-- Line ends of two bytes become one. -/
def unifyLineEnds : Bytes → Bytes
  | Ascii.cr :: Ascii.newline :: rest => Ascii.newline :: unifyLineEnds rest
  | b :: rest => b :: unifyLineEnds rest
  | [] => []

/-- The start of the next statement, after white space and comments. -/
def nextStatement : Nat → Bytes → Option Bytes
  | 0, _ => none
  | fuel + 1, text =>
    match Bytes.trimLeft text with
    | [] => none
    | b :: rest =>
      if b = Ascii.hash then
        match rest.dropWhile (· ≠ Ascii.newline) with
        | [] => none
        | after => nextStatement fuel after
      else some (b :: rest)

/-! ### Names -/

/-- Characters that a name may have. -/
def isNameChar (c : Char) : Bool :=
  c == '_' || c == '.' || Unicode.isLetter c || Unicode.isDigit c ||
    [0xB2, 0xB3, 0xB9, 0xBC, 0xBD, 0xBE].contains c.toNat

/-- The name before an equal sign or colon and what follows it. Without a sign the name is empty,
and a character that no name has is an error. -/
def splitName (whole : Bytes) : Bytes → Bytes → Option (Bytes × Bytes)
  | _, [] => some ([], whole)
  | read, b :: rest =>
    if b = Ascii.equal || b = Ascii.colon then some (read, rest)
    else if isInlineSpace (byteChar b) || isNameChar (byteChar b) then
      splitName whole (read ++ [b]) rest
    else none

/-- A statement without the leading word `export`. -/
def dropExport (text : Bytes) : Bytes :=
  match Bytes.stripStart? "export" text with
  | some rest =>
    let trimmed := trimInlineLeft rest
    if trimmed.length < rest.length then trimmed else text
  | none => text

def name? (statement : Bytes) : Option (Bytes × Bytes) :=
  let text := dropExport (trimInlineLeft statement)
  if text.isEmpty then none
  else (splitName text [] text).map fun (name, rest) => (Bytes.trimRight name, trimInlineLeft rest)

/-! ### Values -/

def isVariableByte (b : UInt8) : Bool := Ascii.isUpper b || Ascii.isDigit b || b == Ascii.underscore

/-- A variable after its dollar sign: an opening parenthesis and brace, a name, a closing brace. The
number of bytes and the name. -/
def variableAt (text : Bytes) : Nat × Bytes :=
  let one (b : UInt8) (t : Bytes) : Nat := if t.head? == some b then 1 else 0
  let a := one Ascii.lparen text
  let b := a + one Ascii.lbrace (text.drop a)
  let name := (text.drop b).takeWhile isVariableByte
  let c := b + name.length
  (c + one Ascii.rbrace (text.drop c), name)

/-- Replaces variables by their values. A backslash before the dollar sign keeps it. -/
def substitute (vs : Variables) : Nat → Bytes → Bytes
  | _, [] => []
  | skip + 1, _ :: rest => substitute vs skip rest
  | 0, b :: rest =>
    if b = Ascii.dollar then
      let (n, name) := variableAt rest
      (if name.isEmpty then b :: rest.take n else (vs.get? name).getD []) ++ substitute vs n rest
    else if b = Ascii.backslash && rest.head? == some Ascii.dollar then
      let (n, _) := variableAt rest.tail
      rest.take (n + 1) ++ substitute vs (n + 1) rest
    else b :: substitute vs 0 rest

/-- Replaces the escapes of line ends. -/
def unescapeLines : Bytes → Bytes
  | Ascii.backslash :: b :: rest =>
    if b = 110 then Ascii.newline :: unescapeLines rest
    else if b = 114 then Ascii.cr :: unescapeLines rest
    else Ascii.backslash :: b :: unescapeLines rest
  | b :: rest => b :: unescapeLines rest
  | [] => []

/-- Drops backslashes that are not before a dollar sign. -/
def dropBackslashes : Bytes → Bytes
  | Ascii.backslash :: b :: rest =>
    if b = Ascii.dollar then Ascii.backslash :: b :: dropBackslashes rest
    else b :: dropBackslashes rest
  | b :: rest => b :: dropBackslashes rest
  | [] => []

/-- The place of the last comment sign that follows white space. -/
def commentStart? (chars : List Char) : Option Nat :=
  let isStart (i : Nat) : Bool :=
    chars[i]? == some '#' && 0 < i && ((chars[i - 1]?).map isInlineSpace).getD false
  (List.range chars.length).reverse.find? isStart

/-- A value without quotes: the rest of the line up to a comment. -/
def bareValue (vs : Variables) (text : Bytes) : Bytes × Bytes :=
  let line := text.takeWhile (!isLineEnd ·)
  let rest := text.dropWhile (!isLineEnd ·)
  let chars := (Bytes.runes line).map (·.char)
  let kept := match commentStart? chars with
    | some n => chars.take n
    | none => chars
  (substitute vs 0 (trimInline (Bytes.ofChars kept)), rest)

/-- The number of bytes before a closing quote; one after a backslash does not close. -/
def closingQuote? (quote : UInt8) (before : UInt8) : Bytes → Option Nat
  | [] => none
  | b :: rest =>
    if b = quote && before ≠ Ascii.backslash then some 0
    else (closingQuote? quote b rest).map (· + 1)

/-- A value in quotes. Inside double quotes escapes and variables are replaced. -/
def quotedValue? (vs : Variables) (quote : UInt8) (text : Bytes) : Option (Bytes × Bytes) :=
  (closingQuote? quote quote text).map fun n =>
    let inside := Bytes.trimEndWhile (· = quote) ((text.take n).dropWhile (· = quote))
    let value := if quote = Ascii.quote
      then substitute vs 0 (dropBackslashes (unescapeLines inside)) else inside
    (value, text.drop (n + 1))

def value? (vs : Variables) (text : Bytes) : Option (Bytes × Bytes) :=
  match text with
  | b :: rest =>
    if b = Ascii.quote || b = Ascii.apostrophe then quotedValue? vs b rest
    else some (bareValue vs text)
  | [] => some ([], [])

/-! ### Files -/

/-- The statements of a text, after the variables that were read before. -/
def statements : Nat → Variables → Bytes → Option Variables
  | 0, vs, _ => some vs
  | fuel + 1, vs, text =>
    match nextStatement (text.length + 1) text with
    | none => some vs
    | some statement =>
      match name? statement with
      | none => none
      | some (name, rest) =>
        match value? vs rest with
        | none => none
        | some (value, rest') => statements fuel (vs ++ [(name, value)]) rest'

/-- The variables of a file, unless a statement is malformed. -/
def parse? (text : Bytes) : Option Variables :=
  let text := unifyLineEnds text
  statements (text.length + 1) [] text

end EnvFile

end RetryWeave
