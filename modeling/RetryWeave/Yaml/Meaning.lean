import RetryWeave.Yaml.Node

/-!
What the scalars of a document mean: nothing, a truth value, a number, a time or a text.
-/

namespace RetryWeave.Yaml

/-- A scalar's meaning. Of a number with a fraction only the part before the point is kept, unless
it is beyond sixty-three bits. -/
inductive Meaning where
  | null
  | bool
  | int (n : Int)
  | float (whole : Option Int)
  | time
  | text (b : Bytes)
deriving DecidableEq, Repr

/-! ### Numbers -/

/-- A numeral in the given base. -/
def numeral? (base : Nat) (digits : List Char) : Option Nat :=
  if digits.isEmpty then none
  else
    digits.foldl (fun n d => n.bind fun n =>
      let v := if d.toNat < 128 then Ascii.digitValue d.toNat.toUInt8 else 16
      if v < base then some (n * base + v) else none) (some 0)

/-- A sign and the rest. -/
def signed (text : List Char) : Bool × List Char :=
  match text with
  | '-' :: rest => (true, rest)
  | '+' :: rest => (false, rest)
  | _ => (false, text)

/-- A numeral whose base its start tells: `0x`, `0o`, `0b`, or a zero for octal. -/
def basedNumeral? (text : List Char) : Option Nat :=
  match text with
  | '0' :: mark :: rest =>
    match mark.toLower with
    | 'x' => numeral? 16 rest
    | 'o' => numeral? 8 rest
    | 'b' => numeral? 2 rest
    | _ => numeral? 8 (mark :: rest)
  | _ => numeral? 10 text

/-- A whole number: of sixty-three bits with a sign, or of sixty-four without. -/
def signedInteger? (numeral : List Char → Option Nat) (text : List Char) : Option Int :=
  let (negative, digits) := signed text
  match numeral digits with
  | none => none
  | some n =>
    if negative then if n ≤ 1 <<< 63 then some (-(n : Int)) else none
    else if n < 1 <<< 63 then some n
    else if n < 1 <<< 64 && text.head? != some '+' then some n
    else none

/-- A whole number. The sign stands before the mark of the base, or after a binary or octal one. -/
def integer? (text : List Char) : Option Int :=
  match signedInteger? basedNumeral? text with
  | some n => some n
  | none =>
    match text with
    | '0' :: 'b' :: rest => signedInteger? (numeral? 2) rest
    | '0' :: 'o' :: rest => signedInteger? (numeral? 8) rest
    | _ => none

/-- The mantissa and the binary exponent of the number of fifty-three bits nearest to a quotient, of
two equally near ones the even. -/
def nearest53 (num den : Nat) : Nat × Int :=
  if num = 0 then (0, 0)
  else
    let guess : Int := (num.log2 : Int) - (den.log2 : Int) - 52
    let scaled (q : Int) : Nat × Nat :=
      if q ≥ 0 then (num, den <<< q.toNat) else (num <<< (-q).toNat, den)
    let (n0, d0) := scaled guess
    let q := if n0 / d0 < 1 <<< 52 then guess - 1 else guess
    let (n, d) := scaled q
    let m := n / d
    let twice := 2 * (n % d)
    (if twice > d || (twice = d && m % 2 = 1) then m + 1 else m, q)

/-- A decimal fraction as a binary number: its whole part, if it is not too large for one. -/
def wholePart? (digits : Nat) (exponent : Int) : Option Nat :=
  if digits = 0 then some 0
  else
    let size : Int := (Nat.toDigits 10 digits).length + exponent
    if size > 400 then none
    else if size < -400 then some 0
    else
      let (num, den) :=
        if exponent ≥ 0 then (digits * Nat.pow 10 exponent.toNat, 1)
        else (digits, Nat.pow 10 (-exponent).toNat)
      let (m, q) := nearest53 num den
      if q ≥ 0 then if m <<< q.toNat < 1 <<< 1024 then some (m <<< q.toNat) else none
      else some (m >>> (-q).toNat)

/-- The whole part of a signed number as an integer of sixty-four bits; below their range it is the
least of them, and so is two to the sixty-third. -/
def toWord (negative : Bool) (whole : Nat) : Option Int :=
  if negative then some (if whole ≤ 1 <<< 63 then -(whole : Int) else -(1 <<< 63 : Nat))
  else if whole < 1 <<< 63 then some whole
  else if whole = 1 <<< 63 then some (-(1 <<< 63 : Nat))
  else none

/-- A decimal number with an optional fraction and exponent. -/
def decimal? (text : List Char) : Option Meaning :=
  let (negative, body) := signed text
  let front := body.takeWhile Char.isDigit
  let afterFront := body.dropWhile Char.isDigit
  let (fraction, afterFraction) :=
    match afterFront with
    | '.' :: rest => (rest.takeWhile Char.isDigit, rest.dropWhile Char.isDigit)
    | _ => ([], afterFront)
  let exponent : Option Int :=
    match afterFraction with
    | [] => some 0
    | mark :: rest =>
      if mark == 'e' || mark == 'E' then
        let (down, digits) := signed rest
        (numeral? 10 digits).map fun n => if down then -(n : Int) else n
      else none
  match exponent with
  | none => none
  | some e =>
    match numeral? 10 (front ++ fraction) with
    | none => none
    | some n => (wholePart? n (e - fraction.length)).map fun w => .float (toWord negative w)

/-- Whether underscores stand only between digits. -/
def underscoresFit (text : List Char) : Bool :=
  let rec go : Bool → List Char → Bool
    | _, [] => true
    | digit, '_' :: rest => digit && ((rest.head?).map Char.isDigit).getD false && go false rest
    | _, ch :: rest => go ch.isDigit rest
  go false text

/-- A number as it is written in a document; underscores may stand in it. -/
def number? (text : List Char) : Option Meaning :=
  let bare := text.filter (· != '_')
  match integer? bare with
  | some n => some (.int n)
  | none => decimal? bare

/-! ### Times -/

/-- A number of one or two digits in a range. -/
def shortNumber? (lo hi : Nat) (text : List Char) : Option (Nat × List Char) :=
  let digits := (text.take 2).takeWhile Char.isDigit
  match numeral? 10 digits with
  | none => none
  | some n => if lo ≤ n && n ≤ hi then some (n, text.drop digits.length) else none

def daysIn (year month : Nat) : Nat :=
  if month = 2 then if (year % 4 = 0 && year % 100 ≠ 0) || year % 400 = 0 then 29 else 28
  else if month = 4 || month = 6 || month = 9 || month = 11 then 30
  else 31

/-- A number after a sign. -/
def after? (sign : Char) (lo hi : Nat) (text : List Char) : Option (Nat × List Char) :=
  match text with
  | ch :: rest => if ch = sign then shortNumber? lo hi rest else none
  | [] => none

/-- A time of day, to fractions of a second. -/
def clock? (text : List Char) : Option (List Char) := do
  let (_, t1) ← shortNumber? 0 23 text
  let (_, t2) ← after? ':' 0 59 t1
  let (_, t3) ← after? ':' 0 59 t2
  match t3 with
  | ch :: d :: rest =>
    if (ch == '.' || ch == ',') && d.isDigit then some (rest.dropWhile Char.isDigit) else some t3
  | _ => some t3

/-- The distance from universal time. -/
def isZone (text : List Char) : Bool :=
  match text with
  | ['Z'] => true
  | [s, a, b, ':', c, d] =>
    (s == '+' || s == '-') && (numeral? 10 [a, b]).any (· ≤ 24) &&
      (numeral? 10 [c, d]).any (· ≤ 60)
  | _ => false

/-- A date, or a date with a time of day. -/
def isTime (text : List Char) : Bool :=
  let year := text.takeWhile Char.isDigit
  let read : Option Bool := do
    let y ← numeral? 10 year
    let (month, t1) ← after? '-' 1 12 (text.drop year.length)
    let (day, t2) ← after? '-' 1 31 t1
    if day > daysIn y month then none
    else
      match t2 with
      | [] => some true
      | ch :: rest =>
        if ch == 'T' || ch == 't' then (clock? rest).map isZone
        else if ch == ' ' then (clock? (rest.dropWhile (· == ' '))).map List.isEmpty
        else none
  year.length = 4 && read.getD false

/-! ### Binary text -/

def sextet? (c : Char) : Option Nat :=
  if c.isUpper then some (c.toNat - 65)
  else if c.isLower then some (c.toNat - 71)
  else if c.isDigit then some (c.toNat + 4)
  else if c == '+' then some 62
  else if c == '/' then some 63
  else none

/-- The bytes that groups of four letters stand for; the last group may be filled up with equal
signs. -/
def fromBase64? : List Char → Option Bytes
  | [] => some []
  | [a, b, '=', '='] => do
    let n := (← sextet? a) * 64 + (← sextet? b)
    pure [(n / 16).toUInt8]
  | [a, b, c, '='] => do
    let n := ((← sextet? a) * 64 + (← sextet? b)) * 64 + (← sextet? c)
    pure [(n / 1024).toUInt8, (n / 4 % 256).toUInt8]
  | a :: b :: c :: d :: rest => do
    let n := (((← sextet? a) * 64 + (← sextet? b)) * 64 + (← sextet? c)) * 64 + (← sextet? d)
    let more ← fromBase64? rest
    pure ((n / 65536).toUInt8 :: (n / 256 % 256).toUInt8 :: (n % 256).toUInt8 :: more)
  | _ => none

/-! ### Scalars -/

/-- Words with a meaning of their own. -/
def wordMeaning? (text : List Char) : Option Meaning :=
  let word := String.ofList text
  if ["", "~", "null", "Null", "NULL"].contains word then some .null
  else if ["true", "True", "TRUE", "false", "False", "FALSE"].contains word then some .bool
  else if [".nan", ".NaN", ".NAN"].contains word then some (.float none)
  else if [".inf", ".Inf", ".INF", "+.inf", "+.Inf", "+.INF"].contains word then some (.float none)
  else if ["-.inf", "-.Inf", "-.INF"].contains word then some (.float (some (-(1 <<< 63 : Nat))))
  else none

/-- The meaning of a plain scalar without a tag. -/
def plainMeaning (text : List Char) : Meaning :=
  let other : Meaning := .text (Bytes.ofChars text)
  match wordMeaning? text with
  | some m => m
  | none =>
    match text with
    | [] => other
    | ch :: _ =>
      if ch == '.' then
        if underscoresFit text then (decimal? (text.filter (· != '_'))).getD other else other
      else if ch.isDigit || ch == '+' || ch == '-' then
        if isTime text then .time else (number? text).getD other
      else other

/-- The meaning of a scalar with a tag; nothing if its text does not fit the tag. -/
def taggedMeaning? (tag text : List Char) : Option Meaning :=
  let name := String.ofList tag
  let bytes := Bytes.ofChars text
  let found := plainMeaning text
  if name == "!!bool" then if found = .bool then some found else none
  else if name == "!!null" then if found = .null then some found else none
  else if name == "!!timestamp" then if found = .time then some found else none
  else if name == "!!int" then
    match found with
    | .int _ => some found
    | _ => none
  else if name == "!!float" then
    match found with
    | .float _ => some found
    | .int n =>
      if n < (1 <<< 63 : Nat) then (wholePart? n.natAbs 0).map fun w => .float (toWord (n < 0) w)
      else none
    | _ => none
  else if name == "!!binary" then
    (fromBase64? (text.filter fun c => c != '\n' && c != '\r')).map Meaning.text
  else some (.text bytes)

/-- The meaning of a scalar. -/
def meaning? (tag : Option (List Char)) (isPlain : Bool) (text : List Char) : Option Meaning :=
  match tag with
  | some t => taggedMeaning? t text
  | none => some (if isPlain then plainMeaning text else .text (Bytes.ofChars text))

end RetryWeave.Yaml
