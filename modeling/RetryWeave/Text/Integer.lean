import RetryWeave.Text.Bytes

/-!
Reading an integer of 64 bits from its text: an optional sign, an optional base mark, and digits with
underscores between them.
-/

namespace RetryWeave.Integer

/-- Why a text is no integer of 64 bits. -/
inductive Fault where
  | malformed
  | outOfRange
deriving DecidableEq, Repr

/-! ### Without a sign -/

/-- The base of a number, and what stands after its base mark. A letter marks a base only if there is
more after it; otherwise a leading zero means octal. -/
def baseOf : Bytes → Nat × Bytes
  | Ascii.zero :: mark :: b :: rest =>
    match Ascii.toLower mark with
    | 98 => (2, b :: rest)
    | 111 => (8, b :: rest)
    | 120 => (16, b :: rest)
    | _ => (8, mark :: b :: rest)
  | Ascii.zero :: rest => (8, rest)
  | text => (10, text)

/-- The smallest number that does not fit into 64 bits any more when it gets another digit. -/
def cutoff (base : Nat) : UInt64 := UInt64.ofNat (0xFFFFFFFFFFFFFFFF / base + 1)

/-- Reads digits after those that make `n`. Underscores do not count. -/
def digitsFrom (base : Nat) : UInt64 → Bytes → Except Fault UInt64
  | n, [] => .ok n
  | n, b :: rest =>
    if b = Ascii.underscore then digitsFrom base n rest
    else if base ≤ Ascii.digitValue b then .error .malformed
    else if cutoff base ≤ n then .error .outOfRange
    else
      let shifted := n * UInt64.ofNat base
      let sum := shifted + UInt64.ofNat (Ascii.digitValue b)
      if sum < shifted then .error .outOfRange else digitsFrom base sum rest

/-- What the byte before is for the underscore after it. -/
inductive Before where
  | start
  | digit
  | underscore
  | other
deriving DecidableEq, Repr

/-- Every underscore stands after a digit and before another one. -/
def separatesFrom (hex : Bool) : Before → Bytes → Bool
  | before, [] => before ≠ .underscore
  | before, b :: rest =>
    if Ascii.isDigit b || (hex && Ascii.isHexDigit b) then separatesFrom hex .digit rest
    else if b = Ascii.underscore then before = .digit && separatesFrom hex .underscore rest
    else before ≠ .underscore && separatesFrom hex .other rest

/-- Underscores separate digits; a base mark counts as one. -/
def separates : Bytes → Bool
  | Ascii.zero :: mark :: rest =>
    match Ascii.toLower mark with
    | 98 | 111 => separatesFrom false .digit rest
    | 120 => separatesFrom true .digit rest
    | _ => separatesFrom false .start (Ascii.zero :: mark :: rest)
  | text => separatesFrom false .start text

def readUnsigned (text : Bytes) : Except Fault UInt64 :=
  if text = [] then .error .malformed
  else
    let (base, digits) := baseOf text
    match digitsFrom base 0 digits with
    | .error f => .error f
    | .ok n =>
      if digits.contains Ascii.underscore && !separates text then .error .malformed else .ok n

/-! ### With a sign -/

/-- The number of a given size, if 64 bits with a sign hold it. -/
def withSign (negative : Bool) (size : UInt64) : Except Fault Int :=
  if negative then if 0x8000000000000000 < size.toNat then .error .outOfRange else .ok (-size.toNat)
  else if 0x8000000000000000 ≤ size.toNat then .error .outOfRange
  else .ok size.toNat

def read : Bytes → Except Fault Int
  | Ascii.plus :: digits => (readUnsigned digits).bind (withSign false)
  | Ascii.minus :: digits => (readUnsigned digits).bind (withSign true)
  | digits => (readUnsigned digits).bind (withSign false)

end RetryWeave.Integer
