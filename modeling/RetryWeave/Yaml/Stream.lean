import RetryWeave.Text.Rune

/-!
A YAML stream as it is read. The bytes come in blocks, and a block is decoded as a whole when its
first character is needed. What is malformed is thus noticed only with its block, and whatever can
be told from the blocks before it stands.
-/

namespace RetryWeave.Yaml

/-- The character that marks the order of bytes at the start of a stream. -/
def orderMark : Char := '\uFEFF'

/-- Characters that a stream may have. -/
def isAllowed (c : Char) : Bool :=
  let n := c.toNat
  n == 9 || n == 10 || n == 13 || (32 ≤ n && n ≤ 126) || n == 0x85 || (0xA0 ≤ n && n ≤ 0xD7FF) ||
    (0xE000 ≤ n && n ≤ 0xFFFD) || 0x10000 ≤ n

/-- What stands at the front of some bytes. -/
inductive Front where
  | char (c : Char) (width : Nat)
  /-- The bytes end before the character does. -/
  | cut
  | malformed
deriving DecidableEq, Repr

/-- How bytes stand for characters. -/
inductive Encoding where
  | utf8
  | utf16 (bigEndian : Bool)
deriving DecidableEq, Repr

namespace Encoding

/-- The encoding that the first bytes of a stream tell, and how many of them are its mark. -/
def ofStart : Bytes → Encoding × Nat
  | 0xFF :: 0xFE :: _ => (.utf16 false, 2)
  | 0xFE :: 0xFF :: _ => (.utf16 true, 2)
  | 0xEF :: 0xBB :: 0xBF :: _ => (.utf8, 3)
  | _ => (.utf8, 0)

/-- A character if a stream may have it. -/
def allowed (c : Char) (width : Nat) : Front := if isAllowed c then .char c width else .malformed

/-- How long a sequence with the given first byte is; zero if there is none. -/
def sequenceLength (lead : UInt8) : Nat :=
  if lead < 0x80 then 1
  else if lead / 32 == 6 then 2
  else if lead / 16 == 14 then 3
  else if lead / 8 == 30 then 4
  else 0

def frontUtf8 : Bytes → Front
  | [] => .cut
  | lead :: rest =>
    let width := sequenceLength lead
    if width = 0 then .malformed
    else if (rest.take (width - 1)).length < width - 1 then .cut
    else
      let r := Rune.first lead rest
      if r.isValid then allowed r.char width else .malformed

/-- Characters beyond sixteen bits are pairs of units: one of the upper half and then one of the
lower half of a range that has no characters of its own. -/
def frontUtf16 (bigEndian : Bool) (b : Bytes) : Front :=
  let unit (x y : UInt8) : Nat :=
    if bigEndian then x.toNat * 256 + y.toNat else y.toNat * 256 + x.toNat
  match b with
  | x :: y :: rest =>
    let u := unit x y
    if u / 1024 = 55 then .malformed
    else if u / 1024 = 54 then
      match rest with
      | z :: t :: _ =>
        let v := unit z t
        if v / 1024 = 55 then allowed (Char.ofNat (0x10000 + u % 1024 * 1024 + v % 1024)) 4
        else .malformed
      | _ => .cut
    else allowed (Char.ofNat u) 2
  | _ => .cut

def front : Encoding → Bytes → Front
  | .utf8 => frontUtf8
  | .utf16 bigEndian => frontUtf16 bigEndian

/-- The characters of a block, and what is left where it ends inside of one; nothing if it is
malformed. -/
def decode? (e : Encoding) : Nat → Bytes → Option (List Char × Bytes)
  | 0, b => some ([], b)
  | fuel + 1, b =>
    match e.front b with
    | .malformed => none
    | .cut => some ([], b)
    | .char c width => (e.decode? fuel (b.drop width)).map fun (cs, left) => (c :: cs, left)

end Encoding

/-- What is still to be read of a stream. -/
inductive Supply where
  | ended
  | malformed
  | block (chars : List Char) (more : Supply)
deriving Repr

namespace Supply

/-- The number of bytes of a block, with the start of a character that the block before cut off. -/
def blockSize : Nat := 512

/-- Reads blocks: the first has room for the given number of bytes, besides those left over. -/
def read (e : Encoding) : Nat → Nat → Bytes → Bytes → Supply
  | 0, _, _, _ => .ended
  | fuel + 1, room, left, rest =>
    if rest.isEmpty then if left.isEmpty then .ended else .malformed
    else
      match e.decode? blockSize (left ++ rest.take room) with
      | none => .malformed
      | some (cs, left') =>
        .block cs (read e fuel (blockSize - left'.length) left' (rest.drop room))

/-- The blocks of a stream of bytes, without a mark of their order. -/
def ofBytes (b : Bytes) : Supply :=
  let (e, width) := Encoding.ofStart b
  read e (b.length + 1) (blockSize - width) [] (b.drop width)

/-- How many characters can be read. -/
def size : Supply → Nat
  | .ended | .malformed => 0
  | .block cs more => cs.length + more.size

end Supply

end RetryWeave.Yaml
