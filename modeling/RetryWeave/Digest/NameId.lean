import RetryWeave.Digest.Sha1
import RetryWeave.Text.Quoted

/-!
Name based identifiers: sixteen bytes made from the SHA-1 digest of a namespace and a name, with
the version and variant bits of a version 5 UUID.
-/

namespace RetryWeave.NameId

/-- The namespace of names that are URLs. -/
def urlNamespace : Bytes :=
  [0x6B, 0xA7, 0xB8, 0x11, 0x9D, 0xAD, 0x11, 0xD1, 0x80, 0xB4, 0x00, 0xC0, 0x4F, 0xD4, 0x30, 0xC8]

def make (space name : Bytes) : Bytes :=
  let id := (Sha1.digest (space ++ name)).take 16
  let marked := id.set 6 ((id.getD 6 0 &&& 0x0F) ||| 0x50)
  marked.set 8 ((marked.getD 8 0 &&& 0x3F) ||| 0x80)

/-- The first eight hexadecimal digits of an identifier. -/
def shortText (id : Bytes) : Bytes :=
  (id.take 4).flatMap fun b => Quoted.hexDigits 2 b.toNat

end RetryWeave.NameId
