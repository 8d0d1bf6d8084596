import RetryWeave.Text.Bytes

/-!
The SHA-1 digest of a byte string.
-/

namespace RetryWeave.Sha1

/-- The five words of the running digest. -/
structure State where
  a : UInt32
  b : UInt32
  c : UInt32
  d : UInt32
  e : UInt32

def initial : State :=
  ⟨0x67452301, 0xEFCDAB89, 0x98BADCFE, 0x10325476, 0xC3D2E1F0⟩

def rotate (w : UInt32) (n : UInt32) : UInt32 := (w <<< n) ||| (w >>> (32 - n))

/-- The four bytes of a word, most significant first. -/
def wordBytes (w : UInt32) : Bytes :=
  [(w >>> 24).toUInt8, (w >>> 16).toUInt8, (w >>> 8).toUInt8, w.toUInt8]

/-- The words of a block, most significant byte first. -/
def words : Bytes → List UInt32
  | a :: b :: c :: d :: rest =>
    ((a.toUInt32 <<< 24) ||| (b.toUInt32 <<< 16) ||| (c.toUInt32 <<< 8) ||| d.toUInt32) ::
      words rest
  | _ => []

/-- The message followed by one bit, zeros, and its length in bits. -/
def pad (msg : Bytes) : Bytes :=
  let zeros := (119 - msg.length % 64) % 64
  let bits := msg.length * 8
  msg ++ [0x80] ++ List.replicate zeros 0 ++
    wordBytes (bits / 4294967296).toUInt32 ++ wordBytes bits.toUInt32

/-- Extends the words of a block, newest first, by `n` more. -/
def schedule : Nat → List UInt32 → List UInt32
  | 0, ws => ws
  | n + 1, ws =>
    let word (i : Nat) : UInt32 := ws.getD i 0
    schedule n (rotate (word 2 ^^^ word 7 ^^^ word 13 ^^^ word 15) 1 :: ws)

def round (s : State) (step : Nat × UInt32) : State :=
  let (f, k) : UInt32 × UInt32 :=
    if step.1 < 20 then ((s.b &&& s.c) ||| ((~~~s.b) &&& s.d), 0x5A827999)
    else if step.1 < 40 then (s.b ^^^ s.c ^^^ s.d, 0x6ED9EBA1)
    else if step.1 < 60 then ((s.b &&& s.c) ||| (s.b &&& s.d) ||| (s.c &&& s.d), 0x8F1BBCDC)
    else (s.b ^^^ s.c ^^^ s.d, 0xCA62C1D6)
  ⟨rotate s.a 5 + f + s.e + k + step.2, s.a, rotate s.b 30, s.c, s.d⟩

def absorb (s : State) (block : Bytes) : State :=
  let ws := (schedule 64 (words block).reverse).reverse
  let t := ((List.range 80).zip ws).foldl round s
  ⟨s.a + t.a, s.b + t.b, s.c + t.c, s.d + t.d, s.e + t.e⟩

/-- The first `n` blocks of sixty-four bytes. -/
def blocks : Nat → Bytes → List Bytes
  | 0, _ => []
  | n + 1, b => b.take 64 :: blocks n (b.drop 64)

def digest (msg : Bytes) : Bytes :=
  let padded := pad msg
  let s := (blocks (padded.length / 64) padded).foldl absorb initial
  wordBytes s.a ++ wordBytes s.b ++ wordBytes s.c ++ wordBytes s.d ++ wordBytes s.e

end RetryWeave.Sha1
