import RetryWeave.Digest.NameId
import RetryWeave.Syntax.Literal

/-!
Fresh names. A name is made from a stem and a base, and numbered if it is taken.
-/

namespace RetryWeave

/-- How names are kept apart: by a number after a taken name only, or by a suffix that depends on a
seed and the base. -/
inductive NameStyle where
  | sequential
  | hashed (seed : Bytes)
deriving DecidableEq, Repr

/-- A supply of names that never gives out a taken one. -/
structure NameSupply where
  style : NameStyle
  stem : Bytes
  taken : List Bytes
deriving DecidableEq, Repr

namespace NameSupply

/-- A stem is usable if it is empty or an identifier; a keyword is, since names extend it. -/
def isStem (stem : Bytes) : Bool :=
  stem.isEmpty || Syntax.isIdentifier stem || (Syntax.Tok.keyword? stem).isSome

/-- The stem followed by the capitalised base; without a stem, the base itself. -/
def joined (stem base : Bytes) : Bytes :=
  if stem.isEmpty then base
  else
    match base with
    | [] => stem ++ Bytes.ofChar replacementChar
    | b :: rest =>
      let r := Rune.first b rest
      stem ++ Bytes.ofChar (Unicode.toUpper r.char) ++ base.drop r.raw.length

/-- The namespace of the suffixes. -/
def suffixSpace : Bytes :=
  NameId.make NameId.urlNamespace "https://github.com/vvka-141/retrygen"

/-- The suffix of a base under a seed. -/
def suffix (seed base : Bytes) : Bytes :=
  NameId.shortText (NameId.make suffixSpace (seed ++ [Ascii.nul] ++ base))

/-- The name for a base if nothing is taken. -/
def candidate (s : NameSupply) (base : Bytes) : Bytes :=
  match s.style with
  | .sequential => joined s.stem base
  | .hashed seed => joined s.stem base ++ "_" ++ suffix seed base

/-- The candidate followed by a number; nothing for zero. -/
def numbered (candidate : Bytes) (n : Nat) : Bytes :=
  if n = 0 then candidate else candidate ++ Bytes.ofNat n

/-- The first free numbered form of a candidate from number `n` on; after `tries` taken ones the
next. -/
def firstFreeFrom (taken : List Bytes) (candidate : Bytes) : Nat → Nat → Bytes
  | 0, n => numbered candidate n
  | tries + 1, n =>
    if taken.contains (numbered candidate n) then firstFreeFrom taken candidate tries (n + 1)
    else numbered candidate n

/-- The first numbered form of a candidate that is free. There is one among the first
`taken.length + 1`, because they are all different. -/
def firstFree (taken : List Bytes) (candidate : Bytes) : Bytes :=
  firstFreeFrom taken candidate taken.length 0

/-- Gives out a name for a base. -/
def fresh (s : NameSupply) (base : Bytes) : Bytes × NameSupply :=
  let name := firstFree s.taken (s.candidate base)
  (name, { s with taken := name :: s.taken })

/-- Gives out names for several bases in turn. -/
def freshAll (s : NameSupply) : List Bytes → List Bytes × NameSupply
  | [] => ([], s)
  | base :: rest =>
    let (name, s') := s.fresh base
    let (names, s'') := s'.freshAll rest
    (name :: names, s'')

end NameSupply

end RetryWeave
