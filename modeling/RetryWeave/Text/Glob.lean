import RetryWeave.Text.Rune

/-!
Shell patterns over slash separated names: `*` and `?` do not match a slash, `[...]` is a class of
characters and `\` takes the next character as it is. A pattern is read while it is matched. Once the
match has failed the rest is only read, to find out whether it is well formed.
-/

namespace RetryWeave.Glob

/-- A pattern element that matches one character, or one byte. -/
inductive Piece where
  | byte (b : UInt8)
  | anyChar
  | oneOf (negated : Bool) (ranges : List (Char × Char))
deriving DecidableEq, Repr

/-- What is left of a name after a piece has matched its start. -/
def Piece.pass? : Piece → Bytes → Option Bytes
  | _, [] => none
  | .byte b, c :: name => if b = c then some name else none
  | .anyChar, c :: name =>
    if c = Ascii.slash then none else some ((c :: name).drop (Rune.first c name).raw.length)
  | .oneOf negated ranges, c :: name =>
    let r := Rune.first c name
    if (ranges.any fun (lo, hi) => lo ≤ r.char && r.char ≤ hi) == negated then none
    else some ((c :: name).drop r.raw.length)

/-! ### Reading -/

/-- Splits the text after the leading stars at the next star outside a class. -/
def chunkText : Bool → Bytes → Bytes × Bytes
  | _, [] => ([], [])
  | inClass, b :: rest =>
    if b = Ascii.backslash then
      match rest with
      | [] => ([b], [])
      | c :: more =>
        let (chunk, tail) := chunkText inClass more
        (b :: c :: chunk, tail)
    else if b = Ascii.star && !inClass then ([], b :: rest)
    else
      let inClass' := if b = Ascii.lbrack then true else if b = Ascii.rbrack then false else inClass
      let (chunk, tail) := chunkText inClass' rest
      (b :: chunk, tail)

/-- Whether stars lead a text, the text up to the next star, and the rest. -/
def scanChunk (text : Bytes) : Bool × Bytes × Bytes :=
  (text.head? == some Ascii.star, chunkText false (text.dropWhile (· = Ascii.star)))

/-- A character of a class, possibly escaped; something must follow it. -/
def classChar? (chunk : Bytes) : Option (Char × Bytes) :=
  let read (text : Bytes) : Option (Char × Bytes) :=
    match text.firstRune? with
    | none => none
    | some r =>
      let rest := text.drop r.raw.length
      if !r.isValid || rest.isEmpty then none else some (r.char, rest)
  match chunk with
  | [] => none
  | b :: rest =>
    if b = Ascii.minus || b = Ascii.rbrack then none
    else if b = Ascii.backslash then read rest
    else read chunk

/-- The ranges of a class up to its closing bracket. -/
def classRanges? : Nat → Bool → Bytes → Option (List (Char × Char) × Bytes)
  | 0, _, _ => none
  | fuel + 1, seen, chunk =>
    match chunk, seen with
    | Ascii.rbrack :: rest, true => some ([], rest)
    | _, _ => do
      let (lo, rest) ← classChar? chunk
      let (hi, rest) ←
        match rest with
        | Ascii.minus :: more => classChar? more
        | _ => some (lo, rest)
      let (more, tail) ← classRanges? fuel true rest
      pure ((lo, hi) :: more, tail)

/-- The first piece of the text `b :: rest` of a chunk. -/
def piece? (b : UInt8) (rest : Bytes) : Option (Piece × Bytes) :=
  if b = Ascii.lbrack then do
    let (negated, body) :=
      match rest with
      | Ascii.caret :: more => (true, more)
      | _ => (false, rest)
    let (ranges, tail) ← classRanges? (body.length + 1) false body
    pure (.oneOf negated ranges, tail)
  else if b = Ascii.question then some (.anyChar, rest)
  else if b = Ascii.backslash then
    match rest with
    | [] => none
    | c :: more => some (.byte c, more)
  else some (.byte b, rest)

/-! ### Matching

The outer option of a result is nothing for a malformed pattern. Inside, a name that could not be
matched has nothing left. -/

/-- Reads the text of a chunk, and passes by what is left of a name as long as that matches. -/
def passText? : Nat → Bytes → Option Bytes → Option (Option Bytes)
  | _, [], left => some left
  | 0, _ :: _, _ => none
  | fuel + 1, b :: rest, left => do
    let (piece, tail) ← piece? b rest
    passText? fuel tail (left.bind piece.pass?)

/-- Matches a chunk at the start of a name; the last chunk has to reach its end. -/
def matchHere? (last : Bool) (chunk name : Bytes) : Option (Option Bytes) := do
  let left ← passText? chunk.length chunk (some name)
  pure (left.filter fun tail => !last || tail.isEmpty)

/-- The first place, after skipping at least one byte and no slash, at which a chunk matches. -/
def skipTo? (last : Bool) (chunk : Bytes) : Bytes → Option (Option Bytes)
  | [] => some none
  | b :: rest =>
    if b = Ascii.slash then some none
    else do
      match ← matchHere? last chunk rest with
      | some tail => pure (some tail)
      | none => skipTo? last chunk rest

/-- Matches a chunk, after skipping if stars lead it. -/
def matchChunk? (star last : Bool) (chunk name : Bytes) : Option (Option Bytes) := do
  match ← matchHere? last chunk name with
  | some tail => pure (some tail)
  | none => if star then skipTo? last chunk name else pure none

/-- Reads the rest of a pattern that does not match. -/
def isWellFormed : Nat → Bytes → Bool
  | _, [] => true
  | 0, _ :: _ => false
  | fuel + 1, b :: rest =>
    let (_, chunk, tail) := scanChunk (b :: rest)
    (passText? chunk.length chunk none).isSome && isWellFormed fuel tail

def matchesFrom? : Nat → Bytes → Bytes → Option Bool
  | _, [], name => some name.isEmpty
  | 0, _ :: _, _ => none
  | fuel + 1, b :: rest, name =>
    let (star, chunk, tail) := scanChunk (b :: rest)
    if star && chunk.isEmpty then some (!name.contains Ascii.slash)
    else do
      match ← matchChunk? star tail.isEmpty chunk name with
      | some left => matchesFrom? fuel tail left
      | none => if isWellFormed fuel tail then pure false else none

/-- Whether a pattern matches a name; nothing if the pattern turns out to be malformed. -/
def matches? (pattern name : Bytes) : Option Bool := matchesFrom? pattern.length pattern name

end RetryWeave.Glob
