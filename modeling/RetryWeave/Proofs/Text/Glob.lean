import RetryWeave.Proofs.Text.Runes
import RetryWeave.Text.Glob

/-! # Shell patterns

A pattern that is read while it is matched accepts what it accepts when it is read first. So whether a
pattern is malformed does not depend on the name: no early exit hides a fault in the rest of it. -/

namespace RetryWeave.Glob

/-! ## Patterns that are read first -/

/-- A run of pieces, with `star` when any text without a slash may stand before it. -/
structure Chunk where
  star : Bool
  pieces : List Piece
deriving DecidableEq, Repr

/-- The pieces of a chunk's text. -/
def pieces? : Nat → Bytes → Option (List Piece)
  | _, [] => some []
  | 0, _ :: _ => none
  | fuel + 1, b :: rest => do
    let (piece, tail) ← piece? b rest
    let more ← pieces? fuel tail
    pure (piece :: more)

def chunks? : Nat → Bytes → Option (List Chunk)
  | _, [] => some []
  | 0, _ :: _ => none
  | fuel + 1, b :: rest => do
    let (star, chunk, tail) := scanChunk (b :: rest)
    let pieces ← pieces? chunk.length chunk
    let more ← chunks? fuel tail
    pure (⟨star, pieces⟩ :: more)

/-- The pattern that a text denotes, if it is well formed. -/
def parse? (text : Bytes) : Option (List Chunk) := chunks? text.length text

/-- What is left of a name after the pieces have matched its start. -/
def passAll? (pieces : List Piece) (name : Bytes) : Option Bytes :=
  pieces.foldlM (fun left piece => piece.pass? left) name

namespace Chunk

/-- The last chunk has to reach the end of the name. -/
def here? (last : Bool) (c : Chunk) (name : Bytes) : Option Bytes :=
  (passAll? c.pieces name).filter fun tail => !last || tail.isEmpty

/-- The first place, after skipping at least one byte and no slash, at which a chunk matches. -/
def later? (last : Bool) (c : Chunk) : Bytes → Option Bytes
  | [] => none
  | b :: rest => if b = Ascii.slash then none else (c.here? last rest).or (c.later? last rest)

def pass? (last : Bool) (c : Chunk) (name : Bytes) : Option Bytes :=
  (c.here? last name).or (if c.star then c.later? last name else none)

end Chunk

def accepts : List Chunk → Bytes → Bool
  | [], name => name.isEmpty
  | c :: rest, name =>
    if c.star && c.pieces.isEmpty then !name.contains Ascii.slash
    else (c.pass? rest.isEmpty name).any (accepts rest)

/-! ## The text of a chunk -/

variable {last star : Bool} {b : UInt8} {chunk : Bytes} {pieces : List Piece}

theorem pieces?_succ (fuel : Nat) (b : UInt8) (rest : Bytes) :
    pieces? (fuel + 1) (b :: rest) =
      (piece? b rest).bind fun (piece, tail) => (pieces? fuel tail).map (piece :: ·) := by
  simp only [pieces?, Option.bind_eq_bind, Option.pure_def, Option.map_eq_bind, Function.comp_def]

theorem passText?_succ (fuel : Nat) (b : UInt8) (rest : Bytes) (left : Option Bytes) :
    passText? (fuel + 1) (b :: rest) left =
      (piece? b rest).bind fun (piece, tail) => passText? fuel tail (left.bind piece.pass?) := rfl

theorem bind_passAll?_cons (piece : Piece) (pieces : List Piece) (left : Option Bytes) :
    left.bind (passAll? (piece :: pieces)) = (left.bind piece.pass?).bind (passAll? pieces) := by
  rw [Option.bind_assoc]
  rfl

/-- The text of a chunk is read to its end, whether the match has failed or not. -/
theorem passText?_eq (fuel : Nat) (chunk : Bytes) (left : Option Bytes) :
    passText? fuel chunk left =
      (pieces? fuel chunk).map fun pieces => left.bind (passAll? pieces) := by
  induction fuel generalizing chunk left with
  | zero =>
      cases chunk with
      | nil => cases left <;> rfl
      | cons b rest => rfl
  | succ fuel ih =>
      cases chunk with
      | nil => cases left <;> rfl
      | cons b rest =>
          rw [passText?_succ, pieces?_succ]
          cases piece? b rest with
          | none => rfl
          | some read =>
              obtain ⟨piece, tail⟩ := read
              simp only [Option.bind_some, ih, Option.map_map, Function.comp_def, bind_passAll?_cons]

theorem matchHere?_eq (last star : Bool) (chunk name : Bytes) :
    matchHere? last chunk name =
      (pieces? chunk.length chunk).map fun pieces => Chunk.here? last ⟨star, pieces⟩ name := by
  rw [matchHere?, passText?_eq]
  cases pieces? chunk.length chunk <;> rfl

theorem skipTo?_eq (h : pieces? chunk.length chunk = some pieces) (name : Bytes) :
    skipTo? last chunk name = some (Chunk.later? last ⟨star, pieces⟩ name) := by
  induction name with
  | nil => rfl
  | cons b rest ih =>
      rw [skipTo?, Chunk.later?]
      by_cases hslash : b = Ascii.slash
      · rw [if_pos hslash, if_pos hslash]
      · rw [if_neg hslash, if_neg hslash, matchHere?_eq last star, h, Option.map_some]
        cases hhere : Chunk.here? last ⟨star, pieces⟩ rest with
        | none => exact ih
        | some tail => rfl

/-- A chunk that leads to a fault is found to be malformed before the name decides anything. -/
theorem matchChunk?_eq (star last : Bool) (chunk name : Bytes) :
    matchChunk? star last chunk name =
      (pieces? chunk.length chunk).map fun pieces => Chunk.pass? last ⟨star, pieces⟩ name := by
  rw [matchChunk?, matchHere?_eq last star]
  cases hread : pieces? chunk.length chunk with
  | none => rfl
  | some pieces =>
      simp only [Option.map_some, Chunk.pass?]
      cases hhere : Chunk.here? last ⟨star, pieces⟩ name with
      | some tail => rfl
      | none =>
          cases star with
          | false => rfl
          | true => exact skipTo?_eq hread name

/-! ## The text of a pattern -/

theorem chunks?_succ (fuel : Nat) (b : UInt8) (rest : Bytes) :
    chunks? (fuel + 1) (b :: rest) =
      let (star, chunk, tail) := scanChunk (b :: rest)
      (pieces? chunk.length chunk).bind fun pieces =>
        (chunks? fuel tail).map (⟨star, pieces⟩ :: ·) := by
  simp only [chunks?, Option.bind_eq_bind, Option.pure_def, Option.map_eq_bind, Function.comp_def]

theorem isWellFormed_eq (fuel : Nat) (text : Bytes) :
    isWellFormed fuel text = (chunks? fuel text).isSome := by
  induction fuel generalizing text with
  | zero => cases text <;> rfl
  | succ fuel ih =>
      cases text with
      | nil => rfl
      | cons b rest =>
          rw [isWellFormed, chunks?_succ]
          obtain ⟨star, chunk, tail⟩ := scanChunk (b :: rest)
          simp only [passText?_eq, ih]
          cases pieces? chunk.length chunk with
          | none => rfl
          | some pieces => cases chunks? fuel tail <;> rfl

theorem isEmpty_of_pieces? {fuel : Nat} (h : pieces? fuel chunk = some pieces) :
    pieces.isEmpty = chunk.isEmpty := by
  cases chunk with
  | nil =>
      rw [pieces?] at h
      rw [← Option.some.inj h]
      rfl
  | cons b rest =>
      cases fuel with
      | zero => cases h
      | succ fuel =>
          simp only [pieces?_succ, Option.bind_eq_some_iff, Option.map_eq_some_iff] at h
          obtain ⟨read, -, more, -, rfl⟩ := h
          rfl

theorem isEmpty_of_chunks? {fuel : Nat} {text : Bytes} {chunks : List Chunk}
    (h : chunks? fuel text = some chunks) : chunks.isEmpty = text.isEmpty := by
  cases text with
  | nil =>
      rw [chunks?] at h
      rw [← Option.some.inj h]
      rfl
  | cons b rest =>
      cases fuel with
      | zero => cases h
      | succ fuel =>
          simp only [chunks?_succ, Option.bind_eq_some_iff, Option.map_eq_some_iff] at h
          obtain ⟨pieces, -, more, -, rfl⟩ := h
          rfl

theorem chunkText_ne_nil {b : UInt8} (h : b ≠ Ascii.star) (rest : Bytes) :
    (chunkText false (b :: rest)).1 ≠ [] := by
  rw [chunkText.eq_def]
  simp only [h, decide_false, Bool.false_and, Bool.false_eq_true, if_false]
  split
  · split <;> exact List.cons_ne_nil _ _
  · exact List.cons_ne_nil _ _

/-- Only the stars at the end of a pattern lead nothing. -/
theorem scanChunk_nil {text tail : Bytes} (h : scanChunk text = (star, [], tail)) : tail = [] := by
  simp only [scanChunk, Prod.mk.injEq] at h
  have hread := h.2
  cases hrest : text.dropWhile (· = Ascii.star) with
  | nil =>
      rw [hrest, chunkText] at hread
      exact (Prod.mk.inj hread).2.symm
  | cons b rest =>
      have hstar : b ≠ Ascii.star := by
        have hhead := List.head?_dropWhile_not (fun b => decide (b = Ascii.star)) text
        rw [hrest] at hhead
        simpa using hhead
      rw [hrest] at hread
      exact absurd (congrArg Prod.fst hread) (chunkText_ne_nil hstar rest)

/-- A pattern is read to its end, wherever the match fails. -/
theorem matchesFrom?_eq (fuel : Nat) (text name : Bytes) :
    matchesFrom? fuel text name = (chunks? fuel text).map (accepts · name) := by
  induction fuel generalizing text name with
  | zero => cases text <;> rfl
  | succ fuel ih =>
      cases text with
      | nil => rfl
      | cons b rest =>
          rw [matchesFrom?, chunks?_succ]
          rcases hscan : scanChunk (b :: rest) with ⟨star, chunk, tail⟩
          simp only [matchChunk?_eq, isWellFormed_eq]
          by_cases hlast : (star && chunk.isEmpty) = true
          · obtain ⟨rfl, hchunk⟩ := Bool.and_eq_true_iff.mp hlast
            obtain rfl := List.isEmpty_iff.mp hchunk
            obtain rfl := scanChunk_nil hscan
            rw [if_pos hlast, List.length_nil, pieces?, Option.bind_some, chunks?]
            rfl
          · rw [if_neg hlast]
            cases hread : pieces? chunk.length chunk with
            | none => rfl
            | some pieces =>
                rw [← isEmpty_of_pieces? hread] at hlast
                simp only [Option.map_some, Option.bind_eq_bind, Option.bind_some]
                cases hmore : chunks? fuel tail with
                | none =>
                    cases Chunk.pass? tail.isEmpty ⟨star, pieces⟩ name with
                    | none => rfl
                    | some left => exact (ih tail left).trans (by rw [hmore]; rfl)
                | some more =>
                    simp only [Option.map_some, accepts, isEmpty_of_chunks? hmore]
                    rw [if_neg hlast]
                    cases Chunk.pass? tail.isEmpty ⟨star, pieces⟩ name with
                    | none => rfl
                    | some left => exact (ih tail left).trans (by rw [hmore]; rfl)

/-- A pattern matches the names that it accepts when it is read first. -/
theorem matches?_eq (pattern name : Bytes) :
    matches? pattern name = (parse? pattern).map (accepts · name) :=
  matchesFrom?_eq pattern.length pattern name

theorem matches?_eq_none_iff {pattern name : Bytes} :
    matches? pattern name = none ↔ parse? pattern = none := by
  rw [matches?_eq, Option.map_eq_none_iff]

end RetryWeave.Glob
