import Mathlib
import RetryWeave.Proofs.Text.Pieces
import RetryWeave.Proofs.Text.Runes
import RetryWeave.Syntax.Lexer
import RetryWeave.Text.Quoted

/-! # Quoted texts

A quoted text is read back byte for byte, and it is one string literal wherever it stands: it consists
of printable characters, and only its last byte ends it. -/

namespace RetryWeave

/-! ## Encoded characters -/

namespace Rune

theorem isTail_iff {b : UInt8} : isTail b = true ↔ 128 ≤ b.toNat ∧ b.toNat ≤ 191 := by
  simp only [isTail, UInt8.le_iff_toNat_le, Bool.and_eq_true, decide_eq_true_eq, UInt8.reduceToNat]

theorem isSecondOfThree_iff {a b : UInt8} : isSecondOfThree a b = true ↔
    128 ≤ b.toNat ∧ b.toNat ≤ 191 ∧ (a.toNat = 224 → 160 ≤ b.toNat) ∧
      (a.toNat = 237 → b.toNat ≤ 159) := by
  simp only [isSecondOfThree, beq_iff_eq, ← UInt8.toNat_inj, UInt8.reduceToNat]
  split
  · simp only [UInt8.le_iff_toNat_le, Bool.and_eq_true, decide_eq_true_eq, UInt8.reduceToNat]
    omega
  · split
    · simp only [UInt8.le_iff_toNat_le, Bool.and_eq_true, decide_eq_true_eq, UInt8.reduceToNat]
      omega
    · rw [isTail_iff]
      omega

theorem isSecondOfFour_iff {a b : UInt8} : isSecondOfFour a b = true ↔
    128 ≤ b.toNat ∧ b.toNat ≤ 191 ∧ (a.toNat = 240 → 144 ≤ b.toNat) ∧
      (a.toNat = 244 → b.toNat ≤ 143) := by
  simp only [isSecondOfFour, beq_iff_eq, ← UInt8.toNat_inj, UInt8.reduceToNat]
  split
  · simp only [UInt8.le_iff_toNat_le, Bool.and_eq_true, decide_eq_true_eq, UInt8.reduceToNat]
    omega
  · split
    · simp only [UInt8.le_iff_toNat_le, Bool.and_eq_true, decide_eq_true_eq, UInt8.reduceToNat]
      omega
    · rw [isTail_iff]
      omega

/-- An encoded character is read back, whatever stands after it. The cases are the numbers of bytes
that characters take. -/
theorem first_of_ofChar {c : Char} {a : UInt8} {tail : Bytes} (h : Bytes.ofChar c = a :: tail)
    (rest : Bytes) : first a (tail ++ rest) = ⟨c, a :: tail⟩ := by
  -- surrogates are no characters, so the second byte is never one that `first` refuses
  have hvalid : c.val.toNat < 0xD800 ∨ 0xDFFF < c.val.toNat ∧ c.val.toNat < 0x110000 := c.valid
  have hchar : Char.ofNat c.val.toNat = c := Char.ofNat_toNat c
  generalize hv : c.val.toNat = v at hvalid hchar
  simp only [Bytes.ofChar, String.utf8EncodeChar, hv] at h
  split at h
  · obtain ⟨rfl, rfl⟩ := List.cons.inj h
    have hmod : v % 2 ^ 8 = v := Nat.mod_eq_of_lt (by omega)
    simp only [first, UInt8.lt_iff_toNat_lt, UInt8.reduceToNat, UInt8.toNat_ofNat', hmod]
    rw [if_pos (by omega), hchar]
  · split at h
    · obtain ⟨rfl, rfl⟩ := List.cons.inj h
      simp only [first, isTail_iff, UInt8.lt_iff_toNat_lt, UInt8.le_iff_toNat_le,
        UInt8.reduceToNat, UInt8.toNat_ofNat', List.cons_append, List.nil_append,
        Bool.and_eq_true, decide_eq_true_eq]
      rw [if_neg (by omega), if_pos (by omega), if_pos (by omega)]
      congr 1
      rw [← hchar]
      congr 1
      omega
    · split at h
      · obtain ⟨rfl, rfl⟩ := List.cons.inj h
        simp only [first, isTail_iff, isSecondOfThree_iff, UInt8.lt_iff_toNat_lt,
          UInt8.le_iff_toNat_le, UInt8.reduceToNat, UInt8.toNat_ofNat', List.cons_append,
          List.nil_append, Bool.and_eq_true, decide_eq_true_eq]
        rw [if_neg (by omega), if_neg (by omega), if_pos (by omega), if_pos (by omega)]
        congr 1
        rw [← hchar]
        congr 1
        omega
      · obtain ⟨rfl, rfl⟩ := List.cons.inj h
        simp only [first, isTail_iff, isSecondOfFour_iff, UInt8.lt_iff_toNat_lt,
          UInt8.le_iff_toNat_le, UInt8.reduceToNat, UInt8.toNat_ofNat', List.cons_append,
          List.nil_append, Bool.and_eq_true, decide_eq_true_eq]
        rw [if_neg (by omega), if_neg (by omega), if_neg (by omega), if_pos (by omega),
          if_pos (by omega)]
        congr 1
        rw [← hchar]
        congr 1
        omega

end Rune

namespace Bytes

theorem ofChar_of_lt {c : Char} (h : c.toNat < 128) : ofChar c = [c.toNat.toUInt8] := by
  have hle : c.val.toNat ≤ 0x7f := Nat.le_of_lt_succ h
  rw [ofChar, String.utf8EncodeChar, if_pos hle]
  rfl

theorem exists_cons_ofChar (c : Char) : ∃ a tail, ofChar c = a :: tail :=
  List.exists_cons_of_ne_nil String.utf8EncodeChar_ne_nil

theorem le_of_mem_ofChar {c : Char} (h : 128 ≤ c.toNat) {b : UInt8} (hb : b ∈ ofChar c) :
    128 ≤ b.toNat := by
  change 128 ≤ c.val.toNat at h
  simp only [ofChar, String.utf8EncodeChar] at hb
  split at hb
  · omega
  · have hbyte : ∀ n, 128 ≤ n → n < 256 → 128 ≤ (UInt8.ofNat n).toNat := by
      intro n hn hlt
      rw [UInt8.toNat_ofNat', Nat.mod_eq_of_lt (by omega)]
      exact hn
    split at hb
    · simp only [List.mem_cons, List.not_mem_nil, or_false] at hb
      rcases hb with rfl | rfl <;> exact hbyte _ (by omega) (by omega)
    · split at hb
      · simp only [List.mem_cons, List.not_mem_nil, or_false] at hb
        rcases hb with rfl | rfl | rfl <;> exact hbyte _ (by omega) (by omega)
      · simp only [List.mem_cons, List.not_mem_nil, or_false] at hb
        rcases hb with rfl | rfl | rfl | rfl <;> exact hbyte _ (by omega) (by omega)

theorem runesFrom_append_length (skipped rest : Bytes) :
    runesFrom skipped.length (skipped ++ rest) = runes rest := by
  induction skipped with
  | nil => rfl
  | cons b skipped ih => exact ih

theorem runes_ofChar_append (c : Char) (rest : Bytes) :
    (ofChar c ++ rest).runes = ⟨c, ofChar c⟩ :: rest.runes := by
  obtain ⟨a, tail, htail⟩ := exists_cons_ofChar c
  have hfirst := Rune.first_of_ofChar htail rest
  rw [htail, List.cons_append, runes, runesFrom, hfirst]
  exact congrArg _ (runesFrom_append_length tail rest)

/-- Encoded characters are read one by one. -/
theorem runes_ofChars (cs : List Char) : (ofChars cs).runes = cs.map fun c => ⟨c, ofChar c⟩ := by
  induction cs with
  | nil => rfl
  | cons c cs ih => rw [ofChars, List.flatMap_cons, runes_ofChar_append, List.map_cons, ← ih, ofChars]

end Bytes

namespace Quoted

open Syntax

/-! ## Hexadecimal digits -/

theorem length_hexDigits (width n : Nat) : (hexDigits width n).length = width := by
  induction width generalizing n with
  | zero => rfl
  | succ width ih => rw [hexDigits, List.length_append, ih, List.length_singleton]

theorem digitValue_hexDigit {d : Nat} (h : d < 16) : Ascii.digitValue (hexDigit d) = d := by
  have hall : ∀ d < 16, Ascii.digitValue (hexDigit d) = d := by decide
  exact hall d h

theorem exists_of_mem_hexDigits {width n : Nat} {b : UInt8} (h : b ∈ hexDigits width n) :
    ∃ d < 16, hexDigit d = b := by
  induction width generalizing n with
  | zero => cases h
  | succ width ih =>
      rw [hexDigits, List.mem_append, List.mem_singleton] at h
      rcases h with h | rfl
      · exact ih h
      · exact ⟨n % 16, Nat.mod_lt n (by decide), rfl⟩

theorem isHexDigit_of_mem_hexDigits {width n : Nat} :
    ∀ b ∈ hexDigits width n, Ascii.isHexDigit b = true := by
  have hdigit : ∀ d < 16, Ascii.isHexDigit (hexDigit d) = true := by decide
  intro b hb
  obtain ⟨d, hd, rfl⟩ := exists_of_mem_hexDigits hb
  exact hdigit d hd

theorem foldl_hexDigits (width n : Nat) :
    (hexDigits width n).foldl (fun value b => value * 16 + Ascii.digitValue b) 0 = n % 16 ^ width := by
  induction width generalizing n with
  | zero => rw [Nat.pow_zero, Nat.mod_one]; rfl
  | succ width ih =>
      rw [hexDigits, List.foldl_append, ih]
      simp only [List.foldl_cons, List.foldl_nil, digitValue_hexDigit (Nat.mod_lt n (by decide : 0 < 16))]
      rw [Nat.pow_succ', Nat.mod_mul, Nat.mul_comm, Nat.add_comm]

theorem hexValue?_hexDigits {width n : Nat} (h : n < 16 ^ width) :
    hexValue? (hexDigits width n) = some n := by
  rw [hexValue?, if_pos (List.all_eq_true.mpr isHexDigit_of_mem_hexDigits), foldl_hexDigits,
    Nat.mod_eq_of_lt h]

/-! ## Reading the inside of a literal -/

theorem unescape_cons {delim b : UInt8} (hdelim : b ≠ delim) (hnewline : b ≠ Ascii.newline)
    (hslash : b ≠ Ascii.backslash) (rest : Bytes) :
    unescape delim (b :: rest) = (unescape delim rest).map (b :: ·) := by
  rw [unescape]
  · simp [hdelim, hnewline, hslash]
  · exact fun _ _ _ h => absurd h hslash
  · exact fun _ _ _ _ _ h => absurd h hslash
  · exact fun _ _ _ _ _ _ _ _ _ h => absurd h hslash
  · exact fun _ _ h => absurd h hslash

/-- The letter after a backslash, where no digits follow it. -/
theorem unescape_letter {delim a : UInt8} (hletter : a ≠ 120 ∧ a ≠ 117 ∧ a ≠ 85)
    (hoctal : Ascii.isOctalDigit a = false) (rest : Bytes) :
    unescape delim (Ascii.backslash :: a :: rest) =
      if a = delim then (unescape delim rest).map (a :: ·)
      else (simpleEscape? a).bind fun b => (unescape delim rest).map (b :: ·) := by
  rw [unescape.eq_def]
  split
  · contradiction
  · rename_i heq
    exact absurd (List.cons.inj (List.cons.inj heq).2).1 hletter.1
  · rename_i heq
    exact absurd (List.cons.inj (List.cons.inj heq).2).1 hletter.2.1
  · rename_i heq
    exact absurd (List.cons.inj (List.cons.inj heq).2).1 hletter.2.2
  · rename_i heq
    obtain ⟨rfl, rfl⟩ := List.cons.inj (List.cons.inj heq).2
    rw [hoctal]
    simp [Option.map_eq_bind]
  · rename_i h heq
    obtain ⟨rfl, rfl⟩ := List.cons.inj heq
    exact absurd rfl (h _ _ rfl)

theorem unescape_byte {delim : UInt8} {digits : Bytes} {n : Nat} (hlength : digits.length = 2)
    (hvalue : hexValue? digits = some n) (rest : Bytes) :
    unescape delim (Ascii.backslash :: 120 :: (digits ++ rest)) =
      (unescape delim rest).map (n.toUInt8 :: ·) := by
  obtain ⟨a, b, rfl⟩ : ∃ a b, digits = [a, b] := by
    match digits with
    | [a, b] => exact ⟨a, b, rfl⟩
  refine (unescape.eq_2 delim a b rest).trans ?_
  simp [hvalue, Option.map_eq_bind]

theorem unescape_short {delim : UInt8} {digits char : Bytes} {n : Nat} (hlength : digits.length = 4)
    (hvalue : hexValue? digits = some n) (hchar : codePoint? n = some char) (rest : Bytes) :
    unescape delim (Ascii.backslash :: 117 :: (digits ++ rest)) =
      (unescape delim rest).map (char ++ ·) := by
  obtain ⟨a, b, c, d, rfl⟩ : ∃ a b c d, digits = [a, b, c, d] := by
    match digits with
    | [a, b, c, d] => exact ⟨a, b, c, d, rfl⟩
  refine (unescape.eq_3 delim a b c d rest).trans ?_
  simp [hvalue, hchar, Option.map_eq_bind]

theorem unescape_long {delim : UInt8} {digits char : Bytes} {n : Nat} (hlength : digits.length = 8)
    (hvalue : hexValue? digits = some n) (hchar : codePoint? n = some char) (rest : Bytes) :
    unescape delim (Ascii.backslash :: 85 :: (digits ++ rest)) =
      (unescape delim rest).map (char ++ ·) := by
  obtain ⟨a, b, c, d, e, f, g, h, rfl⟩ : ∃ a b c d e f g h, digits = [a, b, c, d, e, f, g, h] := by
    match digits with
    | [a, b, c, d, e, f, g, h] => exact ⟨a, b, c, d, e, f, g, h, rfl⟩
  refine (unescape.eq_4 delim a b c d e f g h rest).trans ?_
  simp [hvalue, hchar, Option.map_eq_bind]

theorem codePoint?_toNat (c : Char) : codePoint? c.toNat = some (Bytes.ofChar c) := by
  have hvalid : c.toNat < 0xD800 ∨ 0xDFFF < c.toNat ∧ c.toNat < 0x110000 := c.valid
  rw [codePoint?, if_pos (by simp; omega), Char.ofNat_toNat]

/-! ## What readers make of a piece of a quoted text -/

/-- Printable characters in UTF-8. -/
def Printable (text : Bytes) : Prop :=
  ∃ cs : List Char, text = Bytes.ofChars cs ∧ ∀ c ∈ cs, Unicode.isPrintable c = true

/-- A piece inside of a quoted text that stands for some bytes, whatever follows. -/
structure Spells (piece value : Bytes) : Prop where
  printable : Printable piece
  unescape_append : ∀ rest,
    unescape Ascii.quote (piece ++ rest) = (unescape Ascii.quote rest).map (value ++ ·)
  quotedLength?_append : ∃ count, ∀ rest, quotedLength? Ascii.quote 0 (piece ++ rest) =
    (quotedLength? Ascii.quote 0 rest).map fun (n, chars) => (piece.length + n, count + chars)

theorem Printable.append {a b : Bytes} (ha : Printable a) (hb : Printable b) : Printable (a ++ b) := by
  obtain ⟨cs, rfl, hcs⟩ := ha
  obtain ⟨ds, rfl, hds⟩ := hb
  refine ⟨cs ++ ds, (List.flatMap_append).symm, ?_⟩
  intro c hc
  exact (List.mem_append.mp hc).elim (hcs c) (hds c)

theorem Spells.nil : Spells [] [] where
  printable := ⟨[], rfl, nofun⟩
  unescape_append rest := by simp
  quotedLength?_append := ⟨0, fun rest => by simp⟩

theorem Spells.append {a b v w : Bytes} (ha : Spells a v) (hb : Spells b w) : Spells (a ++ b) (v ++ w) where
  printable := ha.printable.append hb.printable
  unescape_append rest := by
    rw [List.append_assoc, ha.unescape_append, hb.unescape_append, Option.map_map]
    simp only [Function.comp_def, List.append_assoc]
  quotedLength?_append := by
    obtain ⟨m, hm⟩ := ha.quotedLength?_append
    obtain ⟨n, hn⟩ := hb.quotedLength?_append
    refine ⟨m + n, fun rest => ?_⟩
    rw [List.append_assoc, hm, hn, Option.map_map]
    simp only [Function.comp_def, List.length_append, Nat.add_assoc]

theorem Spells.flatMap {α : Type} {piece value : α → Bytes} (parts : List α)
    (h : ∀ x ∈ parts, Spells (piece x) (value x)) :
    Spells (parts.flatMap piece) (parts.flatMap value) := by
  induction parts with
  | nil => exact .nil
  | cons x parts ih =>
      rw [List.flatMap_cons, List.flatMap_cons]
      exact (h x (by simp)).append (ih fun y hy => h y (by simp [hy]))

theorem quotedLength?_append_length (delim : UInt8) (skipped rest : Bytes) :
    quotedLength? delim skipped.length (skipped ++ rest) =
      (quotedLength? delim 0 rest).map fun (n, chars) => (skipped.length + n, chars) := by
  induction skipped with
  | nil => simp
  | cons b skipped ih =>
      rw [List.length_cons, List.cons_append, quotedLength?, ih, Option.map_map]
      congr 1
      funext p
      simp only [Function.comp_apply, Nat.add_right_comm]

/-! ## The pieces of a quoted text -/

theorem printable_of_ascii {text : Bytes} (h : ∀ b ∈ text, 32 ≤ b.toNat ∧ b.toNat < 127) :
    Printable text := by
  have hbyte : ∀ b : UInt8, 32 ≤ b.toNat ∧ b.toNat < 127 →
      Bytes.ofChar (Char.ofNat b.toNat) = [b] ∧ Unicode.isPrintable (Char.ofNat b.toNat) = true :=
    Ascii.forall_byte (by decide +kernel)
  refine ⟨text.map fun b => Char.ofNat b.toNat, ?_, ?_⟩
  · induction text with
    | nil => rfl
    | cons b text ih =>
        simp only [List.mem_cons, forall_eq_or_imp] at h
        rw [List.map_cons, Bytes.ofChars, List.flatMap_cons, (hbyte b h.1).1, ← Bytes.ofChars, ← ih h.2]
        rfl
  · intro c hc
    obtain ⟨b, hb, rfl⟩ := List.mem_map.mp hc
    exact (hbyte b (h b hb)).2

/-- An escape stands for some bytes if the readers say so for what follows its backslash. -/
theorem spells_escape {body value : Bytes} (hbody : ∀ b ∈ body, 32 ≤ b.toNat ∧ b.toNat < 127)
    (hvalue : ∀ rest, unescape Ascii.quote (Ascii.backslash :: (body ++ rest)) =
      (unescape Ascii.quote rest).map (value ++ ·))
    (hlength : ∀ rest, escapeLength? Ascii.quote (body ++ rest) = some body.length) :
    Spells (Ascii.backslash :: body) value where
  printable := printable_of_ascii (by
    intro b hb
    rcases List.mem_cons.mp hb with rfl | hb
    · decide
    · exact hbody b hb)
  unescape_append := hvalue
  quotedLength?_append := by
    refine ⟨1, fun rest => ?_⟩
    have hslash : Ascii.backslash ≠ Ascii.quote ∧ Ascii.backslash ≠ Ascii.newline := by decide
    rw [List.cons_append, quotedLength?, if_neg hslash.1, if_neg hslash.2, if_pos rfl, hlength]
    simp only [Option.bind_eq_bind, Option.bind_some, quotedLength?_append_length]
    cases quotedLength? Ascii.quote 0 rest with
    | none => rfl
    | some p =>
        simp only [Option.map_some, Option.bind_some, Option.pure_def, List.length_cons, Option.some.injEq, Prod.mk.injEq]
        omega

/-- The letters after a backslash that stand for one byte. -/
def letters : List (UInt8 × UInt8) :=
  [(34, 34), (92, 92), (97, 7), (98, 8), (116, 9), (110, 10), (118, 11), (102, 12), (114, 13)]

theorem spells_letter {letter value : UInt8} (h : (letter, value) ∈ letters) :
    Spells [Ascii.backslash, letter] [value] := by
  have hread : ∀ p ∈ letters, (32 ≤ p.1.toNat ∧ p.1.toNat < 127) ∧
      (p.1 ≠ 120 ∧ p.1 ≠ 117 ∧ p.1 ≠ 85) ∧ Ascii.isOctalDigit p.1 = false ∧
      (if p.1 = Ascii.quote then some p.1 else simpleEscape? p.1) = some p.2 := by
    intro p hp
    simp only [letters, List.mem_cons, List.not_mem_nil, or_false] at hp
    rcases hp with rfl | rfl | rfl | rfl | rfl | rfl | rfl | rfl | rfl
    all_goals decide
  have hone : ∀ p ∈ letters, ∀ rest, escapeLength? Ascii.quote (p.1 :: rest) = some 1 := by
    simp [letters, escapeLength?]
  obtain ⟨hascii, hletter, hoctal, hvalue⟩ := hread _ h
  apply spells_escape
  · simpa using hascii
  · intro rest
    rw [List.singleton_append, unescape_letter hletter hoctal]
    split at hvalue
    · rename_i heq
      obtain rfl : letter = value := Option.some.inj hvalue
      rw [if_pos heq]
      rfl
    · rename_i hne
      rw [if_neg hne, hvalue]
      rfl
  · intro rest
    rw [List.singleton_append, List.length_singleton]
    exact hone (letter, value) h rest

theorem digitValue_lt_of_mem_hexDigits {width n : Nat} :
    ∀ b ∈ hexDigits width n, Ascii.digitValue b < 16 := by
  intro b hb
  obtain ⟨d, hd, rfl⟩ := exists_of_mem_hexDigits hb
  rw [digitValue_hexDigit hd]
  exact hd

theorem escapeLength?_hex {b : UInt8} {width n : Nat}
    (hb : (b, width) ∈ [((120 : UInt8), 2), (117, 4), (85, 8)])
    (hn : n < 16 ^ width) (hchar : n < 0xD800 ∨ 0xDFFF < n ∧ n < 0x110000)
    (rest : Bytes) :
    escapeLength? Ascii.quote (b :: (hexDigits width n ++ rest)) = some (width + 1) := by
  obtain ⟨values, hvalues⟩ : ∃ values,
      ((hexDigits width n ++ rest).take width).map Ascii.digitValue = values := ⟨_, rfl⟩
  have htake : (hexDigits width n ++ rest).take width = hexDigits width n := by
    simp [length_hexDigits]
  have hlength : values.length = width := by
    rw [← hvalues, htake, List.length_map, length_hexDigits]
  have hbase : ∀ d ∈ values, d < 16 := by
    rw [← hvalues, htake, List.forall_mem_map]
    exact digitValue_lt_of_mem_hexDigits
  have hfold : values.foldl (fun n d => n * 16 + d) 0 = n := by
    rw [← hvalues, htake, List.foldl_map, foldl_hexDigits, Nat.mod_eq_of_lt hn]
  have hdigits : ∀ limit, n ≤ limit → (values.length == width && values.all (· < 16) && n ≤ limit &&
      !(0xD800 ≤ n && n < 0xE000)) = true := by
    intro limit hlimit
    simp only [hlength, beq_self_eq_true, Bool.true_and, Bool.and_eq_true, List.all_eq_true,
      decide_eq_true_eq, Bool.not_eq_true', Bool.and_eq_false_iff, decide_eq_false_iff_not]
    exact ⟨⟨hbase, hlimit⟩, by omega⟩
  simp only [List.mem_cons, Prod.mk.injEq, List.not_mem_nil, or_false] at hb
  rcases hb with ⟨rfl, rfl⟩ | ⟨rfl, rfl⟩ | ⟨rfl, rfl⟩
  · simp only [escapeLength?, hvalues, hfold]
    rw [if_neg (by decide), if_neg (by decide), if_pos (by decide), if_pos (hdigits 255 (by omega))]
  · simp only [escapeLength?, hvalues, hfold]
    rw [if_neg (by decide), if_neg (by decide), if_neg (by decide), if_pos (by decide),
      if_pos (hdigits 0x10FFFF (by omega))]
  · simp only [escapeLength?, hvalues, hfold]
    rw [if_neg (by decide), if_neg (by decide), if_neg (by decide), if_neg (by decide),
      if_pos (by decide), if_pos (hdigits 0x10FFFF (by omega))]

/-- Digits of a fixed number stand for what the reader takes them for. -/
theorem spells_hex {letter : UInt8} {width n : Nat} {value : Bytes}
    (hletter : (letter, width) ∈ [((120 : UInt8), 2), (117, 4), (85, 8)]) (hn : n < 16 ^ width)
    (hchar : n < 0xD800 ∨ 0xDFFF < n ∧ n < 0x110000)
    (hvalue : ∀ rest, unescape Ascii.quote (Ascii.backslash :: letter :: (hexDigits width n ++ rest)) =
      (unescape Ascii.quote rest).map (value ++ ·)) :
    Spells ([Ascii.backslash, letter] ++ hexDigits width n) value := by
  have hletters : ∀ p ∈ [((120 : UInt8), 2), (117, 4), (85, 8)], 32 ≤ p.1.toNat ∧ p.1.toNat < 127 := by
    decide
  have hdigit : ∀ b : UInt8, Ascii.isHexDigit b = true → 32 ≤ b.toNat ∧ b.toNat < 127 :=
    Ascii.forall_byte (by decide +kernel)
  have hbody : ∀ b ∈ letter :: hexDigits width n, 32 ≤ b.toNat ∧ b.toNat < 127 := by
    intro b hb
    rcases List.mem_cons.mp hb with rfl | hb
    · exact hletters _ hletter
    · exact hdigit b (isHexDigit_of_mem_hexDigits b hb)
  have hlength : ∀ rest, escapeLength? Ascii.quote (letter :: (hexDigits width n ++ rest)) =
      some (letter :: hexDigits width n).length := by
    intro rest
    rw [List.length_cons, length_hexDigits]
    exact escapeLength?_hex hletter hn hchar rest
  exact spells_escape hbody hvalue hlength

theorem spells_byte {n : Nat} (h : n < 256) :
    Spells ([Ascii.backslash, 120] ++ hexDigits 2 n) [n.toUInt8] :=
  spells_hex (by decide) h (by omega)
    (unescape_byte (length_hexDigits 2 n) (hexValue?_hexDigits h))

theorem spells_short {c : Char} (h : c.toNat < 0x10000) :
    Spells ([Ascii.backslash, 117] ++ hexDigits 4 c.toNat) (Bytes.ofChar c) :=
  spells_hex (by decide) h c.valid
    (unescape_short (length_hexDigits 4 _) (hexValue?_hexDigits h) (codePoint?_toNat c))

theorem spells_long (c : Char) :
    Spells ([Ascii.backslash, 85] ++ hexDigits 8 c.toNat) (Bytes.ofChar c) := by
  have hvalid : c.toNat < 0xD800 ∨ 0xDFFF < c.toNat ∧ c.toNat < 0x110000 := c.valid
  have hwide : c.toNat < 16 ^ 8 := by omega
  exact spells_hex (by decide) hwide hvalid
    (unescape_long (length_hexDigits 8 _) (hexValue?_hexDigits hwide) (codePoint?_toNat c))

theorem unescape_append {delim : UInt8} {text : Bytes}
    (h : ∀ b ∈ text, b ≠ delim ∧ b ≠ Ascii.newline ∧ b ≠ Ascii.backslash) (rest : Bytes) :
    unescape delim (text ++ rest) = (unescape delim rest).map (text ++ ·) := by
  induction text with
  | nil => simp
  | cons b text ih =>
      simp only [List.mem_cons, forall_eq_or_imp] at h
      rw [List.cons_append, unescape_cons h.1.1 h.1.2.1 h.1.2.2, ih h.2, Option.map_map]
      rfl

/-- A printable character stands for itself if it ends no literal and begins no escape. -/
theorem spells_char {c : Char} (h : Unicode.isPrintable c = true) (hquote : c.toNat ≠ 34)
    (hslash : c.toNat ≠ 92) : Spells (Bytes.ofChar c) (Bytes.ofChar c) := by
  have hplain : ∀ b ∈ Bytes.ofChar c,
      b ≠ Ascii.quote ∧ b ≠ Ascii.newline ∧ b ≠ Ascii.backslash := by
    intro b hb
    suffices b.toNat ≠ 34 ∧ b.toNat ≠ 10 ∧ b.toNat ≠ 92 by
      simp only [Ne, ← UInt8.toNat_inj]
      exact this
    by_cases hlow : c.toNat < 128
    · rw [Unicode.isPrintable, if_pos hlow, Bool.and_eq_true, decide_eq_true_eq, decide_eq_true_eq] at h
      rw [Bytes.ofChar_of_lt hlow, List.mem_singleton] at hb
      have hbyte : b.toNat = c.toNat := by
        rw [hb, Nat.toUInt8_eq, UInt8.toNat_ofNat', Nat.mod_eq_of_lt (by omega)]
      omega
    · have hhigh := Bytes.le_of_mem_ofChar (Nat.le_of_not_lt hlow) hb
      omega
  refine ⟨⟨[c], by simp [Bytes.ofChars], by simpa using h⟩, unescape_append hplain, 1, fun rest => ?_⟩
  obtain ⟨a, tail, htail⟩ := Bytes.exists_cons_ofChar c
  obtain ⟨hdelim, hnewline, hescape⟩ := hplain a (by simp [htail])
  rw [htail, List.cons_append, quotedLength?, if_neg hdelim, if_neg hnewline, if_neg hescape,
    Rune.first_of_ofChar htail]
  simp only [Option.bind_eq_bind, Option.bind_some, List.length_cons, Nat.add_sub_cancel, quotedLength?_append_length]
  cases quotedLength? Ascii.quote 0 rest with
  | none => rfl
  | some p =>
      simp only [Option.map_some, Option.bind_some, Option.pure_def, Option.some.injEq, Prod.mk.injEq]
      omega

/-! ## Quoted texts -/

theorem controlLetter?_mem_letters {n : Nat} {letter : UInt8} (h : controlLetter? n = some letter) :
    n < 128 ∧ (letter, n.toUInt8) ∈ letters := by
  unfold controlLetter? at h
  split at h
  case h_8 => cases h
  all_goals
    obtain rfl := Option.some.inj h
    decide

theorem spells_escapeChar (c : Char) : Spells (escapeChar c) (Bytes.ofChar c) := by
  simp only [escapeChar, Bool.or_eq_true, decide_eq_true_eq]
  split
  · rename_i hself
    rw [Bytes.ofChar_of_lt (by omega)]
    apply spells_letter
    rcases hself with h | h <;> rw [h] <;> decide
  · rename_i hself
    split
    · rename_i hprintable
      exact spells_char hprintable (by omega) (by omega)
    · split
      · rename_i hletter
        obtain ⟨hlow, hmem⟩ := controlLetter?_mem_letters hletter
        rw [Bytes.ofChar_of_lt hlow]
        exact spells_letter hmem
      · split
        · rename_i hcontrol
          rw [Bytes.ofChar_of_lt (by omega)]
          exact spells_byte (by omega)
        · split
          · rename_i hshort
            exact spells_short hshort
          · exact spells_long c

theorem spells_escapeRune (r : Rune) : Spells (escapeRune r) r.raw := by
  unfold escapeRune
  split
  · rename_i hvalid
    rw [← eq_of_beq hvalid]
    exact spells_escapeChar r.char
  · have hbyte : ∀ b ∈ r.raw, Spells ([Ascii.backslash, 120] ++ hexDigits 2 b.toNat) [b] :=
      fun b _ => by simpa using spells_byte b.toNat_lt
    have hbytes := Spells.flatMap r.raw hbyte
    rwa [List.flatMap_singleton'] at hbytes

theorem spells_runes (text : Bytes) : Spells (text.runes.flatMap escapeRune) text := by
  have hpieces := Spells.flatMap text.runes fun r _ => spells_escapeRune r
  have hwhole : text.runes.flatMap (·.raw) = text := Bytes.ofRunes_runesFrom 0 text
  rwa [hwhole] at hpieces

theorem quote_eq (text : Bytes) :
    quote text = Ascii.quote :: (text.runes.flatMap escapeRune ++ [Ascii.quote]) := rfl

/-- The value of a quoted text is the text. -/
theorem unquote?_cons (rest : Bytes) :
    unquote? (Ascii.quote :: rest) =
      (Bytes.stripEnd? [Ascii.quote] rest).bind (unescape Ascii.quote) := by
  unfold unquote?
  split
  · rename_i heq
    exact absurd (List.cons.inj heq).1 (by decide)
  · rename_i heq
    obtain rfl := (List.cons.inj heq).2
    cases Bytes.stripEnd? [Ascii.quote] rest <;> rfl
  · rename_i hquote
    exact absurd rfl (hquote rest)

theorem unquote?_quote (text : Bytes) : unquote? (quote text) = some text := by
  have hstrip : Bytes.stripEnd? [Ascii.quote] (text.runes.flatMap escapeRune ++ [Ascii.quote]) =
      some (text.runes.flatMap escapeRune) := Bytes.stripEnd?_eq_some_iff.mpr rfl
  have hread := (spells_runes text).unescape_append []
  rw [List.append_nil, unescape, Option.map_some, List.append_nil] at hread
  rw [quote_eq, unquote?_cons, hstrip]
  exact hread

theorem quote_injective : Function.Injective quote := by
  intro a b h
  have hvalue := unquote?_quote a
  rw [h, unquote?_quote] at hvalue
  exact (Option.some.inj hvalue).symm

/-- A quoted text is UTF-8 of printable characters. -/
theorem printable_quote (text : Bytes) : Printable (quote text) := by
  have hmark : Printable [Ascii.quote] :=
    printable_of_ascii (List.forall_mem_singleton.mpr (by decide))
  exact (hmark.append (spells_runes text).printable).append hmark

theorem Printable.runes {text : Bytes} (h : Printable text) :
    ∀ r ∈ text.runes, r.isValid = true ∧ Unicode.isPrintable r.char = true := by
  obtain ⟨cs, rfl, hcs⟩ := h
  rw [Bytes.runes_ofChars]
  intro r hr
  obtain ⟨c, hc, rfl⟩ := List.mem_map.mp hr
  exact ⟨beq_self_eq_true _, hcs c hc⟩

theorem Printable.newline_notMem {text : Bytes} (h : Printable text) : Ascii.newline ∉ text := by
  obtain ⟨cs, rfl, hcs⟩ := h
  intro hmem
  obtain ⟨c, hc, hbyte⟩ := List.mem_flatMap.mp hmem
  have hprintable := hcs c hc
  by_cases hlow : c.toNat < 128
  · rw [Unicode.isPrintable, if_pos hlow, Bool.and_eq_true, decide_eq_true_eq] at hprintable
    rw [Bytes.ofChar_of_lt hlow, List.mem_singleton, ← UInt8.toNat_inj, Nat.toUInt8_eq,
      UInt8.toNat_ofNat', Nat.mod_eq_of_lt (by omega)] at hbyte
    exact absurd (hbyte ▸ hprintable.1) (by decide)
  · exact absurd (Bytes.le_of_mem_ofChar (Nat.le_of_not_lt hlow) hbyte) (by decide)

/-- A literal extends to the end of the quoted text, whatever follows it. -/
theorem quotedLength?_quote (text rest : Bytes) :
    ∃ count, quotedLength? Ascii.quote 0 ((quote text).tail ++ rest) =
      some ((quote text).tail.length, count) := by
  obtain ⟨count, hcount⟩ := (spells_runes text).quotedLength?_append
  refine ⟨count, ?_⟩
  rw [quote_eq, List.tail_cons, List.append_assoc, hcount, List.singleton_append, quotedLength?, if_pos rfl,
    List.length_append]
  rfl

end Quoted

/-- The lexer takes a quoted text for one string, whatever follows it. -/
theorem Syntax.LexState.step_quote (s : LexState) (name : Bytes) (size : Nat) (text rest : Bytes) :
    s.step name size Ascii.quote ((Quoted.quote text).tail ++ rest) =
      some (s.token .string (Quoted.quote text) (Quoted.quote text).length) := by
  obtain ⟨count, hcount⟩ := Quoted.quotedLength?_quote text rest
  have hletter : ¬ isIdentStart (Char.ofNat Ascii.quote.toNat) = true := by decide
  have hwhole : Ascii.quote :: ((Quoted.quote text).tail ++ rest) = Quoted.quote text ++ rest := rfl
  have hlength : (Quoted.quote text).tail.length + 1 = (Quoted.quote text).length := rfl
  simp only [step]
  rw [if_neg (by decide), if_neg (by decide), Rune.first_of_lt (by decide), if_neg hletter,
    if_neg (by exact Bool.false_ne_true), if_pos trivial, hcount, hwhole]
  simp only [Option.map_some, hlength, List.take_left]

namespace Quoted

open Syntax

/-- One string on one line of printable text, wherever it stands in a source. -/
structure StandsFor (literal value : Bytes) : Prop where
  unquoted : unquote? literal = some value
  printable : ∀ r ∈ literal.runes, r.isValid = true ∧ Unicode.isPrintable r.char = true
  newline_notMem : Ascii.newline ∉ literal
  starts_quoted : literal.head? = some Ascii.quote
  lexed : ∀ (s : LexState) (name : Bytes) (size : Nat) (rest : Bytes),
    s.step name size Ascii.quote (literal.tail ++ rest) =
      some (s.token .string literal literal.length)

theorem standsFor_quote (text : Bytes) : StandsFor (quote text) text where
  unquoted := unquote?_quote text
  printable := (printable_quote text).runes
  newline_notMem := (printable_quote text).newline_notMem
  starts_quoted := rfl
  lexed s name size rest := s.step_quote name size text rest

end Quoted

end RetryWeave
