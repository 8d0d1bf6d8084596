import RetryWeave.Syntax.Literal

/-! # Runes of joined texts

A text that reads without replacement characters is read the same whatever stands after it. -/

namespace RetryWeave

/-- A letter, an underscore or a digit of ASCII. -/
def Ascii.isWord (b : UInt8) : Bool := isLetter b || isDigit b

theorem Ascii.isWord_of_isLower_or_isUpper {b : UInt8} (h : (isLower b || isUpper b) = true) :
    isWord b = true := by
  rw [isWord, isLetter, h, Bool.true_or, Bool.true_or]

theorem Ascii.forall_byte {p : UInt8 → Prop} (h : ∀ n < 256, p (UInt8.ofNat n)) (b : UInt8) :
    p b := by
  have hb := h b.toNat b.toNat_lt
  rwa [UInt8.ofNat_toNat] at hb

namespace Rune

theorem first_of_lt {a : UInt8} (h : a < 0x80) (rest : Bytes) :
    first a rest = ⟨Char.ofNat a.toNat, [a]⟩ :=
  if_pos h

theorem isTail_of_isSecondOfThree {a b : UInt8} (h : isSecondOfThree a b = true) : isTail b = true := by
  grind [isSecondOfThree, isTail]

theorem isTail_of_isSecondOfFour {a b : UInt8} (h : isSecondOfFour a b = true) : isTail b = true := by
  grind [isSecondOfFour, isTail]

/-- The bytes are a sequence that is read as one character, whatever stands after it. -/
structure Complete (a : UInt8) (tail : Bytes) : Prop where
  isTail_of_mem : ∀ b ∈ tail, isTail b = true
  raw_first : (first a tail).raw = a :: tail
  first_append : ∀ more, first a (tail ++ more) = first a tail

/-- A text begins with a byte that stands for itself, or with a complete sequence. The cases are the
numbers of bytes that the first one asks for. -/
theorem first_cases (a : UInt8) (rest : Bytes) :
    first a rest = ⟨replacementChar, [a]⟩ ∨ ∃ tail more, rest = tail ++ more ∧ Complete a tail := by
  by_cases hone : a < 0x80
  · refine .inr ⟨[], rest, rfl, by simp, ?_, fun more => ?_⟩ <;> simp only [first, hone, if_true]
  by_cases htwo : (0xC2 ≤ a && a ≤ 0xDF) = true
  · cases rest with
    | nil => exact .inl (by simp only [first, if_neg hone, if_pos htwo])
    | cons b more =>
        by_cases hb : isTail b = true
        · refine .inr ⟨[b], more, rfl, by simpa using hb, ?_, fun more => ?_⟩ <;>
            simp only [first, List.cons_append, if_neg hone, if_pos htwo, if_pos hb]
        · exact .inl (by simp only [first, if_neg hone, if_pos htwo, if_neg hb])
  by_cases hthree : (0xE0 ≤ a && a ≤ 0xEF) = true
  · rcases rest with _ | ⟨b, _ | ⟨c, more⟩⟩
    · exact .inl (by simp only [first, if_neg hone, if_neg htwo, if_pos hthree])
    · exact .inl (by simp only [first, if_neg hone, if_neg htwo, if_pos hthree])
    · by_cases htail : (isSecondOfThree a b && isTail c) = true
      · have hmem : ∀ x ∈ [b, c], isTail x = true := by
          rw [Bool.and_eq_true] at htail
          simpa using ⟨isTail_of_isSecondOfThree htail.1, htail.2⟩
        refine .inr ⟨[b, c], more, rfl, hmem, ?_, fun more => ?_⟩ <;>
          simp only [first, List.cons_append, if_neg hone, if_neg htwo, if_pos hthree, if_pos htail]
      · exact .inl (by simp only [first, if_neg hone, if_neg htwo, if_pos hthree, if_neg htail])
  by_cases hfour : (0xF0 ≤ a && a ≤ 0xF4) = true
  · rcases rest with _ | ⟨b, _ | ⟨c, _ | ⟨d, more⟩⟩⟩
    · exact .inl (by simp only [first, if_neg hone, if_neg htwo, if_neg hthree, if_pos hfour])
    · exact .inl (by simp only [first, if_neg hone, if_neg htwo, if_neg hthree, if_pos hfour])
    · exact .inl (by simp only [first, if_neg hone, if_neg htwo, if_neg hthree, if_pos hfour])
    · by_cases htail : (isSecondOfFour a b && isTail c && isTail d) = true
      · have hmem : ∀ x ∈ [b, c, d], isTail x = true := by
          simp only [Bool.and_eq_true] at htail
          simpa using ⟨isTail_of_isSecondOfFour htail.1.1, htail.1.2, htail.2⟩
        refine .inr ⟨[b, c, d], more, rfl, hmem, ?_, fun more => ?_⟩ <;>
          simp only [first, List.cons_append, if_neg hone, if_neg htwo, if_neg hthree, if_pos hfour,
            if_pos htail]
      · exact .inl (by
          simp only [first, if_neg hone, if_neg htwo, if_neg hthree, if_pos hfour, if_neg htail])
  · exact .inl (by simp only [first, if_neg hone, if_neg htwo, if_neg hthree, if_neg hfour])

theorem length_raw_first_le (a : UInt8) (rest : Bytes) :
    (first a rest).raw.length ≤ rest.length + 1 := by
  rcases first_cases a rest with h | ⟨tail, more, rfl, h⟩
  · simp [h]
  · simp [h.first_append, h.raw_first]

/-- The bytes of the first rune are the first bytes. -/
theorem raw_first_eq (a : UInt8) (rest : Bytes) :
    (first a rest).raw = a :: rest.take ((first a rest).raw.length - 1) := by
  rcases first_cases a rest with h | ⟨tail, more, rfl, h⟩
  · simp [h]
  · simp [h.first_append, h.raw_first]

/-- A sequence that is complete does not grow. -/
theorem first_append {a : UInt8} {rest : Bytes} (more : Bytes)
    (h : (first a rest).char ≠ replacementChar) : first a (rest ++ more) = first a rest := by
  rcases first_cases a rest with hlone | ⟨tail, more', rfl, hcomplete⟩
  · rw [hlone] at h
    exact absurd rfl h
  · rw [List.append_assoc, hcomplete.first_append, hcomplete.first_append]

end Rune

namespace Bytes

/-- What stands after a text leaves its runes as they are when it lets none of them grow. -/
theorem runesFrom_append (text more : Bytes) :
    ∀ skip ≤ text.length,
      (∀ a rest, Rune.first a rest ∈ runesFrom skip text →
        Rune.first a (rest ++ more) = Rune.first a rest) →
      runesFrom skip (text ++ more) = runesFrom skip text ++ runes more := by
  induction text with
  | nil =>
      intro skip hskip _
      obtain rfl := Nat.le_zero.mp hskip
      rfl
  | cons a rest ih =>
      intro skip hskip h
      cases skip with
      | succ skip => exact ih skip (Nat.le_of_succ_le_succ hskip) h
      | zero =>
          have hraw := Rune.length_raw_first_le a rest
          have hfirst := h a rest List.mem_cons_self
          have hrest := ih ((Rune.first a rest).raw.length - 1) (by omega)
            fun b rest' hmem => h b rest' (List.mem_cons_of_mem _ hmem)
          simp only [List.cons_append, runesFrom, hfirst, hrest]

theorem runes_append {text : Bytes} (more : Bytes)
    (h : ∀ r ∈ text.runes, r.char ≠ replacementChar) :
    (text ++ more).runes = text.runes ++ more.runes :=
  runesFrom_append text more 0 (Nat.zero_le _) fun _ _ hmem => Rune.first_append more (h _ hmem)

theorem runes_of_lt {text : Bytes} (h : ∀ b ∈ text, b < 0x80) :
    text.runes = text.map fun b => ⟨Char.ofNat b.toNat, [b]⟩ := by
  induction text with
  | nil => rfl
  | cons b rest ih =>
      simp only [List.mem_cons, forall_eq_or_imp] at h
      have hrest := ih h.2
      simp only [runes] at hrest ⊢
      simp only [runesFrom, Rune.first_of_lt h.1, List.map_cons, ← hrest, List.length_singleton,
        Nat.sub_self]

/-- Reading a text rune by rune leaves nothing out. -/
theorem ofRunes_runesFrom (skip : Nat) (text : Bytes) :
    ofRunes (runesFrom skip text) = text.drop skip := by
  induction text generalizing skip with
  | nil => simp [runesFrom, ofRunes]
  | cons a rest ih =>
      cases skip with
      | succ skip => exact ih skip
      | zero =>
          calc ofRunes (runesFrom 0 (a :: rest))
            _ = (Rune.first a rest).raw ++
                ofRunes (runesFrom ((Rune.first a rest).raw.length - 1) rest) := rfl
            _ = a :: rest.take ((Rune.first a rest).raw.length - 1) ++
                rest.drop ((Rune.first a rest).raw.length - 1) := by
              rw [ih, ← Rune.raw_first_eq]
            _ = a :: rest := by rw [List.cons_append, List.take_append_drop]

theorem trimRight_prefix (text : Bytes) : trimRight text <+: text := by
  have hruns : (text.runes.reverse.dropWhile isSpaceRune).reverse <+: text.runes := by
    rw [← List.reverse_suffix, List.reverse_reverse]
    exact List.dropWhile_suffix isSpaceRune
  obtain ⟨rest, hrest⟩ := hruns
  refine ⟨ofRunes rest, ?_⟩
  rw [trimRight, ofRunes, ofRunes, ← List.flatMap_append, hrest]
  exact ofRunes_runesFrom 0 text

end Bytes

/-! ## Identifiers -/

namespace Syntax

/-- Letters, digits and underscores go on an identifier, and letters start one. -/
theorem ident_of_byte : ∀ b : UInt8,
    (Ascii.isWord b = true → b < 0x80 ∧ isIdentPart (Char.ofNat b.toNat) = true) ∧
    ((Ascii.isLower b || Ascii.isUpper b) = true → isIdentStart (Char.ofNat b.toNat) = true) :=
  Ascii.forall_byte (by decide +kernel)

theorem ne_replacementChar_of_isIdentPart {c : Char} (h : isIdentPart c = true) :
    c ≠ replacementChar := by
  rintro rfl
  exact absurd h (by decide +kernel)

/-- A text spelled like an identifier, be it a keyword. -/
def isName (text : Bytes) : Bool :=
  match text.runes with
  | [] => false
  | r :: rest => isIdentStart r.char && rest.all fun s => isIdentPart s.char

theorem isIdentifier_eq (name : Bytes) :
    isIdentifier name = (isName name && (Tok.keyword? name).isNone) := by
  unfold isIdentifier isName
  cases name.runes <;> rfl

theorem isName_of_keyword? {text : Bytes} (h : (Tok.keyword? text).isSome = true) :
    isName text = true := by
  have hwords : ∀ k ∈ Tok.keywords, isName k.spelling = true := by decide
  obtain ⟨k, hk⟩ := Option.isSome_iff_exists.mp h
  have hspelling := List.find?_some hk
  exact beq_iff_eq.mp hspelling ▸ hwords k (List.mem_of_find?_eq_some hk)

theorem exists_runes_of_isName {text : Bytes} (h : isName text = true) :
    ∃ r rest, text.runes = r :: rest ∧ isIdentStart r.char = true ∧
      ∀ s ∈ rest, isIdentPart s.char = true := by
  unfold isName at h
  split at h
  · exact absurd h Bool.false_ne_true
  · rename_i r rest hrunes
    rw [Bool.and_eq_true, List.all_eq_true] at h
    exact ⟨r, rest, hrunes, h⟩

theorem isIdentPart_of_mem_runes {text : Bytes} (h : ∀ b ∈ text, Ascii.isWord b = true) :
    ∀ r ∈ text.runes, isIdentPart r.char = true := by
  rw [Bytes.runes_of_lt fun b hb => ((ident_of_byte b).1 (h b hb)).1]
  intro r hr
  obtain ⟨b, hb, rfl⟩ := List.mem_map.mp hr
  exact ((ident_of_byte b).1 (h b hb)).2

/-- A name stays one when letters and digits are put after it. -/
theorem isName_append {text word : Bytes} (htext : isName text = true)
    (hword : ∀ b ∈ word, Ascii.isWord b = true) : isName (text ++ word) = true := by
  obtain ⟨r, rest, hrunes, hstart, hrest⟩ := exists_runes_of_isName htext
  have hvalid : ∀ s ∈ text.runes, s.char ≠ replacementChar := by
    rw [hrunes]
    intro s hs
    apply ne_replacementChar_of_isIdentPart
    rcases List.mem_cons.mp hs with rfl | hs
    · rw [isIdentPart, hstart, Bool.true_or]
    · exact hrest s hs
  rw [isName, Bytes.runes_append word hvalid, hrunes, List.cons_append]
  simp only [hstart, Bool.true_and, List.all_eq_true, List.mem_append]
  rintro s (hs | hs)
  · exact hrest s hs
  · exact isIdentPart_of_mem_runes hword s hs

theorem isName_singleton {c : UInt8} (h : (Ascii.isLower c || Ascii.isUpper c) = true) :
    isName [c] = true := by
  have hlt := ((ident_of_byte c).1 (Ascii.isWord_of_isLower_or_isUpper h)).1
  have hrunes : Bytes.runes [c] = [⟨Char.ofNat c.toNat, [c]⟩] :=
    Bytes.runes_of_lt (by simpa using hlt)
  rw [isName, hrunes]
  simpa using (ident_of_byte c).2 h

end Syntax

end RetryWeave
