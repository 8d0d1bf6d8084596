import RetryWeave.Proofs.Loop.Build
import RetryWeave.Proofs.Text.Runes

/-! # The shape of introduced names

An introduced name is the stem, a letter, a part that no word of the language contains, and letters
and digits. -/

namespace RetryWeave

theorem Quoted.isWord_hexDigit (n : Nat) : Ascii.isWord (hexDigit (n % 16)) = true := by
  have hall : ∀ k < 16, Ascii.isWord (hexDigit k) = true := by decide
  exact hall (n % 16) (Nat.mod_lt n (by decide))

theorem Quoted.isWord_of_mem_hexDigits (width n : Nat) :
    ∀ b ∈ hexDigits width n, Ascii.isWord b = true := by
  induction width generalizing n with
  | zero => simp [hexDigits]
  | succ width ih =>
      intro b hb
      rw [hexDigits, List.mem_append, List.mem_singleton] at hb
      rcases hb with hb | rfl
      · exact ih (n / 16) b hb
      · exact isWord_hexDigit n

namespace NameSupply

theorem joined_nil (base : Bytes) : joined [] base = base := rfl

theorem joined_of_lt {stem : Bytes} (hstem : stem ≠ []) {b : UInt8} (h : b < 0x80) (rest : Bytes) :
    joined stem (b :: rest) =
      stem ++ Bytes.ofChar (Unicode.toUpper (Char.ofNat b.toNat)) ++ rest := by
  have hempty : ¬ stem.isEmpty = true := by simpa using hstem
  rw [joined, if_neg hempty]
  simp only [Rune.first_of_lt h, List.length_singleton, List.drop_one, List.tail_cons]

theorem isWord_of_mem_suffix (seed base : Bytes) :
    ∀ b ∈ suffix seed base, Ascii.isWord b = true := by
  intro b hb
  obtain ⟨x, _, hx⟩ := List.mem_flatMap.mp hb
  exact Quoted.isWord_of_mem_hexDigits 2 x.toNat b hx

/-- What the style of the names puts after the joined name. -/
theorem candidate_eq_append (s : NameSupply) (base : Bytes) :
    ∃ tail, s.candidate base = joined s.stem base ++ tail ∧
      ∀ b ∈ tail, Ascii.isWord b = true := by
  unfold candidate
  split
  · exact ⟨[], (List.append_nil _).symm, by simp⟩
  · rename_i seed _
    refine ⟨"_" ++ suffix seed base, List.append_assoc _ _ _, ?_⟩
    intro b hb
    rcases List.mem_append.mp hb with hb | hb
    · obtain rfl := List.mem_singleton.mp hb
      rfl
    · exact isWord_of_mem_suffix seed base b hb

end NameSupply

namespace RetryLoop

/-- The parts of the bases after their first letters. -/
def cores : List Bytes := ["lock", "ttempts", "esult", "rr"]

/-- A name made from a stem and a base. -/
def HasShape (stem name : Bytes) : Prop :=
  ∃ c core tail, name = stem ++ c :: (core ++ tail) ∧ (Ascii.isLower c || Ascii.isUpper c) = true ∧
    core ∈ cores ∧ ∀ b ∈ tail, Ascii.isWord b = true

theorem exists_digits_of_mem_valueBases {count : Nat} {base : Bytes} (h : base ∈ valueBases count) :
    ∃ digits : Bytes, base = "result" ++ digits ∧ ∀ b ∈ digits, Ascii.isDigit b = true := by
  unfold valueBases at h
  split at h
  · exact ⟨[], List.mem_singleton.mp h, by simp⟩
  · obtain ⟨i, _, rfl⟩ := List.mem_map.mp h
    exact ⟨_, rfl, Bytes.isDigit_of_mem_ofNat i⟩

/-- A base is a small letter, a core, and maybe a numeral. -/
theorem exists_core_of_mem_bases {count : Nat} {base : Bytes} (h : base ∈ bases count) :
    ∃ c core tail, base = c :: (core ++ tail) ∧ c ∈ ([97, 98, 101, 114] : Bytes) ∧ core ∈ cores ∧
      ∀ b ∈ tail, Ascii.isWord b = true := by
  simp only [bases, List.mem_cons, List.mem_append, List.not_mem_nil, or_false] at h
  rcases h with rfl | rfl | h | rfl
  · exact ⟨98, "lock", [], rfl, by decide, by decide, by simp⟩
  · exact ⟨97, "ttempts", [], rfl, by decide, by decide, by simp⟩
  · obtain ⟨digits, rfl, hdigits⟩ := exists_digits_of_mem_valueBases h
    exact ⟨114, "esult", digits, rfl, by decide, by decide, fun b hb => by
      simp [Ascii.isWord, hdigits b hb]⟩
  · exact ⟨101, "rr", [], rfl, by decide, by decide, by simp⟩

/-- The first letter of a base is capitalised after a stem. -/
theorem joined_cons (stem : Bytes) {c : UInt8} (hc : c ∈ ([97, 98, 101, 114] : Bytes))
    (rest : Bytes) :
    NameSupply.joined stem (c :: rest) =
      if stem = [] then c :: rest else stem ++ (c - 32) :: rest := by
  have hletters : ∀ b ∈ ([97, 98, 101, 114] : Bytes), b < 0x80 ∧
      Bytes.ofChar (Unicode.toUpper (Char.ofNat b.toNat)) = [b - 32] := by
    intro b hb
    simp only [List.mem_cons, List.not_mem_nil, or_false] at hb
    rcases hb with rfl | rfl | rfl | rfl
    all_goals exact ⟨by decide, rfl⟩
  obtain ⟨hlt, hchar⟩ := hletters c hc
  by_cases hstem : stem = []
  · rw [hstem, NameSupply.joined_nil, if_pos rfl]
  · rw [NameSupply.joined_of_lt hstem hlt, hchar, if_neg hstem, List.append_assoc,
      List.singleton_append]

theorem exists_joined_eq (stem : Bytes) {c : UInt8} (hc : c ∈ ([97, 98, 101, 114] : Bytes))
    (rest : Bytes) :
    ∃ c', NameSupply.joined stem (c :: rest) = stem ++ c' :: rest ∧
      (Ascii.isLower c' || Ascii.isUpper c') = true := by
  have hletters : ∀ b ∈ ([97, 98, 101, 114] : Bytes),
      Ascii.isLower b = true ∧ Ascii.isUpper (b - 32) = true := by
    intro b hb
    simp only [List.mem_cons, List.not_mem_nil, or_false] at hb
    rcases hb with rfl | rfl | rfl | rfl
    all_goals decide
  obtain ⟨hlower, hupper⟩ := hletters c hc
  rw [joined_cons stem hc]
  by_cases hstem : stem = []
  · exact ⟨c, by rw [if_pos hstem, hstem, List.nil_append], by rw [hlower, Bool.true_or]⟩
  · exact ⟨c - 32, by rw [if_neg hstem], by rw [hupper, Bool.or_true]⟩

theorem Built.hasShape {defaults : Defaults} {directive : Directive} {target : Option Owner}
    {contextName : Option Bytes} {supply : NameSupply} {signature : Signature} {l : RetryLoop}
    (h : Built defaults directive target contextName supply signature l) {name : Bytes}
    (hname : name ∈ l.names) : HasShape supply.stem name := by
  rw [h.names_eq] at hname
  obtain ⟨base, hbase, digits, rfl, hdigits⟩ := supply.exists_base_of_mem_freshAll _ hname
  obtain ⟨c, core, numeral, rfl, hc, hcore, hnumeral⟩ := exists_core_of_mem_bases hbase
  obtain ⟨c', hjoined, hletter⟩ := exists_joined_eq supply.stem hc (core ++ numeral)
  obtain ⟨tail, hcandidate, htail⟩ := supply.candidate_eq_append (c :: (core ++ numeral))
  refine ⟨c', core, numeral ++ tail ++ digits, ?_, hletter, hcore, ?_⟩
  · simp only [hcandidate, hjoined, List.append_assoc, List.cons_append]
  · intro b hb
    simp only [List.mem_append] at hb
    rcases hb with (hb | hb) | hb
    · exact hnumeral b hb
    · exact htail b hb
    · simp [Ascii.isWord, hdigits b hb]

/-! ## Words of the language -/

/-- No introduced name is one of finitely many words without a core. -/
theorem HasShape.ne_of_not_infix {stem name word : Bytes} (h : HasShape stem name)
    (hword : ∀ core ∈ cores, ¬ core <:+: word) : name ≠ word := by
  rintro rfl
  obtain ⟨c, core, tail, rfl, _, hcore, _⟩ := h
  exact hword core hcore ⟨stem ++ [c], tail, by simp⟩

theorem HasShape.ne_nil {stem name : Bytes} (h : HasShape stem name) :
    name ≠ Bytes.ofString "nil" :=
  h.ne_of_not_infix (by decide)

theorem HasShape.ne_panic {stem name : Bytes} (h : HasShape stem name) :
    name ≠ Bytes.ofString "panic" :=
  h.ne_of_not_infix (by decide)

theorem HasShape.ne_blank {stem name : Bytes} (h : HasShape stem name) :
    name ≠ [Ascii.underscore] :=
  h.ne_of_not_infix (by decide)

theorem HasShape.keyword?_eq_none {stem name : Bytes} (h : HasShape stem name) :
    Syntax.Tok.keyword? name = none := by
  have hwords : ∀ k ∈ Syntax.Tok.keywords, ∀ core ∈ cores, ¬ core <:+: k.spelling := by
    decide
  rw [Syntax.Tok.keyword?, List.find?_eq_none]
  intro k hk heq
  exact h.ne_of_not_infix (hwords k hk) (beq_iff_eq.mp heq).symm

/-- An introduced name is an identifier; a stem that is a keyword does no harm. -/
theorem HasShape.isIdentifier {stem name : Bytes} (h : HasShape stem name)
    (hstem : NameSupply.isStem stem = true) : Syntax.isIdentifier name = true := by
  have hkeyword := h.keyword?_eq_none
  obtain ⟨c, core, tail, rfl, hletter, hcore, htail⟩ := h
  have hcores : ∀ core ∈ cores, ∀ b ∈ core, Ascii.isWord b = true := by
    intro core hcore
    simp only [cores, List.mem_cons, List.not_mem_nil, or_false] at hcore
    rcases hcore with rfl | rfl | rfl | rfl
    all_goals exact List.all_eq_true.mp rfl
  have hrest : ∀ b ∈ core ++ tail, Ascii.isWord b = true := by
    intro b hb
    rcases List.mem_append.mp hb with hb | hb
    · exact hcores core hcore b hb
    · exact htail b hb
  have hword : ∀ b ∈ c :: (core ++ tail), Ascii.isWord b = true :=
    List.forall_mem_cons.mpr ⟨Ascii.isWord_of_isLower_or_isUpper hletter, hrest⟩
  rw [Syntax.isIdentifier_eq, hkeyword, Option.isNone_none, Bool.and_true]
  simp only [NameSupply.isStem, Bool.or_eq_true] at hstem
  rcases hstem with (hempty | hname) | hkey
  · obtain rfl := List.isEmpty_iff.mp hempty
    have hname := Syntax.isName_append (Syntax.isName_singleton hletter) hrest
    exact hname
  · rw [Syntax.isIdentifier_eq, Bool.and_eq_true] at hname
    exact Syntax.isName_append hname.1 hword
  · exact Syntax.isName_append (Syntax.isName_of_keyword? hkey) hword

end RetryLoop

end RetryWeave
