import Mathlib.Data.List.Sort
import RetryWeave.Proofs.Text.Quoting

/-! # Fields of a text

The fields of a text are its maximal runs without white space. No rune goes across a byte of ASCII, so
fields that are written with blanks between them are read back byte for byte. -/

namespace RetryWeave

/-! ## Runes of parts of a text -/

namespace Rune

/-- A rune that ends within a text is the same when the text is cut off there. -/
theorem first_append_of_length_le {a : UInt8} {rest : Bytes} (more : Bytes)
    (h : (first a (rest ++ more)).raw.length ≤ rest.length + 1) :
    first a (rest ++ more) = first a rest := by
  rcases first_cases a rest with hlone | ⟨tail, more', rfl, hcomplete⟩
  · rcases first_cases a (rest ++ more) with hlone' | ⟨tail, more', heq, hcomplete⟩
    · rw [hlone, hlone']
    · have hle : tail.length ≤ rest.length := by
        rw [heq, hcomplete.first_append, hcomplete.raw_first] at h
        simpa using h
      obtain ⟨rest', rfl⟩ := List.prefix_of_prefix_length_le (List.prefix_append tail more')
        (heq ▸ List.prefix_append rest more) hle
      rw [heq, hcomplete.first_append, hcomplete.first_append]
  · rw [List.append_assoc, hcomplete.first_append, hcomplete.first_append]

/-- The bytes of a rune after the first are tail bytes, which are not of ASCII. -/
theorem isTail_of_mem_tail_raw {a b : UInt8} {rest : Bytes} (h : b ∈ (first a rest).raw.tail) :
    isTail b = true := by
  rcases first_cases a rest with hlone | ⟨tail, more, rfl, hcomplete⟩
  · simp [hlone] at h
  · rw [hcomplete.first_append, hcomplete.raw_first] at h
    exact hcomplete.isTail_of_mem b h

theorem first_append_cons {b : UInt8} (h : b < 0x80) (a : UInt8) (rest more : Bytes) :
    first a (rest ++ b :: more) = first a rest := by
  apply first_append_of_length_le
  by_contra hlong
  have hmem : b ∈ (first a (rest ++ b :: more)).raw.tail := by
    rw [raw_first_eq, List.tail_cons, List.mem_take_iff_getElem]
    exact ⟨rest.length, by simp; omega, by simp⟩
  have hle := (isTail_iff.mp (isTail_of_mem_tail_raw hmem)).1
  rw [UInt8.lt_iff_toNat_lt] at h
  exact absurd hle (Nat.not_le.mpr h)

end Rune

namespace Bytes

@[simp] theorem runes_nil : runes [] = [] := rfl

theorem runesFrom_eq (skip : Nat) (text : Bytes) : runesFrom skip text = runes (text.drop skip) := by
  induction text generalizing skip with
  | nil => cases skip <;> rfl
  | cons a rest ih =>
      cases skip with
      | zero => rfl
      | succ skip => exact ih skip

theorem runes_cons (a : UInt8) (rest : Bytes) :
    runes (a :: rest) =
      Rune.first a rest :: runes (rest.drop ((Rune.first a rest).raw.length - 1)) := by
  rw [← runesFrom_eq]
  rfl

/-- A byte of ASCII is never read together with what stands before it. -/
theorem runes_append_cons {b : UInt8} (h : b < 0x80) (text more : Bytes) :
    runes (text ++ b :: more) = runes text ++ runes (b :: more) :=
  runesFrom_append text (b :: more) 0 (Nat.zero_le _) fun a rest _ =>
    Rune.first_append_cons h a rest more

theorem ofRunes_runes (text : Bytes) : ofRunes text.runes = text :=
  ofRunes_runesFrom 0 text

theorem ofRunes_append (front back : List Rune) :
    ofRunes (front ++ back) = ofRunes front ++ ofRunes back :=
  List.flatMap_append

/-- A text that is cut between two runes is read as before, on both sides. -/
theorem runes_ofRunes_of_append {text : Bytes} {front back : List Rune}
    (h : text.runes = front ++ back) :
    (ofRunes front).runes = front ∧ (ofRunes back).runes = back := by
  induction front generalizing text with
  | nil =>
      have hback : text = ofRunes back := by rw [← ofRunes_runes text, h, List.nil_append]
      exact ⟨rfl, by rw [← hback, h, List.nil_append]⟩
  | cons r front ih =>
      cases text with
      | nil => cases h
      | cons a rest =>
          rw [runes_cons, List.cons_append, List.cons.injEq] at h
          obtain ⟨hr, hrest⟩ := h
          obtain ⟨hfront, hback⟩ := ih hrest
          refine ⟨?_, hback⟩
          generalize hk : (Rune.first a rest).raw.length - 1 = k at hrest
          have hle : k ≤ rest.length := by
            have := Rune.length_raw_first_le a rest
            omega
          have hdrop : rest.drop k = ofRunes front ++ ofRunes back := by
            rw [← ofRunes_append, ← hrest, ofRunes_runes]
          have hcut : rest = rest.take k ++ ofRunes front ++ ofRunes back := by
            rw [List.append_assoc, ← hdrop, List.take_append_drop]
          -- the first rune ends before the runes behind it, which are not cut
          have hfirst : Rune.first a (rest.take k ++ ofRunes front) = r := by
            rw [← hr, ← Rune.first_append_of_length_le (ofRunes back), ← hcut]
            rw [← hcut]
            simp
            omega
          have htext : ofRunes (r :: front) = a :: (rest.take k ++ ofRunes front) := by
            show r.raw ++ ofRunes front = _
            rw [← hr, Rune.raw_first_eq, hk, List.cons_append]
          rw [htext, runes_cons, hfirst, ← hr, hk, List.drop_append_of_le_length (by simp; omega)]
          simp [hfront]

/-! ## Words and the gaps between them -/

section Words

variable {r s : Rune} {rs gap word after : List Rune} {words : List (List Rune)}

/-- Runes as words with white space around them. After a word comes white space or the end. -/
inductive Spaced : List Rune → List (List Rune) → Prop where
  | gap {gap : List Rune} (hgap : ∀ r ∈ gap, isSpaceRune r = true) : Spaced gap []
  | word (gap word : List Rune) {after : List Rune} {words : List (List Rune)}
      (hgap : ∀ r ∈ gap, isSpaceRune r = true) (hne : word ≠ [])
      (hword : ∀ r ∈ word, isSpaceRune r = false) (hafter : ∀ r ∈ after.head?, isSpaceRune r = true)
      (rest : Spaced after words) : Spaced (gap ++ (word ++ after)) (word :: words)

theorem Spaced.space (h : Spaced rs words) (hr : isSpaceRune r = true) : Spaced (r :: rs) words := by
  cases h with
  | gap hgap => exact .gap (by simpa [hr] using hgap)
  | word gap word hgap hne hword hafter rest =>
      exact .word (r :: gap) word (by simpa [hr] using hgap) hne hword hafter rest

/-- A rune in front of a word belongs to the word. -/
theorem Spaced.solid (h : Spaced rs words) (hr : isSpaceRune r = false) :
    ∃ words, Spaced (r :: rs) words := by
  have halone : (∀ s ∈ rs.head?, isSpaceRune s = true) → Spaced (r :: rs) ([r] :: words) :=
    fun hhead => .word [] [r] (by simp) (by simp) (by simpa using hr) hhead h
  cases h with
  | gap hgap => exact ⟨_, halone fun s hs => hgap s (List.mem_of_mem_head? hs)⟩
  | @word gap word after words hgap hne hword hafter rest =>
      cases gap with
      | nil =>
          exact ⟨_, .word [] (r :: word) (by simp) (by simp)
            (by simpa [hr] using hword) hafter rest⟩
      | cons s gap => exact ⟨_, halone (by simpa using hgap s (by simp))⟩

theorem exists_spaced (rs : List Rune) : ∃ words, Spaced rs words := by
  induction rs with
  | nil => exact ⟨[], .gap (by simp)⟩
  | cons r rs ih =>
      obtain ⟨words, hwords⟩ := ih
      cases hr : isSpaceRune r with
      | true => exact ⟨words, hwords.space hr⟩
      | false => exact hwords.solid hr

theorem fieldsOf_nil : fieldsOf [] = [] := rfl

theorem fieldsOf_space (hr : isSpaceRune r = true) : fieldsOf (r :: rs) = fieldsOf rs := by
  rw [fieldsOf.eq_def]
  simp [hr]

theorem fieldsOf_solid_space (hr : isSpaceRune r = false)
    (hafter : ∀ s ∈ after.head?, isSpaceRune s = true) :
    fieldsOf (r :: after) = r.raw :: fieldsOf after := by
  rw [fieldsOf.eq_def]
  cases after with
  | nil => simp [hr, fieldsOf_nil]
  | cons s after =>
      have hs : isSpaceRune s = true := hafter s rfl
      simp [hr, hs]

theorem fieldsOf_solid_solid (hr : isSpaceRune r = false) (hs : isSpaceRune s = false)
    {field : Bytes} {fields : List Bytes} (hrest : fieldsOf (s :: rs) = field :: fields) :
    fieldsOf (r :: s :: rs) = (r.raw ++ field) :: fields := by
  rw [fieldsOf.eq_def]
  simp [hr, hs, hrest]

theorem fieldsOf_append_of_space (h : ∀ r ∈ gap, isSpaceRune r = true) (rs : List Rune) :
    fieldsOf (gap ++ rs) = fieldsOf rs := by
  induction gap with
  | nil => rfl
  | cons r gap ih =>
      simp only [List.mem_cons, forall_eq_or_imp] at h
      rw [List.cons_append, fieldsOf_space h.1, ih h.2]

theorem fieldsOf_append (hne : word ≠ []) (hword : ∀ r ∈ word, isSpaceRune r = false)
    (hafter : ∀ r ∈ after.head?, isSpaceRune r = true) :
    fieldsOf (word ++ after) = ofRunes word :: fieldsOf after := by
  induction word with
  | nil => exact absurd rfl hne
  | cons r word ih =>
      simp only [List.mem_cons, forall_eq_or_imp] at hword
      cases word with
      | nil => simpa [ofRunes] using fieldsOf_solid_space hword.1 hafter
      | cons s word => exact fieldsOf_solid_solid hword.1 (hword.2 s (by simp)) (ih (by simp) hword.2)

theorem Spaced.fieldsOf_eq (h : Spaced rs words) : fieldsOf rs = words.map ofRunes := by
  induction h with
  | @gap gap hgap =>
      calc fieldsOf gap
        _ = fieldsOf (gap ++ []) := by rw [List.append_nil]
        _ = [] := fieldsOf_append_of_space hgap []
  | word gap word hgap hne hword hafter rest ih =>
      rw [fieldsOf_append_of_space hgap, fieldsOf_append hne hword hafter, ih, List.map_cons]

/-- A word is read as its runes when it stands alone. -/
theorem Spaced.spec {text : Bytes} (h : Spaced text.runes words) :
    ∀ word ∈ words, word ≠ [] ∧ (∀ r ∈ word, isSpaceRune r = false) ∧ (ofRunes word).runes = word := by
  generalize hrs : text.runes = rs at h
  induction h generalizing text with
  | gap => simp
  | @word gap word after words hgap hne hword hafter rest ih =>
      have hback := (runes_ofRunes_of_append hrs).2
      obtain ⟨hfront, hafter⟩ := runes_ofRunes_of_append hback
      intro w hw
      rcases List.mem_cons.mp hw with rfl | hw
      · exact ⟨hne, hword, hfront⟩
      · exact ih hafter w hw

end Words

/-! ## Maximal runs -/

/-- From `start` to before `stop` all places have the property, and no place next to them has it. -/
structure IsRun (p : Nat → Prop) (start stop : Nat) : Prop where
  start_lt_stop : start < stop
  inside : ∀ i, start ≤ i → i < stop → p i
  before : ∀ i, i + 1 = start → ¬ p i
  after : ¬ p stop

namespace IsRun

variable {p q : Nat → Prop} {start stop start' stop' n : Nat}

theorem start_le (h : IsRun p start stop) (h' : IsRun p start' stop') (hlt : start' < stop) :
    start' ≤ start := by
  by_contra hle
  exact h'.before (start' - 1) (by omega) (h.inside (start' - 1) (by omega) (by omega))

theorem stop_le (h : IsRun p start stop) (h' : IsRun p start' stop') (hlt : start' < stop) :
    stop' ≤ stop := by
  by_contra hle
  exact h.after (h'.inside stop (by omega) (by omega))

/-- Maximal runs that overlap are the same. -/
theorem eq_of_overlap (h : IsRun p start stop) (h' : IsRun p start' stop') (hlt : start' < stop)
    (hlt' : start < stop') : start = start' ∧ stop = stop' :=
  ⟨Nat.le_antisymm (h'.start_le h hlt') (h.start_le h' hlt),
    Nat.le_antisymm (h'.stop_le h hlt') (h.stop_le h' hlt)⟩

/-- When no place before a run has the property, other runs are behind it. -/
theorem eq_or_le (h : IsRun p start stop) (hbefore : ∀ i < start, ¬ p i)
    (h' : IsRun p start' stop') : (start' = start ∧ stop' = stop) ∨ stop ≤ start' := by
  have hlt := h'.start_lt_stop
  have hle : start ≤ start' := by
    by_contra hlt'
    exact hbefore start' (by omega) (h'.inside start' le_rfl hlt)
  by_cases hnear : start' < stop
  · exact .inl (h'.eq_of_overlap h (by omega) hnear)
  · exact .inr (Nat.not_lt.mp hnear)

theorem shift_iff (hshift : ∀ i, p (n + i) ↔ q i) (hzero : ¬ q 0) :
    IsRun p (n + start) (n + stop) ↔ IsRun q start stop := by
  constructor
  · intro h
    have hlt := h.start_lt_stop
    refine ⟨by omega, fun i hi hlt => ?_, fun i hi => ?_, (hshift stop).not.mp h.after⟩
    · exact (hshift i).mp (h.inside (n + i) (by omega) (by omega))
    · exact (hshift i).not.mp (h.before (n + i) (by omega))
  · intro h
    have hlt := h.start_lt_stop
    refine ⟨by omega, fun i hi hlt => ?_, fun i hi => ?_, (hshift stop).not.mpr h.after⟩
    · rw [show i = n + (i - n) by omega]
      exact (hshift _).mpr (h.inside (i - n) (by omega) (by omega))
    · cases start with
      | zero => exact absurd (h.inside 0 le_rfl hlt) hzero
      | succ start =>
          rw [show i = n + start by omega]
          exact (hshift start).not.mpr (h.before start rfl)

end IsRun

/-- At this place stands a rune that is not white space. -/
def SolidAt (rs : List Rune) (i : Nat) : Prop := ∃ r, rs[i]? = some r ∧ isSpaceRune r = false

/-- The maximal runs of runes that are not white space, all of them and in order. -/
structure RunsOf (rs : List Rune) (spans : List (Nat × Nat)) : Prop where
  mem_iff : ∀ start stop, (start, stop) ∈ spans ↔ IsRun (SolidAt rs) start stop
  ordered : spans.Pairwise fun a b => a.1 < b.1

theorem RunsOf.unique {rs : List Rune} {spans spans' : List (Nat × Nat)} (h : RunsOf rs spans)
    (h' : RunsOf rs spans') : spans = spans' := by
  have hirrefl : Std.Irrefl fun a b : Nat × Nat => a.1 < b.1 := ⟨fun a => Nat.lt_irrefl a.1⟩
  apply h.ordered.eq_of_mem_iff h'.ordered
  intro span
  rw [h.mem_iff, h'.mem_iff]

section Runs

variable {rs gap word after : List Rune} {words : List (List Rune)} {i : Nat}

theorem not_solidAt_of_space (h : ∀ r ∈ rs, isSpaceRune r = true) (i : Nat) : ¬ SolidAt rs i := by
  intro hsolid
  obtain ⟨r, hr, hsolid⟩ := hsolid
  simp [h r (List.mem_of_getElem? hr)] at hsolid

theorem not_solidAt_zero (h : ∀ r ∈ rs.head?, isSpaceRune r = true) : ¬ SolidAt rs 0 := by
  intro hsolid
  obtain ⟨r, hr, hsolid⟩ := hsolid
  simp [h r (by simpa [List.head?_eq_getElem?] using hr)] at hsolid

theorem solidAt_of_lt (h : ∀ r ∈ rs, isSpaceRune r = false) (hi : i < rs.length) : SolidAt rs i :=
  ⟨rs[i], List.getElem?_eq_getElem hi, h _ (List.getElem_mem hi)⟩

theorem solidAt_append_left {front : List Rune} (h : i < front.length) (back : List Rune) :
    SolidAt (front ++ back) i ↔ SolidAt front i := by
  simp [SolidAt, List.getElem?_append_left h]

theorem solidAt_append_right (front back : List Rune) (i : Nat) :
    SolidAt (front ++ back) (front.length + i) ↔ SolidAt back i := by
  simp [SolidAt, List.getElem?_append_right]

theorem solidAt_after_iff (i : Nat) :
    SolidAt (gap ++ (word ++ after)) (gap.length + word.length + i) ↔ SolidAt after i := by
  rw [Nat.add_assoc, solidAt_append_right, solidAt_append_right]

theorem not_solidAt_gap (hgap : ∀ r ∈ gap, isSpaceRune r = true) (hi : i < gap.length) :
    ¬ SolidAt (gap ++ (word ++ after)) i := by
  rw [solidAt_append_left hi]
  exact not_solidAt_of_space hgap i

/-- A word between a gap and white space is a maximal run. -/
theorem isRun_word (hgap : ∀ r ∈ gap, isSpaceRune r = true) (hne : word ≠ [])
    (hword : ∀ r ∈ word, isSpaceRune r = false) (hafter : ∀ r ∈ after.head?, isSpaceRune r = true) :
    IsRun (SolidAt (gap ++ (word ++ after))) gap.length (gap.length + word.length) := by
  have hpos : 0 < word.length := List.length_pos_iff.mpr hne
  refine ⟨by omega, fun i hi hlt => ?_, fun i hi => not_solidAt_gap hgap (by omega), ?_⟩
  · obtain ⟨k, rfl⟩ := Nat.exists_eq_add_of_le hi
    rw [solidAt_append_right, solidAt_append_left (by omega)]
    exact solidAt_of_lt hword (by omega)
  · exact (solidAt_after_iff 0).not.mpr (not_solidAt_zero hafter)

/-- The runs of a text are its first word and the runs behind it. -/
theorem RunsOf.cons (hgap : ∀ r ∈ gap, isSpaceRune r = true) (hne : word ≠ [])
    (hword : ∀ r ∈ word, isSpaceRune r = false) (hafter : ∀ r ∈ after.head?, isSpaceRune r = true)
    {spans : List (Nat × Nat)} (h : RunsOf after spans) :
    RunsOf (gap ++ (word ++ after)) ((gap.length, gap.length + word.length) ::
      spans.map fun span =>
        (gap.length + word.length + span.1, gap.length + word.length + span.2)) := by
  have hfirst := isRun_word hgap hne hword hafter
  have hbehind : ∀ i j, IsRun (SolidAt (gap ++ (word ++ after))) (gap.length + word.length + i)
      (gap.length + word.length + j) ↔ (i, j) ∈ spans := by
    intro i j
    rw [IsRun.shift_iff solidAt_after_iff (not_solidAt_zero hafter), h.mem_iff]
  refine ⟨fun start stop => ?_, ?_⟩
  · simp only [List.mem_cons, Prod.mk.injEq, List.mem_map, Prod.exists]
    constructor
    · rintro (⟨rfl, rfl⟩ | ⟨i, j, hmem, rfl, rfl⟩)
      · exact hfirst
      · exact (hbehind i j).mpr hmem
    · intro hrun
      have hlt := hrun.start_lt_stop
      rcases hfirst.eq_or_le (fun i hi => not_solidAt_gap hgap hi) hrun with heq | hle
      · exact .inl heq
      · obtain ⟨i, rfl⟩ := Nat.exists_eq_add_of_le hle
        obtain ⟨j, rfl⟩ := Nat.exists_eq_add_of_le (hle.trans hlt.le)
        exact .inr ⟨i, j, (hbehind i j).mp hrun, rfl, rfl⟩
  · have hpos : 0 < word.length := List.length_pos_iff.mpr hne
    simp [List.pairwise_map, h.ordered]
    omega

theorem extract_append (front back : List Rune) (i j : Nat) :
    (front ++ back).extract (front.length + i) (front.length + j) = back.extract i j := by
  simp [List.extract_eq_take_drop, Nat.add_sub_add_left]

theorem Spaced.exists_spans (h : Spaced rs words) : ∃ spans : List (Nat × Nat),
    RunsOf rs spans ∧ words = spans.map fun span => rs.extract span.1 span.2 := by
  induction h with
  | gap hgap =>
      refine ⟨[], ⟨fun start stop => ?_, .nil⟩, rfl⟩
      simp only [List.not_mem_nil, false_iff]
      intro h
      exact not_solidAt_of_space hgap start (h.inside start le_rfl h.start_lt_stop)
  | @word gap word after words hgap hne hword hafter rest ih =>
      obtain ⟨spans, hspans, hwords⟩ := ih
      refine ⟨_, hspans.cons hgap hne hword hafter, ?_⟩
      have hfirst : (gap ++ (word ++ after)).extract gap.length (gap.length + word.length) = word := by
        simp [List.extract_eq_take_drop]
      have hothers : ∀ i j, (gap ++ (word ++ after)).extract (gap.length + word.length + i)
          (gap.length + word.length + j) = after.extract i j := by
        intro i j
        rw [Nat.add_assoc, Nat.add_assoc, extract_append, extract_append]
      rw [List.map_cons, List.map_map, hfirst, hwords]
      congr 1
      apply List.map_congr_left
      intro span _
      exact (hothers span.1 span.2).symm

end Runs

/-! ## Fields of a text -/

/-- The fields are what stands in the maximal runs of runes that are not white space. -/
def HasFields (text : Bytes) (fields : List Bytes) : Prop :=
  ∃ spans : List (Nat × Nat), RunsOf text.runes spans ∧
    fields = spans.map fun span => ofRunes (text.runes.extract span.1 span.2)

/-- A text that can be a field: it is not empty, and none of its runes is white space. -/
def IsWord (field : Bytes) : Prop := field ≠ [] ∧ ∀ r ∈ field.runes, isSpaceRune r = false

theorem hasFields_fields (text : Bytes) : HasFields text (fields text) := by
  obtain ⟨words, hwords⟩ := exists_spaced text.runes
  obtain ⟨spans, hspans, hmap⟩ := hwords.exists_spans
  refine ⟨spans, hspans, ?_⟩
  rw [fields, hwords.fieldsOf_eq, hmap, List.map_map]
  rfl

theorem hasFields_iff {text : Bytes} {words : List Bytes} :
    HasFields text words ↔ words = fields text := by
  constructor
  · intro h
    obtain ⟨spans, hspans, hwords⟩ := h
    obtain ⟨spans', hspans', hfields⟩ := hasFields_fields text
    rw [hwords, hfields, hspans.unique hspans']
  · intro h
    rw [h]
    exact hasFields_fields text

theorem isWord_of_mem_fields {text field : Bytes} (h : field ∈ fields text) : IsWord field := by
  obtain ⟨words, hwords⟩ := exists_spaced text.runes
  rw [fields, hwords.fieldsOf_eq] at h
  obtain ⟨word, hmem, rfl⟩ := List.mem_map.mp h
  obtain ⟨hne, hsolid, hruns⟩ := hwords.spec word hmem
  refine ⟨?_, by rwa [hruns]⟩
  intro hnil
  rw [hnil] at hruns
  exact hne hruns.symm

/-! ## Fields that are written -/

/-- A text that can follow a word: it is empty, or it begins with a space or a tab. -/
def SetOff (text : Bytes) : Prop := text = [] ∨ ∃ b rest, text = b :: rest ∧ Ascii.isBlank b = true

/-- A gap is made of spaces and tabs, and is not empty. -/
def IsGap (gap : Bytes) : Prop := gap ≠ [] ∧ ∀ b ∈ gap, Ascii.isBlank b = true

/-- Fields with a gap before each of them. -/
def spread (pieces : List (Bytes × Bytes)) : Bytes := pieces.flatMap fun piece => piece.1 ++ piece.2

section Spread

variable {b : UInt8} {text : Bytes} {pieces : List (Bytes × Bytes)}

theorem lt_of_isBlank (h : Ascii.isBlank b = true) : b < 0x80 := by
  simp only [Ascii.isBlank, Bool.or_eq_true, beq_iff_eq] at h
  rcases h with rfl | rfl <;> decide

theorem isSpaceRune_of_isBlank (h : Ascii.isBlank b = true) :
    isSpaceRune ⟨Char.ofNat b.toNat, [b]⟩ = true := by
  simp only [Ascii.isBlank, Bool.or_eq_true, beq_iff_eq] at h
  rcases h with rfl | rfl <;> decide

theorem ne_replacementChar_of_isSpaceRune {r : Rune} (h : isSpaceRune r = true) :
    r.char ≠ replacementChar := by
  intro hr
  rw [isSpaceRune, hr] at h
  exact absurd h (by decide)

theorem isSpaceRune_of_mem_runes {gap : Bytes} (h : ∀ b ∈ gap, Ascii.isBlank b = true) :
    ∀ r ∈ gap.runes, isSpaceRune r = true := by
  rw [runes_of_lt fun b hb => lt_of_isBlank (h b hb)]
  intro r hr
  obtain ⟨b, hb, rfl⟩ := List.mem_map.mp hr
  exact isSpaceRune_of_isBlank (h b hb)

theorem SetOff.runes_append (h : SetOff text) (field : Bytes) :
    (field ++ text).runes = field.runes ++ text.runes := by
  rcases h with rfl | ⟨b, rest, rfl, hb⟩
  · simp
  · exact runes_append_cons (lt_of_isBlank hb) field rest

theorem SetOff.isSpaceRune_head (h : SetOff text) : ∀ r ∈ text.runes.head?, isSpaceRune r = true := by
  rcases h with rfl | ⟨b, rest, rfl, hb⟩
  · simp
  · simpa [runes_cons, Rune.first_of_lt (lt_of_isBlank hb)] using isSpaceRune_of_isBlank hb

theorem setOff_spread (h : ∀ piece ∈ pieces, IsGap piece.1) : SetOff (spread pieces) := by
  cases pieces with
  | nil => exact .inl rfl
  | cons piece pieces =>
      obtain ⟨gap, field⟩ := piece
      obtain ⟨hne, hblank⟩ := h (gap, field) (by simp)
      cases gap with
      | nil => exact absurd rfl hne
      | cons b gap => exact .inr ⟨b, _, rfl, hblank b (by simp)⟩

theorem spaced_spread (h : ∀ piece ∈ pieces, IsGap piece.1 ∧ IsWord piece.2) :
    Spaced (spread pieces).runes (pieces.map fun piece => piece.2.runes) := by
  induction pieces with
  | nil => exact .gap (by simp [spread])
  | cons piece pieces ih =>
      obtain ⟨gap, field⟩ := piece
      simp only [List.mem_cons, forall_eq_or_imp] at h
      obtain ⟨⟨hgap, hne, hfield⟩, hrest⟩ := h
      have hspace := isSpaceRune_of_mem_runes hgap.2
      have hsetOff := setOff_spread fun piece hpiece => (hrest piece hpiece).1
      have hspread : spread ((gap, field) :: pieces) = gap ++ (field ++ spread pieces) := by
        simp [spread]
      have hruns : (spread ((gap, field) :: pieces)).runes =
          gap.runes ++ (field.runes ++ (spread pieces).runes) := by
        rw [hspread, runes_append _ fun r hr => ne_replacementChar_of_isSpaceRune (hspace r hr),
          hsetOff.runes_append]
      rw [hruns, List.map_cons]
      refine .word gap.runes field.runes hspace ?_ hfield hsetOff.isSpaceRune_head (ih hrest)
      intro hnil
      exact hne (by rw [← ofRunes_runes field, hnil]; rfl)

/-- Fields that are written with gaps before them are read back. -/
theorem fields_spread (h : ∀ piece ∈ pieces, IsGap piece.1 ∧ IsWord piece.2) :
    fields (spread pieces) = pieces.map (·.2) := by
  rw [fields, (spaced_spread h).fieldsOf_eq, List.map_map]
  apply List.map_congr_left
  intro piece _
  exact ofRunes_runes piece.2

end Spread

end Bytes

end RetryWeave
