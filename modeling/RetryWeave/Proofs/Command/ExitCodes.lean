import Mathlib.Order.Bounds.Basic
import RetryWeave.Failure
import RetryWeave.Proofs.Text.Pieces

/-! # Exit codes of errors

The exit code of an error is that of the weightiest cause anywhere in it. Only where there is no such
cause its text counts. So wrapping keeps a code that stands for a cause, and joining takes the least. -/

namespace RetryWeave

/-- How an error is put together: from nothing, texts and causes, by wrapping one or two errors with any
text around them and by joining several. -/
inductive ErrorTree where
  | absent
  | text (message : Bytes)
  | cause (c : Cause)
  | wrap (before : Bytes) (inner : ErrorTree) (after : Bytes)
  | pair (before : Bytes) (first : ErrorTree) (between : Bytes) (second : ErrorTree) (after : Bytes)
  | join (parts : List ErrorTree)

namespace ErrorTree

/-- What a wrapper shows in place of an error that is not there. -/
def placeholder : Failure := .text "%!w(<nil>)"

mutual

/-- The error, if there is one. What is not there is left out of a join, and a join of nothing is no
error. -/
def value : ErrorTree → Option Failure
  | absent => none
  | text m => some (.text m)
  | cause c => some (.cause c)
  | wrap before inner after => some (.wrap before (inner.value.getD placeholder) after)
  | pair before a between b after =>
    some (.pair before (a.value.getD placeholder) between (b.value.getD placeholder) after)
  | join parts => Failure.joinAll (values parts)
termination_by structural t => t

/-- The errors that are there. -/
def values : List ErrorTree → List Failure
  | [] => []
  | t :: rest => t.value.toList ++ values rest
termination_by structural ts => ts

end

mutual

/-- The whole text of an error, if there is one. The parts of a join have a line each. -/
def text? : ErrorTree → Option Bytes
  | absent => none
  | text m => some m
  | cause c => some c.message
  | wrap before t after => some (before ++ t.text?.getD "%!w(<nil>)" ++ after)
  | pair before a between b after =>
    some (before ++ a.text?.getD "%!w(<nil>)" ++ between ++ b.text?.getD "%!w(<nil>)" ++ after)
  | join parts => if texts parts = [] then none else some (Bytes.join "\n" (texts parts))
termination_by structural t => t

/-- The texts of the errors that are there. -/
def texts : List ErrorTree → List Bytes
  | [] => []
  | t :: rest => t.text?.toList ++ texts rest
termination_by structural ts => ts

end

/-- A cause occurs somewhere in an error. -/
inductive Holds (c : Cause) : ErrorTree → Prop where
  | cause : Holds c (.cause c)
  | wrap {before after : Bytes} {t : ErrorTree} (h : Holds c t) : Holds c (.wrap before t after)
  | first {before between after : Bytes} {a b : ErrorTree} (h : Holds c a) :
      Holds c (.pair before a between b after)
  | second {before between after : Bytes} {a b : ErrorTree} (h : Holds c b) :
      Holds c (.pair before a between b after)
  | part {parts : List ErrorTree} {t : ErrorTree} (ht : t ∈ parts) (h : Holds c t) :
      Holds c (.join parts)

variable {c : Cause} {before between after : Bytes} {t a b : ErrorTree} {parts : List ErrorTree}

/-! ## Causes of wrapped and joined errors -/

theorem holds_wrap_iff : (wrap before t after).Holds c ↔ t.Holds c := by
  constructor
  · rintro (_ | h)
    exact h
  · exact .wrap

theorem holds_pair_iff : (pair before a between b after).Holds c ↔ a.Holds c ∨ b.Holds c := by
  constructor
  · rintro (_ | _ | h | h)
    · exact .inl h
    · exact .inr h
  · rintro (h | h)
    · exact .first h
    · exact .second h

theorem holds_join_iff : (join parts).Holds c ↔ ∃ t ∈ parts, t.Holds c := by
  constructor
  · rintro (_ | _ | _ | _ | ⟨ht, h⟩)
    exact ⟨_, ht, h⟩
  · rintro ⟨t, ht, h⟩
    exact .part ht h

theorem has_getD_placeholder (c : Cause) (r : Option Failure) :
    (r.getD placeholder).has c = r.any (·.has c) := by
  cases r <;> rfl

theorem any_has_joinAll (c : Cause) (fs : List Failure) :
    (Failure.joinAll fs).any (·.has c) = Failure.anyHas c fs := by
  cases fs <;> rfl

theorem anyHas_append (c : Cause) (fs gs : List Failure) :
    Failure.anyHas c (fs ++ gs) = (Failure.anyHas c fs || Failure.anyHas c gs) := by
  induction fs with
  | nil => rfl
  | cons f fs ih => rw [List.cons_append, Failure.anyHas, ih, Failure.anyHas, Bool.or_assoc]

theorem anyHas_toList (c : Cause) (r : Option Failure) :
    Failure.anyHas c r.toList = r.any (·.has c) := by
  cases r with
  | none => rfl
  | some f => exact Bool.or_false _

mutual

/-- The search through an error finds the causes that occur in it. -/
theorem any_has_value_iff (c : Cause) :
    ∀ t : ErrorTree, t.value.any (·.has c) = true ↔ t.Holds c
  | absent => ⟨nofun, nofun⟩
  | text m => ⟨nofun, nofun⟩
  | cause c' => by
      constructor
      · intro h
        obtain rfl : c = c' := eq_of_beq h
        exact .cause
      · rintro ⟨⟩
        exact beq_self_eq_true c
  | wrap before t after => by
      rw [holds_wrap_iff, ← any_has_value_iff c t, ← has_getD_placeholder c t.value]
      rfl
  | pair before a between b after => by
      rw [holds_pair_iff, ← any_has_value_iff c a, ← any_has_value_iff c b, ← Bool.or_eq_true,
        ← has_getD_placeholder c a.value, ← has_getD_placeholder c b.value]
      rfl
  | join parts => by
      rw [holds_join_iff, ← anyHas_values_iff c parts, ← any_has_joinAll, value]

theorem anyHas_values_iff (c : Cause) :
    ∀ parts : List ErrorTree, Failure.anyHas c (values parts) = true ↔ ∃ t ∈ parts, t.Holds c
  | [] => by simp [values, Failure.anyHas]
  | t :: rest => by
      rw [values, anyHas_append, anyHas_toList, Bool.or_eq_true, any_has_value_iff c t,
        anyHas_values_iff c rest]
      simp

end

instance (c : Cause) (t : ErrorTree) : Decidable (t.Holds c) :=
  decidable_of_iff _ (any_has_value_iff c t)

/-! ## Texts of wrapped and joined errors -/

theorem message_getD_placeholder (r : Option Failure) :
    (r.getD placeholder).message = (r.map Failure.message).getD "%!w(<nil>)" := by
  cases r <;> rfl

theorem messages_eq_map (fs : List Failure) : Failure.messages fs = fs.map Failure.message := by
  induction fs with
  | nil => rfl
  | cons f fs ih => rw [Failure.messages, ih, List.map_cons]

theorem map_message_joinAll (fs : List Failure) : (Failure.joinAll fs).map Failure.message =
    if fs.map Failure.message = [] then none else some (Bytes.join "\n" (fs.map Failure.message)) := by
  cases fs with
  | nil => rfl
  | cons f fs => simp [Failure.joinAll, Failure.message, messages_eq_map]

mutual

/-- The text of the error that is built is put together like the error. -/
theorem map_message_value : ∀ t : ErrorTree, t.value.map Failure.message = t.text?
  | absent => rfl
  | text m => rfl
  | cause c => rfl
  | wrap before t after => by
      rw [text?, value, Option.map_some, Failure.message, message_getD_placeholder, map_message_value t]
  | pair before a between b after => by
      rw [text?, value, Option.map_some, Failure.message, message_getD_placeholder,
        message_getD_placeholder, map_message_value a, map_message_value b]
  | join parts => by
      rw [text?, value, map_message_joinAll, map_message_values parts]

theorem map_message_values : ∀ parts : List ErrorTree,
    (values parts).map Failure.message = texts parts
  | [] => rfl
  | t :: rest => by
      rw [values, texts, List.map_append, map_message_values rest, ← map_message_value t]
      congr 1
      cases t.value <;> rfl

end

/-! ## The code of the weightiest cause -/

/-- The exit code of an error. -/
def code (t : ErrorTree) : Nat := ExitCode.ofResult t.value

/-- The codes of all causes in an error that have one. -/
def codes (t : ErrorTree) : Set Nat := {n | ∃ c, (c, n) ∈ ExitCode.ranked ∧ t.Holds c}

theorem ten_le_of_mem_codes {n : Nat} (h : n ∈ t.codes) : 10 ≤ n := by
  obtain ⟨c, hranked, -⟩ := h
  have hall : ∀ p ∈ ExitCode.ranked, 10 ≤ p.2 := by decide
  exact hall _ hranked

/-- The first of several entries in increasing order that satisfies a condition has the least number
of all that do. -/
theorem isLeast_of_find? {entries : List (Cause × Nat)} {p : Cause × Nat → Bool} {c : Cause} {n : Nat}
    (horder : entries.Pairwise (·.2 ≤ ·.2)) (h : entries.find? p = some (c, n)) :
    IsLeast {m | ∃ c', (c', m) ∈ entries ∧ p (c', m) = true} n := by
  obtain ⟨hp, before, after, rfl, hbefore⟩ := List.find?_eq_some_iff_append.mp h
  refine ⟨⟨c, by simp, hp⟩, ?_⟩
  rintro m ⟨c', hmem, hm⟩
  rcases List.mem_append.mp hmem with hmem | hmem
  · exact absurd hm (by simpa using hbefore _ hmem)
  · rcases List.mem_cons.mp hmem with heq | hmem
    · exact (congrArg Prod.snd heq).ge
    · have hafter := (List.pairwise_append.mp horder).2.1
      exact List.rel_of_pairwise_cons hafter hmem

/-- The code is the least one of the causes in the error. Without such a cause it tells whether there is
an error, and whether its text is that of a misused command line. -/
theorem code_cases (t : ErrorTree) :
    IsLeast t.codes t.code ∨ t.codes = ∅ ∧
      (t.value = none ∧ t.code = 0 ∨
        ∃ f, t.value = some f ∧ t.code = if ExitCode.isUsage f.message then 2 else 1) := by
  have hholds : ∀ f, t.value = some f → ∀ c, f.has c = true ↔ t.Holds c := by
    intro f hf c
    rw [← any_has_value_iff, hf, Option.any_some]
  cases hvalue : t.value with
  | none =>
      refine .inr ⟨Set.eq_empty_of_forall_notMem ?_, .inl ⟨rfl, by rw [code, hvalue]; rfl⟩⟩
      rintro n ⟨c, -, h⟩
      rw [← any_has_value_iff, hvalue] at h
      cases h
  | some f =>
      have hcode : t.code = ExitCode.ofFailure f := by rw [code, hvalue]; rfl
      rw [ExitCode.ofFailure] at hcode
      have hcodes : t.codes =
          {n | ∃ c, (c, n) ∈ ExitCode.ranked ∧ (fun p : Cause × Nat => f.has p.1) (c, n) = true} := by
        simp only [codes, hholds f hvalue]
      cases hfind : ExitCode.ranked.find? fun p => f.has p.1 with
      | some p =>
          obtain ⟨c, n⟩ := p
          simp only [hfind] at hcode
          rw [hcode, hcodes]
          exact .inl (isLeast_of_find? (by decide) hfind)
      | none =>
          simp only [hfind] at hcode
          refine .inr ⟨Set.eq_empty_of_forall_notMem ?_, .inr ⟨f, rfl, hcode⟩⟩
          rintro n ⟨c, hranked, h⟩
          exact absurd ((hholds f hvalue c).mpr h) (by simpa using List.find?_eq_none.mp hfind _ hranked)

theorem ten_le_code_iff (t : ErrorTree) : 10 ≤ t.code ↔ t.codes.Nonempty := by
  rcases t.code_cases with hleast | ⟨hempty, hlow⟩
  · exact iff_of_true (ten_le_of_mem_codes hleast.1) ⟨_, hleast.1⟩
  · refine iff_of_false ?_ (by rw [hempty]; exact Set.not_nonempty_empty)
    rcases hlow with ⟨-, hcode⟩ | ⟨f, -, hcode⟩
    · omega
    · split at hcode <;> omega

theorem isLeast_code (h : 10 ≤ t.code) : IsLeast t.codes t.code := by
  rcases t.code_cases with hleast | ⟨hempty, -⟩
  · exact hleast
  · exact absurd ((ten_le_code_iff t).mp h) (by rw [hempty]; exact Set.not_nonempty_empty)

/-- An error with the causes of several others has the least of their codes that stand for causes. -/
theorem isLeast_code_of_codes_eq (members : Set ErrorTree)
    (hcodes : t.codes = {n | ∃ m ∈ members, n ∈ m.codes}) (h : ∃ m ∈ members, 10 ≤ m.code) :
    IsLeast {n | 10 ≤ n ∧ ∃ m ∈ members, m.code = n} t.code := by
  obtain ⟨m, hm, hmember⟩ := h
  have hten : 10 ≤ t.code := by
    obtain ⟨n, hn⟩ := (ten_le_code_iff m).mp hmember
    exact (ten_le_code_iff t).mpr ⟨n, hcodes ▸ ⟨m, hm, hn⟩⟩
  obtain ⟨hmem, hleast⟩ := isLeast_code hten
  have hbelow : ∀ m ∈ members, 10 ≤ m.code → t.code ≤ m.code := fun m hm hmember =>
    hleast (hcodes ▸ ⟨m, hm, (isLeast_code hmember).1⟩)
  refine ⟨⟨hten, ?_⟩, ?_⟩
  · rw [hcodes] at hmem
    obtain ⟨m, hm, hmem⟩ := hmem
    have hmember := (ten_le_code_iff m).mpr ⟨_, hmem⟩
    exact ⟨m, hm, ((isLeast_code hmember).2 hmem).antisymm (hbelow m hm hmember)⟩
  · rintro n ⟨hn, m, hm, rfl⟩
    exact hbelow m hm hn

/-! ## All errors -/

/-- No cause in an error has an exit code of its own. -/
def Plain (t : ErrorTree) : Prop :=
  ¬ t.Holds .invalidConfig ∧ ¬ t.Holds .diagnostics ∧ ¬ t.Holds .parseFailed ∧
    ¬ t.Holds .writeFailed

instance (t : ErrorTree) : Decidable t.Plain := inferInstanceAs (Decidable (_ ∧ _ ∧ _ ∧ _))

/-- A text starts like that of a misused command line. -/
def TellsMisuse (message : Bytes) : Prop :=
  ∃ start ∈ ["unknown flag", "unknown shorthand flag", "unknown command", "accepts ",
    "requires at least", "required flag", "invalid argument", "flag needs an argument",
    "if any flags in the group"], Bytes.ofString start <+: message

instance (message : Bytes) : Decidable (TellsMisuse message) :=
  inferInstanceAs (Decidable (∃ _ ∈ _, _))

theorem isUsage_iff (message : Bytes) : ExitCode.isUsage message = true ↔ TellsMisuse message := by
  simp [ExitCode.isUsage, ExitCode.usageStarts, TellsMisuse, Bytes.startsWith_iff]

theorem mem_codes_iff {n : Nat} : n ∈ t.codes ↔
    n = 10 ∧ t.Holds .invalidConfig ∨ n = 11 ∧ t.Holds .diagnostics ∨
      n = 12 ∧ t.Holds .parseFailed ∨ n = 13 ∧ t.Holds .writeFailed := by
  simp [codes, ExitCode.ranked, or_and_right, exists_or, and_assoc]

theorem codes_eq_empty_iff : t.codes = ∅ ↔ t.Plain := by
  simp only [Set.eq_empty_iff_forall_notMem, mem_codes_iff, Plain, not_or, not_and, forall_and,
    forall_eq]

theorem code_eq_iff {n : Nat} (hn : 10 ≤ n) : t.code = n ↔ n ∈ t.codes ∧ ∀ m ∈ t.codes, n ≤ m := by
  constructor
  · rintro rfl
    exact isLeast_code hn
  · intro hleast
    have hten : 10 ≤ t.code := (ten_le_code_iff t).mpr ⟨n, hleast.1⟩
    exact (isLeast_code hten).unique hleast

/-- The codes of causes, each where no weightier cause occurs. -/
theorem code_of_causes (t : ErrorTree) :
    (t.code = 10 ↔ t.Holds .invalidConfig) ∧
    (t.code = 11 ↔ ¬ t.Holds .invalidConfig ∧ t.Holds .diagnostics) ∧
    (t.code = 12 ↔ ¬ t.Holds .invalidConfig ∧ ¬ t.Holds .diagnostics ∧ t.Holds .parseFailed) ∧
    (t.code = 13 ↔ ¬ t.Holds .invalidConfig ∧ ¬ t.Holds .diagnostics ∧ ¬ t.Holds .parseFailed ∧
      t.Holds .writeFailed) := by
  have hrank : ∀ n, 10 ≤ n → (t.code = n ↔ n ∈ t.codes ∧ ∀ m ∈ t.codes, n ≤ m) := fun _ =>
    code_eq_iff
  refine ⟨?_, ?_, ?_, ?_⟩
  · simp [hrank, mem_codes_iff, or_imp, forall_and]
  · simp [hrank, mem_codes_iff, or_imp, forall_and, and_comm]
  · simp only [hrank _ (by decide : 10 ≤ 12), mem_codes_iff, or_imp, forall_and]
    simp
    tauto
  · simp only [hrank _ (by decide : 10 ≤ 13), mem_codes_iff, or_imp, forall_and]
    simp
    tauto

/-- The other codes: whether there is an error, and how its text starts. -/
theorem code_of_text (t : ErrorTree) :
    (t.code = 0 ↔ t.text? = none) ∧
    (t.code = 2 ↔ t.Plain ∧ ∃ text, t.text? = some text ∧ TellsMisuse text) ∧
    (t.code = 1 ↔ t.Plain ∧ ∃ text, t.text? = some text ∧ ¬ TellsMisuse text) := by
  rw [← map_message_value]
  by_cases hplain : t.Plain
  · have hempty := codes_eq_empty_iff.mpr hplain
    rcases t.code_cases with hleast | ⟨-, ⟨hnone, hcode⟩ | ⟨f, hvalue, hcode⟩⟩
    · exact absurd hleast.1 (by simp [hempty])
    · simp [hnone, hcode]
    · have hkind := isUsage_iff f.message
      by_cases husage : ExitCode.isUsage f.message = true
      · rw [if_pos husage] at hcode
        simp [hcode, hvalue, hplain, hkind.mp husage]
      · rw [if_neg husage] at hcode
        simp [hcode, hvalue, hplain, hkind.not.mp husage]
  · have hten : 10 ≤ t.code := by
      rw [ten_le_code_iff, Set.nonempty_iff_ne_empty, Ne, codes_eq_empty_iff]
      exact hplain
    have hsome : t.value ≠ none := by
      intro hnone
      rw [code, hnone] at hten
      exact absurd hten (by decide)
    simp only [hplain, Option.map_eq_none_iff, hsome, false_and, iff_false]
    omega

/-- The exit code of every error. It is nothing for no error, that of the weightiest cause in it if there
is one with a code, and otherwise tells by the start of the text whether the command line was misused. So
a wrapper keeps the code of a cause whatever its text is, and several errors have the least code of those
that hold such a cause, in whatever order they stand and whatever text is around them. -/
theorem exit_codes :
    (∀ t : ErrorTree,
      (t.code = 0 ↔ t.text? = none) ∧
      (t.code = 10 ↔ t.Holds .invalidConfig) ∧
      (t.code = 11 ↔ ¬ t.Holds .invalidConfig ∧ t.Holds .diagnostics) ∧
      (t.code = 12 ↔ ¬ t.Holds .invalidConfig ∧ ¬ t.Holds .diagnostics ∧ t.Holds .parseFailed) ∧
      (t.code = 13 ↔ ¬ t.Holds .invalidConfig ∧ ¬ t.Holds .diagnostics ∧ ¬ t.Holds .parseFailed ∧
        t.Holds .writeFailed) ∧
      (t.code = 2 ↔ t.Plain ∧ ∃ text, t.text? = some text ∧ TellsMisuse text) ∧
      (t.code = 1 ↔ t.Plain ∧ ∃ text, t.text? = some text ∧ ¬ TellsMisuse text)) ∧
    (∀ before t after, 10 ≤ t.code → (wrap before t after).code = t.code) ∧
    (∀ before a between b after, 10 ≤ a.code ∨ 10 ≤ b.code →
      IsLeast {n | 10 ≤ n ∧ (a.code = n ∨ b.code = n)} (pair before a between b after).code) ∧
    ∀ parts, (∃ t ∈ parts, 10 ≤ t.code) →
      IsLeast {n | 10 ≤ n ∧ ∃ t ∈ parts, t.code = n} (join parts).code := by
  refine ⟨fun t => ?_, fun before t after h => ?_, fun before a between b after h => ?_,
    fun parts h => ?_⟩
  · obtain ⟨hten, heleven, htwelve, hthirteen⟩ := t.code_of_causes
    obtain ⟨hzero, htwo, hone⟩ := t.code_of_text
    exact ⟨hzero, hten, heleven, htwelve, hthirteen, htwo, hone⟩
  · have hcodes : (wrap before t after).codes = t.codes := by simp only [codes, holds_wrap_iff]
    refine (code_eq_iff h).mpr ?_
    rw [hcodes]
    exact isLeast_code h
  · have hleast := isLeast_code_of_codes_eq (t := pair before a between b after) {a, b}
      (by ext n; simp [codes, holds_pair_iff, and_or_left, exists_or]) (by simpa using h)
    simpa using hleast
  · have hleast := isLeast_code_of_codes_eq (t := join parts) {t | t ∈ parts} ?_ h
    · exact hleast
    · ext n
      simp only [codes, holds_join_iff, Set.mem_ofPred_eq]
      exact ⟨fun ⟨c, hc, t, ht, h⟩ => ⟨t, ht, c, hc, h⟩, fun ⟨t, ht, c, hc, h⟩ => ⟨c, hc, t, ht, h⟩⟩

/-- A text of misuse counts only where no cause is hidden in the error. -/
theorem exit_codes_misuse_around_causes :
    let a := cause .writeFailed
    let b := wrap "a.go: " (cause .parseFailed) []
    (10 ≤ a.code ∧ 10 ≤ b.code) ∧
    (wrap "unknown command: " b []).code = b.code ∧
    IsLeast {n | 10 ≤ n ∧ (a.code = n ∨ b.code = n)} (pair "unknown flag: " a ", accepts " b ".").code ∧
    IsLeast {n | 10 ≤ n ∧ ∃ t ∈ [text "required flag", absent, a, b], t.code = n}
      (join [text "required flag", absent, a, b]).code ∧
    (pair "unknown flag: " a ", accepts " b ".").code = 12 ∧
    (pair "invalid argument " (text "x") " for " absent []).code = 2 ∧
    (wrap "an " (text "invalid argument") []).code = 1 ∧ (join [absent, absent]).code = 0 := by
  intro a b
  obtain ⟨hall, hwrap, hpair, hjoin⟩ := exit_codes
  have ha : 10 ≤ a.code := by decide
  have hb : 10 ≤ b.code := by decide
  refine ⟨⟨ha, hb⟩, hwrap _ b _ hb, hpair _ a _ b _ (.inl ha), hjoin _ ⟨a, by simp, ha⟩, ?_, ?_, ?_, ?_⟩
  · exact (hall _).2.2.2.1.mpr (by decide)
  · exact (hall _).2.2.2.2.2.1.mpr ⟨by decide, _, rfl, by decide⟩
  · exact (hall _).2.2.2.2.2.2.mpr ⟨by decide, _, rfl, by decide⟩
  · exact (hall _).1.mpr rfl

end ErrorTree

end RetryWeave
