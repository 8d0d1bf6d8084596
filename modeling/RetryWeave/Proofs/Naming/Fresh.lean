import Mathlib.Data.Finset.Card
import Mathlib.Data.List.Nodup
import RetryWeave.Naming
import RetryWeave.Proofs.Text.Numeral

/-! # Fresh names

A supply gives out the least numbered form of a candidate that is not taken, so names given out one
after the other differ from each other and from all that was taken before. -/

namespace RetryWeave.NameSupply

/-! ## Numbered forms -/

theorem numbered_zero (name : Bytes) : numbered name 0 = name := rfl

theorem numbered_succ (name : Bytes) (n : Nat) :
    numbered name (n + 1) = name ++ Bytes.ofNat (n + 1) := rfl

theorem numbered_injective (name : Bytes) : Function.Injective (numbered name) := by
  intro m n h
  cases m with
  | zero =>
      cases n with
      | zero => rfl
      | succ n =>
          rw [numbered_zero, numbered_succ, List.self_eq_append_right] at h
          exact absurd h (Bytes.ofNat_ne_nil (n + 1))
  | succ m =>
      cases n with
      | zero =>
          rw [numbered_zero, numbered_succ, eq_comm, List.self_eq_append_right] at h
          exact absurd h (Bytes.ofNat_ne_nil (m + 1))
      | succ n =>
          rw [numbered_succ, numbered_succ, List.append_cancel_left_eq] at h
          exact Bytes.ofNat_injective h

/-! ## The search -/

/-- The search passes over taken forms only, and stops early only at a free one. -/
theorem firstFreeFrom_spec (taken : List Bytes) (name : Bytes) (tries n : Nat) :
    ∃ i, n ≤ i ∧ i ≤ n + tries ∧ firstFreeFrom taken name tries n = numbered name i ∧
      (∀ j, n ≤ j → j < i → numbered name j ∈ taken) ∧
      (i < n + tries → numbered name i ∉ taken) := by
  induction tries generalizing n with
  | zero => exact ⟨n, le_rfl, le_rfl, rfl, fun j hj hlt => by omega, fun h => by omega⟩
  | succ tries ih =>
      by_cases h : numbered name n ∈ taken
      · obtain ⟨i, hle, hbound, heq, htaken, hfree⟩ := ih (n + 1)
        refine ⟨i, by omega, by omega, ?_, ?_, fun hlt => hfree (by omega)⟩
        · rw [firstFreeFrom, if_pos (List.contains_iff_mem.mpr h), heq]
        · intro j hj hlt
          rcases Nat.eq_or_lt_of_le hj with rfl | hj
          · exact h
          · exact htaken j hj hlt
      · refine ⟨n, le_rfl, by omega, ?_, fun j hj hlt => by omega, fun _ => h⟩
        rw [firstFreeFrom, if_neg (fun hc => h (List.contains_iff_mem.mp hc))]

/-- The forms of a name are all different, so no more of them are taken than there are taken names. -/
theorem le_card_of_taken {taken : List Bytes} {name : Bytes} {i : Nat}
    (h : ∀ j < i, numbered name j ∈ taken) : i ≤ taken.toFinset.card := by
  have hmaps : ∀ j ∈ Finset.range i, numbered name j ∈ taken.toFinset := by
    intro j hj
    simpa using h j (Finset.mem_range.mp hj)
  calc i
    _ = (Finset.range i).card := (Finset.card_range i).symm
    _ ≤ taken.toFinset.card :=
      Finset.card_le_card_of_injOn (numbered name) hmaps (numbered_injective name).injOn

/-- Not all of the first `taken.length + 1` forms can be taken. -/
theorem exists_numbered_notMem (taken : List Bytes) (name : Bytes) :
    ∃ i ≤ taken.length, numbered name i ∉ taken := by
  by_contra hall
  have htaken : ∀ j < taken.length + 1, numbered name j ∈ taken := by
    intro j hj
    by_contra hfree
    exact hall ⟨j, Nat.le_of_lt_succ hj, hfree⟩
  have hcard := le_card_of_taken htaken
  have hlength := List.toFinset_card_le taken
  omega

/-- The first free form is the candidate under the least number that makes it free. -/
theorem firstFree_spec (taken : List Bytes) (name : Bytes) :
    ∃ i ≤ taken.length, firstFree taken name = numbered name i ∧ numbered name i ∉ taken ∧
      ∀ j < i, numbered name j ∈ taken := by
  obtain ⟨i, _, hbound, heq, htaken, hfree⟩ := firstFreeFrom_spec taken name taken.length 0
  have hle : i ≤ taken.length := by omega
  refine ⟨i, hle, heq, ?_, fun j hj => htaken j (Nat.zero_le j) hj⟩
  rcases Nat.eq_or_lt_of_le hle with hlast | hlt
  · obtain ⟨k, hk, hkfree⟩ := exists_numbered_notMem taken name
    have hki : ¬ k < i := fun hlt => hkfree (htaken k (Nat.zero_le k) hlt)
    have hik : k = i := by omega
    exact hik ▸ hkfree
  · exact hfree (by omega)

theorem firstFree_notMem (taken : List Bytes) (name : Bytes) : firstFree taken name ∉ taken := by
  obtain ⟨i, _, heq, hfree, _⟩ := firstFree_spec taken name
  exact heq ▸ hfree

/-- A name that is given out is the candidate, followed by digits. -/
theorem exists_firstFree_eq_append (taken : List Bytes) (name : Bytes) :
    ∃ digits, firstFree taken name = name ++ digits ∧
      ∀ b ∈ digits, Ascii.isDigit b = true := by
  obtain ⟨i, _, heq, _, _⟩ := firstFree_spec taken name
  cases i with
  | zero => exact ⟨[], by rw [heq, numbered_zero, List.append_nil], by simp⟩
  | succ i => exact ⟨Bytes.ofNat (i + 1), heq, Bytes.isDigit_of_mem_ofNat (i + 1)⟩

theorem firstFree_eq_self_iff {taken : List Bytes} {name : Bytes} :
    firstFree taken name = name ↔ name ∉ taken := by
  obtain ⟨i, _, heq, hfree, htaken⟩ := firstFree_spec taken name
  rw [heq]
  constructor
  · intro h
    exact h ▸ hfree
  · intro h
    cases i with
    | zero => exact numbered_zero name
    | succ i => exact absurd (htaken 0 i.succ_pos) h

/-! ## Names given out -/

section Supply

variable (s : NameSupply) (base : Bytes) (bases : List Bytes)

theorem fresh_fst_notMem : (s.fresh base).1 ∉ s.taken :=
  firstFree_notMem s.taken (s.candidate base)

theorem freshAll_cons :
    s.freshAll (base :: bases) =
      ((s.fresh base).1 :: ((s.fresh base).2.freshAll bases).1,
        ((s.fresh base).2.freshAll bases).2) := rfl

theorem freshAll_append (more : List Bytes) :
    s.freshAll (bases ++ more) =
      ((s.freshAll bases).1 ++ ((s.freshAll bases).2.freshAll more).1,
        ((s.freshAll bases).2.freshAll more).2) := by
  induction bases generalizing s with
  | nil => rfl
  | cons base bases ih => rw [List.cons_append, freshAll_cons, ih, freshAll_cons, List.cons_append]

/-- Afterwards the names that were given out are taken too. -/
theorem freshAll_snd :
    (s.freshAll bases).2 = { s with taken := (s.freshAll bases).1.reverse ++ s.taken } := by
  induction bases generalizing s with
  | nil => rfl
  | cons base bases ih =>
      rw [freshAll_cons, ih]
      simp only [fresh, List.reverse_cons, List.append_assoc, List.singleton_append]

theorem length_freshAll : (s.freshAll bases).1.length = bases.length := by
  induction bases generalizing s with
  | nil => rfl
  | cons base bases ih => rw [freshAll_cons, List.length_cons, ih, List.length_cons]

/-- Names given out in turn are not taken before, and no two of them are the same. -/
theorem freshAll_spec :
    (∀ name ∈ (s.freshAll bases).1, name ∉ s.taken) ∧ (s.freshAll bases).1.Nodup := by
  induction bases generalizing s with
  | nil => simp [freshAll]
  | cons base bases ih =>
      obtain ⟨hfree, hnodup⟩ := ih (s.fresh base).2
      rw [freshAll_cons]
      constructor
      · intro name hname
        rcases List.mem_cons.mp hname with rfl | hname
        · exact fresh_fst_notMem s base
        · exact fun htaken => hfree name hname (List.mem_cons_of_mem _ htaken)
      · refine List.nodup_cons.mpr ⟨?_, hnodup⟩
        intro hmem
        exact hfree _ hmem List.mem_cons_self

/-- Each name is the candidate of a base, followed by digits. -/
theorem exists_base_of_mem_freshAll {name : Bytes} (h : name ∈ (s.freshAll bases).1) :
    ∃ base ∈ bases, ∃ digits, name = s.candidate base ++ digits ∧
      ∀ b ∈ digits, Ascii.isDigit b = true := by
  induction bases generalizing s with
  | nil => simp [freshAll] at h
  | cons base bases ih =>
      rw [freshAll_cons, List.mem_cons] at h
      rcases h with rfl | h
      · exact ⟨base, List.mem_cons_self, exists_firstFree_eq_append s.taken (s.candidate base)⟩
      · obtain ⟨base', hmem, hdigits⟩ := ih (s.fresh base).2 h
        exact ⟨base', List.mem_cons_of_mem base hmem, hdigits⟩

end Supply

end RetryWeave.NameSupply
