import Mathlib.Order.Bounds.Basic
import RetryWeave.Proofs.Naming.Fresh

/-! # The search for a free name

The search tries the candidate, and then the candidate with one number after the other. It ends, because
the numbered names are all different, and it ends with the least number that makes the name free. -/

namespace RetryWeave.NameSupply

variable {taken : List Bytes} {candidate : Bytes}

/-! ## Runs of the search -/

/-- A run of the search from a name and the number that comes next: how many names it looks up, and
which one it finds. A taken name gives way to the candidate with the next number. -/
inductive Search (taken : List Bytes) (candidate : Bytes) : Bytes → Nat → Nat → Bytes → Prop where
  | free {name : Bytes} {next : Nat} (hfree : name ∉ taken) : Search taken candidate name next 1 name
  | step {name found : Bytes} {next lookups : Nat} (htaken : name ∈ taken)
      (rest : Search taken candidate (candidate ++ Bytes.ofNat next) (next + 1) lookups found) :
      Search taken candidate name next (lookups + 1) found

/-- The search has one run only. -/
theorem Search.unique {name found found' : Bytes} {next lookups lookups' : Nat}
    (h : Search taken candidate name next lookups found)
    (h' : Search taken candidate name next lookups' found') : lookups = lookups' ∧ found = found' := by
  induction h generalizing lookups' found' with
  | free hfree =>
      cases h' with
      | free => exact ⟨rfl, rfl⟩
      | step htaken => exact absurd htaken hfree
  | step htaken rest ih =>
      cases h' with
      | free hfree => exact absurd htaken hfree
      | step htaken' rest' =>
          obtain ⟨hlookups, hfound⟩ := ih rest'
          exact ⟨by rw [hlookups], hfound⟩

/-- The search passes over taken forms to the first free one. -/
theorem search_numbered {i : Nat} (htaken : ∀ j < i, numbered candidate j ∈ taken)
    (hfree : numbered candidate i ∉ taken) (k n : Nat) (hk : n + k = i) :
    Search taken candidate (numbered candidate n) (n + 1) (k + 1) (numbered candidate i) := by
  induction k generalizing n with
  | zero =>
      subst hk
      exact .free hfree
  | succ k ih =>
      apply Search.step
      · exact htaken n (by omega)
      · rw [← numbered_succ]
        exact ih (n + 1) (by omega)

/-- The search ends with the first free form, after no more lookups than one for each taken name and
one for the free form. -/
theorem search_firstFree (taken : List Bytes) (candidate : Bytes) :
    ∃ lookups ≤ taken.toFinset.card + 1,
      Search taken candidate candidate 1 lookups (firstFree taken candidate) := by
  obtain ⟨i, -, heq, hfree, htaken⟩ := firstFree_spec taken candidate
  refine ⟨i + 1, Nat.succ_le_succ (le_card_of_taken htaken), ?_⟩
  rw [heq]
  exact search_numbered htaken hfree i 0 (Nat.zero_add i)

/-! ## The name that is found -/

/-- The name is the candidate if that is free, and else the candidate with the least number that makes
it free. -/
structure LeastFree (taken : List Bytes) (candidate name : Bytes) : Prop where
  plain : candidate ∉ taken → name = candidate
  numbered : candidate ∈ taken → ∃ i, IsLeast {i | 1 ≤ i ∧ candidate ++ Bytes.ofNat i ∉ taken} i ∧
    name = candidate ++ Bytes.ofNat i

theorem leastFree_firstFree (taken : List Bytes) (candidate : Bytes) :
    LeastFree taken candidate (firstFree taken candidate) := by
  obtain ⟨i, -, heq, hfree, htaken⟩ := firstFree_spec taken candidate
  constructor
  · exact firstFree_eq_self_iff.mpr
  · intro hmem
    cases i with
    | zero => exact absurd hmem hfree
    | succ i =>
        refine ⟨i + 1, ⟨⟨Nat.succ_pos i, hfree⟩, ?_⟩, heq⟩
        rintro j ⟨hpos, hj⟩
        by_contra hlt
        have hmem' := htaken j (Nat.not_le.mp hlt)
        rw [NameSupply.numbered, if_neg (by omega)] at hmem'
        exact hj hmem'

/-- The search for a name ends, whatever is taken: it looks up at most one name more than there are taken
ones, and finds the candidate or the candidate with the least number that makes it free. A request takes
just the name that it gives out, so names given out for any bases are different and not reserved. -/
theorem search_ends_least :
    (∀ (taken : List Bytes) (candidate : Bytes),
      (∃ lookups, Search taken candidate candidate 1 lookups (firstFree taken candidate)) ∧
      ∀ lookups name, Search taken candidate candidate 1 lookups name →
        lookups ≤ taken.toFinset.card + 1 ∧ LeastFree taken candidate name) ∧
    (∀ (s : NameSupply) (base : Bytes), LeastFree s.taken (s.candidate base) (s.fresh base).1 ∧
      (s.fresh base).2 = { s with taken := (s.fresh base).1 :: s.taken }) ∧
    ∀ (style : NameStyle) (stem : Bytes) (reserved bases : List Bytes),
      let run := (⟨style, stem, reserved⟩ : NameSupply).freshAll bases
      run.1.length = bases.length ∧ run.1.Nodup ∧ (∀ name ∈ run.1, name ∉ reserved) ∧
        ∀ name, name ∈ run.2.taken ↔ name ∈ run.1 ∨ name ∈ reserved := by
  refine ⟨fun taken candidate => ?_, fun s base =>
    ⟨leastFree_firstFree s.taken (s.candidate base), rfl⟩, fun style stem reserved bases => ?_⟩
  · obtain ⟨lookups, hle, hsearch⟩ := search_firstFree taken candidate
    refine ⟨⟨lookups, hsearch⟩, fun lookups' name h => ?_⟩
    obtain ⟨rfl, rfl⟩ := hsearch.unique h
    exact ⟨hle, leastFree_firstFree taken candidate⟩
  · let s : NameSupply := ⟨style, stem, reserved⟩
    obtain ⟨hfree, hnodup⟩ := s.freshAll_spec bases
    refine ⟨s.length_freshAll bases, hnodup, hfree, fun name => ?_⟩
    simp [freshAll_snd]

/-- The numbers that are taken have a gap, and the search stops there. -/
theorem search_ends_least_gap :
    let taken : List Bytes := ["err", "err1", "err3"]
    Search taken "err" "err" 1 3 "err2" ∧ 3 ≤ taken.toFinset.card + 1 ∧ LeastFree taken "err" "err2" := by
  intro taken
  obtain ⟨herr, hone, herr1, htwo, herr2⟩ : Bytes.ofString "err" ∈ taken ∧
      Bytes.ofString "err" ++ Bytes.ofNat 1 = "err1" ∧ Bytes.ofString "err1" ∈ taken ∧
      Bytes.ofString "err" ++ Bytes.ofNat 2 = "err2" ∧ Bytes.ofString "err2" ∉ taken := by
    decide
  have hsearch : Search taken "err" "err" 1 3 "err2" := by
    refine .step herr ?_
    rw [hone]
    refine .step herr1 ?_
    rw [htwo]
    exact .free herr2
  exact ⟨hsearch, (search_ends_least.1 taken "err").2 3 "err2" hsearch⟩

end RetryWeave.NameSupply
