import Mathlib.Tactic.ByContra
import RetryWeave.Text.Bytes

/-! # The order of byte strings

Byte strings are ordered as lists of bytes, and sorting by different keys leads to a strictly ascending
list. -/

namespace RetryWeave.Bytes

variable {a b : Bytes}

theorem compare_eq_gt_iff : compare a b = .gt ↔ b < a := by
  induction a generalizing b with
  | nil => cases b <;> simp [compare]
  | cons x a ih =>
      cases b with
      | nil => simp [compare]
      | cons y b =>
          rw [compare, List.cons_lt_cons_iff]
          split
          · rename_i hlt
            simp [UInt8.lt_asymm hlt, (UInt8.ne_of_lt hlt).symm]
          · split
            · rename_i hlt
              simp [hlt]
            · rename_i hle hge
              have heq : y = x := UInt8.le_antisymm (UInt8.not_lt.mp hle) (UInt8.not_lt.mp hge)
              simp [heq, ih]

theorem le_iff : le a b = true ↔ a ≤ b := by
  rw [le, bne_iff_ne, ne_eq, compare_eq_gt_iff]
  rfl

section

variable {α : Type} (key : α → Bytes)

theorem pairwise_le_mergeSort (l : List α) :
    (l.mergeSort fun x y => le (key x) (key y)).Pairwise fun x y => key x ≤ key y := by
  have htrans : ∀ x y z : α, le (key x) (key y) = true → le (key y) (key z) = true →
      le (key x) (key z) = true := fun x y z hxy hyz =>
    le_iff.mpr (List.le_trans (le_iff.mp hxy) (le_iff.mp hyz))
  have htotal : ∀ x y : α, (le (key x) (key y) || le (key y) (key x)) = true := by
    intro x y
    rw [Bool.or_eq_true, le_iff, le_iff]
    exact List.le_total (key x) (key y)
  exact (List.pairwise_mergeSort htrans htotal l).imp le_iff.mp

/-- Different keys in order ascend strictly. -/
theorem pairwise_lt_mergeSort {l : List α} (h : (l.map key).Nodup) :
    (l.mergeSort fun x y => le (key x) (key y)).Pairwise fun x y => key x < key y := by
  have hnodup : ((l.mergeSort fun x y => le (key x) (key y)).map key).Nodup :=
    ((List.mergeSort_perm l _).map key).nodup_iff.mpr h
  refine (pairwise_le_mergeSort key l).imp₂ (fun x y hle hne => ?_) (List.pairwise_map.mp hnodup)
  by_contra hlt
  exact hne (List.le_antisymm hle (List.not_lt.mp hlt))

end

theorem lt_append_cons {α : Type} [LT α] (l : List α) (x : α) (rest : List α) :
    l < l ++ x :: rest := by
  have hlt : l ++ [] < l ++ x :: rest := List.append_left_lt (List.nil_lt_cons x rest)
  rwa [List.append_nil] at hlt

/-- A byte string comes before another one because it ends there, or by the first byte in which they
differ. -/
theorem lt_cases (h : a < b) : (∃ y rest, b = a ++ y :: rest) ∨
    ∃ common x y rest rest', a = common ++ x :: rest ∧ b = common ++ y :: rest' ∧ x < y := by
  induction a generalizing b with
  | nil =>
      cases b with
      | nil => exact absurd h (List.lt_irrefl [])
      | cons y rest => exact .inl ⟨y, rest, rfl⟩
  | cons x a ih =>
      cases b with
      | nil => exact absurd h (List.not_lt_nil _)
      | cons y b =>
          rcases List.cons_lt_cons_iff.mp h with hlt | ⟨rfl, hlt⟩
          · exact .inr ⟨[], x, y, a, b, rfl, rfl, hlt⟩
          · rcases ih hlt with ⟨y, rest, rfl⟩ | ⟨common, x', y, rest, rest', rfl, rfl, hxy⟩
            · exact .inl ⟨y, rest, rfl⟩
            · exact .inr ⟨x :: common, x', y, rest, rest', rfl, rfl, hxy⟩

end RetryWeave.Bytes
