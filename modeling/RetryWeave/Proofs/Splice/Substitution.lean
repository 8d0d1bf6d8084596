import Mathlib
import RetryWeave.Proofs.Splice.Weave

/-! # Edits as a simultaneous substitution

Edits are made one after the other in a text that grows and shrinks, with offsets of the source. This
makes them all at once: the edits that are still to come lie in a part of the text that is as in the
source. -/

namespace RetryWeave.Edit

variable {src : Bytes} {edits sorted : List Edit} {n : Nat} {e : Edit}

/-! ## From left to right -/

/-- The source from the offset `n` on, with edits that are given in order: what stands in front of an
edit, the text of the edit, and then the same for what comes after it. -/
def joined (src : Bytes) : Nat → List Edit → Bytes
  | n, [] => Bytes.slice src n src.length
  | n, e :: rest => Bytes.slice src n e.start ++ e.text ++ joined src e.stop rest

theorem map_fst_weave (src : Bytes) (n : Nat) (edits : List Edit) :
    (weave src n edits).map Prod.fst = joined src n edits := by
  induction edits generalizing n with
  | nil => exact map_fst_kept src n src.length
  | cons e rest ih =>
      rw [weave, joined, List.map_append, List.map_append, map_fst_kept, map_fst_inserted, ih]

/-- By how much an edit makes a text longer. -/
def growth (e : Edit) : Int := e.text.length - (e.stop - e.start)

theorem length_slice {start stop : Nat} (hstop : stop ≤ src.length) :
    (Bytes.slice src start stop).length = stop - start := by
  rw [Bytes.slice, List.length_take, List.length_drop]
  omega

theorem length_joined (h : Ascending src n edits) :
    ((joined src n edits).length : Int) = src.length - n + (edits.map growth).sum := by
  induction edits generalizing n with
  | nil =>
      have hn : n ≤ src.length := h
      rw [joined, length_slice le_rfl, List.map_nil, List.sum_nil]
      omega
  | cons e rest ih =>
      obtain ⟨hn, ⟨hstop, hle⟩, hrest⟩ := h
      have hlength := ih hrest
      have hfront : (Bytes.slice src n e.start).length = e.start - n :=
        length_slice (hstop.trans hle)
      rw [joined, List.length_append, List.length_append, hfront, List.map_cons, List.sum_cons,
        growth]
      omega

/-! ## One edit after the other -/

theorem foldr_apply_eq_joined (h : Ascending src n edits) :
    edits.foldr (fun e text => apply text e) src = src.take n ++ joined src n edits := by
  rw [foldr_apply_eq_weave h, map_fst_weave]

theorem Ascending.of_append {front : List Edit} (h : Ascending src n (front ++ e :: edits)) :
    e.InRange src ∧ Ascending src e.stop edits := by
  induction front generalizing n with
  | nil => exact h.2
  | cons _ front ih => exact ih h.2.2

/-- When the edits behind an edit are made, the text up to the end of the edit is still that of the
source. -/
theorem Ascending.foldl_done {done rest : List Edit}
    (h : Ascending src 0 (done ++ e :: rest).reverse) :
    (done.foldl apply src).take e.stop = src.take e.stop ∧ e.start ≤ e.stop ∧
      e.stop ≤ (done.foldl apply src).length := by
  rw [List.reverse_append, List.reverse_cons, List.append_assoc, List.singleton_append] at h
  obtain ⟨⟨hstop, hle⟩, hdone⟩ := h.of_append
  have hlength : (src.take e.stop).length = e.stop := List.length_take_of_le hle
  have htext := foldr_apply_eq_joined hdone
  rw [List.foldr_reverse] at htext
  rw [htext]
  refine ⟨?_, hstop, ?_⟩
  · rw [List.take_append_of_le_length hlength.ge, List.take_take, min_self]
  · rw [List.length_append, hlength]
    exact Nat.le_add_right _ _

/-! ## All edits at once -/

theorem applyAll_eq_joined (hrange : ∀ e ∈ edits, e.InRange src) (hapart : edits.Pairwise Apart)
    (hperm : sorted.Perm edits) (hsorted : sorted.Pairwise fun a b => a.start < b.start) :
    applyAll src edits = joined src 0 sorted := by
  have hdescending : sorted.reverse.Pairwise fun a b => b.start < a.start :=
    List.pairwise_reverse.mpr hsorted
  rw [applyAll_eq_foldl src ((List.reverse_perm sorted).trans hperm) hdescending, List.foldl_reverse,
    foldr_apply_eq_joined (ascending_of_sorted hperm hrange hapart hsorted), List.take_zero,
    List.nil_append]

theorem pairwise_mergeSort_lt (hstarts : edits.Pairwise fun a b => a.start ≠ b.start) :
    (edits.mergeSort fun a b => a.start ≤ b.start).Pairwise fun a b => a.start < b.start := by
  have hperm := List.mergeSort_perm edits fun a b => decide (a.start ≤ b.start)
  have hsorted : (edits.mergeSort fun a b => a.start ≤ b.start).Pairwise
      fun a b => decide (a.start ≤ b.start) = true :=
    List.pairwise_mergeSort (by simp only [decide_eq_true_eq]; omega)
      (by simp only [Bool.or_eq_true, decide_eq_true_eq]; omega) edits
  refine (hsorted.and (hperm.symm.pairwise hstarts fun h => h.symm)).imp fun h => ?_
  exact Nat.lt_of_le_of_ne (of_decide_eq_true h.1) h.2

/-- Edits that do not overlap and start at different places, in any order: the result is what stands
between them in the source and their texts, from left to right. It does not depend on the order in
which they are given, and no edit reaches beyond the text that the edits before it have left. -/
theorem applyAll_substitutes (hrange : ∀ e ∈ edits, e.InRange src) (hapart : edits.Pairwise Apart)
    (hstarts : edits.Pairwise fun a b => a.start ≠ b.start) :
    applyAll src edits = joined src 0 (edits.mergeSort fun a b => a.start ≤ b.start) ∧
    (∀ edits', edits'.Perm edits → applyAll src edits' = applyAll src edits) ∧
    ((applyAll src edits).length : Int) = src.length + (edits.map growth).sum ∧
    ∀ done e rest, (edits.mergeSort fun a b => b.start ≤ a.start) = done ++ e :: rest →
      (done.foldl apply src).take e.stop = src.take e.stop ∧ e.start ≤ e.stop ∧
        e.stop ≤ (done.foldl apply src).length := by
  have hperm := List.mergeSort_perm edits fun a b => decide (a.start ≤ b.start)
  have hsorted := pairwise_mergeSort_lt hstarts
  have hjoined := applyAll_eq_joined hrange hapart hperm hsorted
  refine ⟨hjoined, fun edits' hedits => ?_, ?_, fun done e rest hsplit => ?_⟩
  · rw [hjoined]
    exact applyAll_eq_joined (fun e he => hrange e (hedits.mem_iff.mp he))
      (hedits.symm.pairwise hapart fun h => h.symm) (hperm.trans hedits.symm) hsorted
  · rw [hjoined, length_joined (ascending_of_sorted hperm hrange hapart hsorted),
      (hperm.map growth).sum_eq]
    omega
  · have hascending := ascending_mergeSort hrange hapart hstarts
    rw [hsplit] at hascending
    exact hascending.foldl_done

/-- Edits that touch, one of which only inserts, out of order. -/
def touching : List Edit := [⟨2, 4, "xyz"⟩, ⟨5, 6, []⟩, ⟨0, 1, "uv"⟩, ⟨1, 1, "w"⟩]

theorem applyAll_substitutes_touching :
    applyAll "abcdef" touching = "uvwbxyze" ∧
    ∀ edits, edits.Perm touching → applyAll "abcdef" edits = "uvwbxyze" := by
  have hrange : ∀ e ∈ touching, e.InRange "abcdef" := by decide
  have hapart : touching.Pairwise Apart := by decide
  obtain ⟨htext, hperm, -, -⟩ := applyAll_substitutes hrange hapart (by decide)
  have hsorted : touching.mergeSort (fun a b => a.start ≤ b.start) =
      [⟨0, 1, "uv"⟩, ⟨1, 1, "w"⟩, ⟨2, 4, "xyz"⟩, ⟨5, 6, []⟩] := by cbv
  rw [hsorted] at htext
  exact ⟨htext, fun edits hedits => (hperm edits hedits).trans htext⟩

end RetryWeave.Edit
