import Mathlib.Data.List.TakeWhile
import RetryWeave.Text.Bytes

/-! # Pieces of a text

A text is split at a byte into pieces that do not have it, and joining pieces undoes splitting. -/

namespace RetryWeave.Bytes

variable {sep : UInt8} {a b : Bytes}

/-! ## Starts and ends -/

theorem stripStart?_cons (x y : UInt8) (p b : Bytes) :
    stripStart? (x :: p) (y :: b) = if x = y then stripStart? p b else none := rfl

theorem stripStart?_eq_some_iff {p rest : Bytes} : stripStart? p b = some rest ↔ b = p ++ rest := by
  induction p generalizing b with
  | nil => simp [stripStart?]
  | cons x p ih =>
      cases b with
      | nil => simp [stripStart?]
      | cons y b =>
          rw [stripStart?_cons, Option.ite_none_right_eq_some, ih, List.cons_append, List.cons.injEq]
          exact and_congr_left fun _ => eq_comm

theorem stripStart?_append (p rest : Bytes) : stripStart? p (p ++ rest) = some rest :=
  stripStart?_eq_some_iff.mpr rfl

theorem startsWith_iff {p : Bytes} : startsWith p b = true ↔ p <+: b := by
  simp only [startsWith, Option.isSome_iff_exists, stripStart?_eq_some_iff]
  exact exists_congr fun _ => eq_comm

theorem stripEnd?_eq_some_iff {p front : Bytes} : stripEnd? p b = some front ↔ b = front ++ p := by
  simp only [stripEnd?, Option.map_eq_some_iff, stripStart?_eq_some_iff]
  constructor
  · rintro ⟨r, hr, rfl⟩
    rw [← List.reverse_reverse b, hr, List.reverse_append, List.reverse_reverse]
  · rintro rfl
    exact ⟨front.reverse, List.reverse_append, List.reverse_reverse front⟩

/-! ## Cutting -/

theorem cut?_singleton_cons (sep x : UInt8) (rest : Bytes) :
    cut? [sep] (x :: rest) =
      if sep = x then some ([], rest) else (cut? [sep] rest).map fun (a, b) => (x :: a, b) := by
  by_cases h : sep = x <;> simp [cut?, stripStart?, h]

theorem cut?_of_notMem (h : sep ∉ a) : cut? [sep] a = none := by
  induction a with
  | nil => rfl
  | cons x a ih =>
      rw [List.mem_cons, not_or] at h
      rw [cut?_singleton_cons, if_neg h.1, ih h.2]
      rfl

theorem cut?_append_cons (h : sep ∉ a) (rest : Bytes) :
    cut? [sep] (a ++ sep :: rest) = some (a, rest) := by
  induction a with
  | nil => rw [List.nil_append, cut?_singleton_cons, if_pos rfl]
  | cons x a ih =>
      rw [List.mem_cons, not_or] at h
      rw [List.cons_append, cut?_singleton_cons, if_neg h.1, ih h.2]
      rfl

/-! ## Splitting -/

theorem split_cons (sep x : UInt8) (rest : Bytes) :
    split sep (x :: rest) = if x = sep then [] :: split sep rest else
      match split sep rest with
      | [] => [[x]]
      | piece :: more => (x :: piece) :: more := rfl

theorem split_ne_nil (sep : UInt8) (b : Bytes) : split sep b ≠ [] := by
  cases b with
  | nil => exact List.cons_ne_nil _ _
  | cons x rest =>
      rw [split_cons]
      split
      · exact List.cons_ne_nil _ _
      · split <;> exact List.cons_ne_nil _ _

theorem split_of_notMem (h : sep ∉ b) : split sep b = [b] := by
  induction b with
  | nil => rfl
  | cons x rest ih =>
      rw [List.mem_cons, not_or] at h
      rw [split_cons, if_neg (Ne.symm h.1), ih h.2]

theorem split_append_cons (sep : UInt8) (a b : Bytes) :
    split sep (a ++ sep :: b) = split sep a ++ split sep b := by
  induction a with
  | nil => exact if_pos rfl
  | cons x a ih =>
      rw [List.cons_append, split_cons, split_cons, ih]
      split
      · rfl
      · obtain ⟨piece, more, hsplit⟩ := List.exists_cons_of_ne_nil (split_ne_nil sep a)
        rw [hsplit]
        rfl

theorem notMem_of_mem_split {piece : Bytes} (h : piece ∈ split sep b) : sep ∉ piece := by
  induction b generalizing piece with
  | nil =>
      rw [List.mem_singleton.mp h]
      exact List.not_mem_nil
  | cons x rest ih =>
      rw [split_cons] at h
      split at h
      · rcases List.mem_cons.mp h with rfl | h
        · exact List.not_mem_nil
        · exact ih h
      · rename_i hx
        obtain ⟨first, more, hsplit⟩ := List.exists_cons_of_ne_nil (split_ne_nil sep rest)
        rw [hsplit] at h ih
        rcases List.mem_cons.mp h with rfl | h
        · rw [List.mem_cons, not_or]
          exact ⟨Ne.symm hx, ih List.mem_cons_self⟩
        · exact ih (List.mem_cons_of_mem _ h)

theorem join_cons_cons (sep p q : Bytes) (more : List Bytes) :
    join sep (p :: q :: more) = p ++ sep ++ join sep (q :: more) := rfl

/-- Joining undoes splitting. -/
theorem split_join {pieces : List Bytes} (hne : pieces ≠ []) (h : ∀ p ∈ pieces, sep ∉ p) :
    split sep (join [sep] pieces) = pieces := by
  induction pieces with
  | nil => exact absurd rfl hne
  | cons p more ih =>
      have hp : split sep p = [p] := split_of_notMem (h p List.mem_cons_self)
      cases more with
      | nil => exact hp
      | cons q more =>
          have hmore := ih (List.cons_ne_nil _ _) fun r hr => h r (List.mem_cons_of_mem _ hr)
          rw [join_cons_cons, List.append_assoc, List.singleton_append, split_append_cons, hp, hmore,
            List.singleton_append]

/-! ## The last piece -/

theorem join_concat {sep : Bytes} {pieces : List Bytes} (hne : pieces ≠ []) (piece : Bytes) :
    join sep (pieces ++ [piece]) = join sep pieces ++ sep ++ piece := by
  induction pieces with
  | nil => exact absurd rfl hne
  | cons first rest ih =>
      cases rest with
      | nil => rfl
      | cons second rest =>
          have hrest := ih (List.cons_ne_nil _ _)
          rw [List.cons_append] at hrest
          rw [List.cons_append, List.cons_append, join_cons_cons, hrest, join_cons_cons]
          simp only [List.append_assoc]

theorem cutLast?_eq_none (h : cutLast? sep b = none) : sep ∉ b := by
  simp only [cutLast?] at h
  split at h
  · rename_i hdrop
    intro hmem
    have := List.dropWhile_eq_nil_iff.mp hdrop sep (List.mem_reverse.mpr hmem)
    simp at this
  · cases h

theorem cutLast?_eq_some {before after : Bytes} (h : cutLast? sep b = some (before, after)) :
    b = before ++ sep :: after ∧ sep ∉ after := by
  simp only [cutLast?] at h
  split at h
  · cases h
  · rename_i x rest hdrop
    cases h
    have hx : x = sep := by
      have hhead := List.head?_dropWhile_not (fun y => decide (y ≠ sep)) b.reverse
      rw [hdrop] at hhead
      simpa using hhead
    subst hx
    have happend : b.reverse.takeWhile (· ≠ x) ++ x :: rest = b.reverse := by
      rw [← hdrop, List.takeWhile_append_dropWhile]
    refine ⟨?_, fun hmem => ?_⟩
    · calc b = b.reverse.reverse := (List.reverse_reverse b).symm
        _ = (b.reverse.takeWhile (· ≠ x) ++ x :: rest).reverse := by rw [happend]
        _ = rest.reverse ++ x :: (b.reverse.takeWhile (· ≠ x)).reverse := by simp
    · have := List.mem_takeWhile_imp (List.mem_reverse.mp hmem)
      simp at this

theorem cutLast?_append_cons (h : sep ∉ b) : cutLast? sep (a ++ sep :: b) = some (a, b) := by
  have hb : ∀ x ∈ b.reverse, decide (x ≠ sep) = true := by
    intro x hx
    rw [decide_eq_true_eq]
    rintro rfl
    exact h (List.mem_reverse.mp hx)
  have hreverse : (a ++ sep :: b).reverse = b.reverse ++ sep :: a.reverse := by simp
  simp only [cutLast?, hreverse]
  rw [List.takeWhile_append_of_pos hb, List.dropWhile_append_of_pos hb]
  simp

/-- The last piece of a text is what stands after the last separator. -/
theorem getLast?_split (sep : UInt8) (b : Bytes) :
    (split sep b).getLast? = some (((cutLast? sep b).map (·.2)).getD b) := by
  cases h : cutLast? sep b with
  | none => rw [split_of_notMem (cutLast?_eq_none h)]; rfl
  | some parts =>
      obtain ⟨hb, hafter⟩ := cutLast?_eq_some h
      rw [hb, split_append_cons, split_of_notMem hafter, List.getLast?_append]
      rfl

end RetryWeave.Bytes
