import RetryWeave.Path
import RetryWeave.Proofs.Text.Pieces

/-! # Elements of paths

A path in its shortest form is its elements with slashes between them. Joining a path that does not
lead upwards to another one puts its elements after those of the other. -/

namespace RetryWeave.Path

/-! ## Elements -/

/-- What can stand between the slashes of a path and counts: neither nothing nor `.`. -/
structure IsElement (e : Bytes) : Prop where
  ne_nil : e ≠ []
  ne_dot : e ≠ [Ascii.dot]
  slash_notMem : Ascii.slash ∉ e

instance (e : Bytes) : Decidable (IsElement e) :=
  decidable_of_iff (e ≠ [] ∧ e ≠ [Ascii.dot] ∧ Ascii.slash ∉ e)
    ⟨fun h => ⟨h.1, h.2.1, h.2.2⟩, fun h => ⟨h.ne_nil, h.ne_dot, h.slash_notMem⟩⟩

theorem isElement_of_mem_elements {p e : Bytes} (h : e ∈ elements p) : IsElement e := by
  obtain ⟨hmem, hkeep⟩ := List.mem_filter.mp h
  simp only [Bool.not_eq_true', Bool.or_eq_false_iff, beq_eq_false_iff_ne] at hkeep
  exact ⟨hkeep.1, hkeep.2, Bytes.notMem_of_mem_split hmem⟩

theorem elements_append_slash (a b : Bytes) :
    elements (a ++ Ascii.slash :: b) = elements a ++ elements b := by
  rw [elements, Bytes.split_append_cons, List.filter_append]
  rfl

theorem elements_cons_slash (p : Bytes) : elements (Ascii.slash :: p) = elements p :=
  elements_append_slash [] p

theorem elements_join {es : List Bytes} (h : ∀ e ∈ es, IsElement e) :
    elements (Bytes.join [Ascii.slash] es) = es := by
  cases es with
  | nil => rfl
  | cons e rest =>
      rw [elements, Bytes.split_join (List.cons_ne_nil _ _) fun x hx => (h x hx).slash_notMem,
        List.filter_eq_self]
      intro x hx
      simp [(h x hx).ne_nil, (h x hx).ne_dot]

theorem IsElement.elements_eq {e : Bytes} (h : IsElement e) : elements e = [e] := by
  have helement : ∀ x ∈ [e], IsElement x := by simpa using h
  exact elements_join helement

/-- A text that has an element in front of its first slash. -/
theorem isElement_of_join_eq {es : List Bytes} (h : ∀ e ∈ es, IsElement e) {front rest : Bytes}
    (hfront : Ascii.slash ∉ front)
    (heq : Bytes.join [Ascii.slash] es = front ++ Ascii.slash :: rest) : IsElement front := by
  cases es with
  | nil => simp [Bytes.join] at heq
  | cons e es =>
      have hsplit : Bytes.split Ascii.slash (Bytes.join [Ascii.slash] (e :: es)) = e :: es :=
        Bytes.split_join (List.cons_ne_nil e es) fun x hx => (h x hx).slash_notMem
      rw [heq, Bytes.split_append_cons, Bytes.split_of_notMem hfront] at hsplit
      rw [(List.cons.inj hsplit).1]
      exact h e List.mem_cons_self

/-- The elements of a path are found in its text. -/
theorem elements_ofElements {rooted : Bool} {es : List Bytes} (h : ∀ e ∈ es, IsElement e) :
    elements (ofElements rooted es) = es := by
  unfold ofElements
  split
  · rw [elements_cons_slash, elements_join h]
  · split
    · rename_i hempty
      rw [List.isEmpty_iff.mp hempty]
      rfl
    · exact elements_join h

theorem isAbs_ofElements {rooted : Bool} {es : List Bytes} (h : ∀ e ∈ es, IsElement e) :
    isAbs (ofElements rooted es) = rooted := by
  cases rooted with
  | true => rfl
  | false =>
      cases es with
      | nil => rfl
      | cons e rest =>
          have he := h e List.mem_cons_self
          obtain ⟨b, e', rfl⟩ := List.exists_cons_of_ne_nil he.ne_nil
          have hb : b ≠ Ascii.slash := fun hb => he.slash_notMem (hb ▸ List.mem_cons_self)
          cases rest <;> simp [ofElements, Bytes.join, isAbs, hb]

/-! ## Cleaning -/

theorem pushElement_of_ne {rooted : Bool} {stack : List Bytes} {e : Bytes} (h : e ≠ dotDot) :
    pushElement rooted stack e = e :: stack :=
  if_neg (by simpa using h)

theorem mem_pushElement {rooted : Bool} {stack : List Bytes} {e x : Bytes}
    (h : x ∈ pushElement rooted stack e) : x = e ∨ x ∈ stack := by
  by_cases he : e = dotDot
  · subst he
    cases stack with
    | nil => cases rooted <;> simp_all [pushElement]
    | cons top below =>
        simp only [pushElement, beq_self_eq_true, if_true] at h
        split at h
        · exact List.mem_cons.mp h
        · exact .inr (List.mem_cons_of_mem _ h)
  · rw [pushElement_of_ne he] at h
    exact List.mem_cons.mp h

theorem foldl_pushElement_of_notMem {rooted : Bool} {names : List Bytes} (h : dotDot ∉ names)
    (stack : List Bytes) :
    names.foldl (pushElement rooted) stack = names.reverse ++ stack := by
  induction names generalizing stack with
  | nil => rfl
  | cons name names ih =>
      rw [List.mem_cons, not_or] at h
      rw [List.foldl_cons, pushElement_of_ne (Ne.symm h.1), ih h.2, List.reverse_cons,
        List.append_assoc, List.singleton_append]

/-- What does not lead upwards is kept by cleaning. -/
theorem cleanElements_append {rooted : Bool} {es names : List Bytes} (h : dotDot ∉ names) :
    cleanElements rooted (es ++ names) = cleanElements rooted es ++ names := by
  rw [cleanElements, List.foldl_append, foldl_pushElement_of_notMem h, List.reverse_append,
    List.reverse_reverse, cleanElements]

theorem mem_of_mem_foldl_pushElement {rooted : Bool} {es stack : List Bytes} {e : Bytes}
    (h : e ∈ es.foldl (pushElement rooted) stack) : e ∈ es ∨ e ∈ stack := by
  induction es generalizing stack with
  | nil => exact .inr h
  | cons x es ih =>
      rcases ih h with hmem | hmem
      · exact .inl (List.mem_cons_of_mem _ hmem)
      · rcases mem_pushElement hmem with rfl | hstack
        · exact .inl List.mem_cons_self
        · exact .inr hstack

theorem isElement_of_mem_cleanElements {rooted : Bool} {p e : Bytes}
    (h : e ∈ cleanElements rooted (elements p)) : IsElement e := by
  rcases mem_of_mem_foldl_pushElement (List.mem_reverse.mp h) with hmem | hmem
  · exact isElement_of_mem_elements hmem
  · cases hmem

/-- The elements of the shortest form of a path. -/
def cleaned (p : Bytes) : List Bytes := cleanElements (isAbs p) (elements p)

/-- A path that does not lead upwards, joined to another one. -/
theorem join_eq_ofElements {dir rel : Bytes} (hdir : dir ≠ []) (hrel : rel ≠ [])
    (hup : dotDot ∉ elements rel) :
    join [dir, rel] = ofElements (isAbs dir) (cleaned dir ++ elements rel) := by
  have habs : isAbs (dir ++ Ascii.slash :: rel) = isAbs dir := by
    cases dir with
    | nil => exact absurd rfl hdir
    | cons b dir => rfl
  have hparts : [dir, rel].filter (· ≠ []) = [dir, rel] := by simp [hdir, hrel]
  rw [join, hparts]
  simp only [Bytes.join, clean, List.append_assoc, List.singleton_append]
  rw [habs, elements_append_slash, cleanElements_append hup, cleaned]

theorem isElement_of_mem_cleaned_append {dir rel e : Bytes} (h : e ∈ cleaned dir ++ elements rel) :
    IsElement e := by
  rcases List.mem_append.mp h with h | h
  · exact isElement_of_mem_cleanElements h
  · exact isElement_of_mem_elements h

theorem elements_join_pair {dir rel : Bytes} (hdir : dir ≠ []) (hrel : rel ≠ [])
    (hup : dotDot ∉ elements rel) : elements (join [dir, rel]) = cleaned dir ++ elements rel := by
  rw [join_eq_ofElements hdir hrel hup]
  exact elements_ofElements fun e => isElement_of_mem_cleaned_append

theorem isAbs_join_pair {dir rel : Bytes} (hdir : dir ≠ []) (hrel : rel ≠ [])
    (hup : dotDot ∉ elements rel) : isAbs (join [dir, rel]) = isAbs dir := by
  rw [join_eq_ofElements hdir hrel hup]
  exact isAbs_ofElements fun e => isElement_of_mem_cleaned_append

/-! ## The last element -/

/-- A path that does not end with a slash ends with its base. -/
theorem base_eq_of_getLast? {p name : Bytes} (h : (Bytes.split Ascii.slash p).getLast? = some name)
    (hname : name ≠ []) : base p = name := by
  rw [Bytes.getLast?_split] at h
  have hend : ∀ a b : Bytes, b ≠ [] → Ascii.slash ∉ b →
      Bytes.trimEndWhile (· == Ascii.slash) (a ++ b) = a ++ b := by
    intro a b hb hslash
    have hx : (b.getLast hb == Ascii.slash) = false := by
      rw [beq_eq_false_iff_ne]
      intro heq
      exact hslash (heq ▸ List.getLast_mem hb)
    rw [← List.dropLast_concat_getLast hb]
    simp [Bytes.trimEndWhile, hx]
  cases hcut : Bytes.cutLast? Ascii.slash p with
  | none =>
      rw [hcut] at h
      obtain rfl : p = name := by simpa using h
      have htrim := hend [] p hname (Bytes.cutLast?_eq_none hcut)
      rw [List.nil_append] at htrim
      simp [base, htrim, hcut, hname]
  | some parts =>
      obtain ⟨before, after⟩ := parts
      rw [hcut] at h
      obtain rfl : after = name := by simpa using h
      obtain ⟨rfl, hslash⟩ := Bytes.cutLast?_eq_some hcut
      have htrim := hend (before ++ [Ascii.slash]) after hname hslash
      rw [List.append_assoc, List.singleton_append] at htrim
      simp [base, htrim, hcut]

/-- The base of a path has no slash unless it is one. -/
theorem slash_notMem_base {p : Bytes} (h : base p ≠ [Ascii.slash]) : Ascii.slash ∉ base p := by
  unfold base at h ⊢
  split at h
  · rename_i hempty
    rw [if_pos hempty]
    decide
  · rename_i hempty
    rw [if_neg hempty]
    simp only at h ⊢
    split at h
    · exact absurd rfl h
    · rename_i htrimmed
      rw [if_neg htrimmed]
      cases hcut : Bytes.cutLast? Ascii.slash (Bytes.trimEndWhile (· == Ascii.slash) p) with
      | none => exact Bytes.cutLast?_eq_none hcut
      | some parts => exact (Bytes.cutLast?_eq_some hcut).2

end RetryWeave.Path
