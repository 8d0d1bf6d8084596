import Mathlib.Data.List.Basic
import Mathlib.Data.List.Infix
import Mathlib.Logic.Function.Iterate
import RetryWeave.Files.Memory
import RetryWeave.Proofs.Files.Scanning

/-! # Paths in their shortest form

A path in its shortest form first leads upwards, if it is not absolute, and then down by names. The
way up from such a path takes its elements off one after the other, and what lies below a directory
has the elements of the directory first. -/

namespace RetryWeave.Path

variable {rooted : Bool} {es names : List Bytes} {p q d : Bytes}

/-! ## Shortest forms -/

/-- Elements as cleaning leaves them: the ways up, which an absolute path does not have, and then
names. -/
def Settled (rooted : Bool) (es : List Bytes) : Prop :=
  ∃ ups names, es = List.replicate ups dotDot ++ names ∧ (∀ name ∈ names, IsName name) ∧
    (rooted = true → ups = 0)

theorem isElement_dotDot : IsElement dotDot := ⟨by decide, by decide, by decide⟩

namespace Settled

theorem nil (rooted : Bool) : Settled rooted [] := ⟨0, [], rfl, by simp, fun _ => rfl⟩

theorem isElement (h : Settled rooted es) : ∀ e ∈ es, IsElement e := by
  obtain ⟨ups, names, rfl, hnames, -⟩ := h
  intro e he
  rcases List.mem_append.mp he with he | he
  · rw [(List.mem_replicate.mp he).2]
    exact isElement_dotDot
  · exact (hnames e he).toIsElement

theorem append (h : Settled rooted es) (hnames : ∀ name ∈ names, IsName name) :
    Settled rooted (es ++ names) := by
  obtain ⟨ups, before, rfl, hbefore, hups⟩ := h
  refine ⟨ups, before ++ names, List.append_assoc _ _ _, fun name hname => ?_, hups⟩
  rcases List.mem_append.mp hname with hname | hname
  · exact hbefore name hname
  · exact hnames name hname

theorem dropLast (h : Settled rooted es) : Settled rooted es.dropLast := by
  obtain ⟨ups, names, rfl, hnames, hups⟩ := h
  rcases List.eq_nil_or_concat names with rfl | ⟨before, last, rfl⟩
  · refine ⟨ups - 1, [], ?_, by simp, fun hr => by rw [hups hr]⟩
    simp [List.dropLast_replicate]
  · rw [List.concat_eq_append] at hnames ⊢
    refine ⟨ups, before, ?_, fun name hname => hnames name (List.mem_append_left _ hname), hups⟩
    rw [← List.append_assoc, List.dropLast_concat]

theorem take (h : Settled rooted es) (n : Nat) : Settled rooted (es.take n) := by
  obtain ⟨ups, names, rfl, hnames, hups⟩ := h
  refine ⟨min n ups, names.take (n - ups), ?_, fun name hname => ?_, fun hr => ?_⟩
  · rw [List.take_append, List.take_replicate, List.length_replicate]
  · exact hnames name (List.mem_of_mem_take hname)
  · rw [hups hr, Nat.min_zero]

theorem of_prefix {es' : List Bytes} (h : Settled rooted es) (hes : es' <+: es) :
    Settled rooted es' := by
  rw [List.prefix_iff_eq_take.mp hes]
  exact h.take _

/-- After a way that is no way up there are only names. -/
theorem isName_of_append {more : List Bytes} (h : Settled rooted (es ++ more))
    (hmore : more.head? ≠ some dotDot) : ∀ name ∈ more, IsName name := by
  obtain ⟨ups, names, heq, hnames, -⟩ := h
  rcases List.append_eq_append_iff.mp heq with ⟨ways, hups, rfl⟩ | ⟨before, -, rfl⟩
  · have hways : ways = [] := by
      cases ways with
      | nil => rfl
      | cons way ways =>
          have hway : way = dotDot :=
            (List.mem_replicate.mp (hups ▸ List.mem_append_right es List.mem_cons_self)).2
          exact absurd (congrArg some hway) hmore
    rw [hways, List.nil_append]
    exact hnames
  · exact fun name hname => hnames name (List.mem_append_right before hname)

end Settled

theorem settled_pushElement {stack : List Bytes} {e : Bytes} (h : Settled rooted stack.reverse)
    (he : IsElement e) : Settled rooted (pushElement rooted stack e).reverse := by
  by_cases hup : e = dotDot
  · subst hup
    cases stack with
    | nil =>
        cases rooted with
        | true => exact .nil true
        | false => exact ⟨1, [], rfl, by simp, nofun⟩
    | cons top below =>
        have hbelow := h.dropLast
        rw [List.reverse_cons, List.dropLast_concat] at hbelow
        by_cases htop : top = dotDot
        · -- a way up stays above other ways up
          subst htop
          obtain ⟨ups, names, heq, hnames, hups⟩ := h
          rcases List.eq_nil_or_concat names with rfl | ⟨before, last, rfl⟩
          · have hpush : pushElement rooted (dotDot :: below) dotDot = dotDot :: dotDot :: below :=
              rfl
            rw [List.append_nil] at heq
            refine ⟨ups + 1, [], ?_, by simp, fun hr => ?_⟩
            · rw [hpush, List.reverse_cons, heq, List.append_nil, List.replicate_succ']
            · rw [hups hr] at heq
              simp at heq
          · rw [List.reverse_cons, List.concat_eq_append, ← List.append_assoc] at heq
            have hlast : IsName last := hnames last (by simp)
            exact absurd (List.append_inj_right' heq rfl) (by simpa using hlast.ne_dotDot.symm)
        · have hpush : pushElement rooted (top :: below) dotDot = below := by
            simp [pushElement, htop]
          rw [hpush]
          exact hbelow
  · rw [pushElement_of_ne hup, List.reverse_cons]
    exact h.append (by simpa using ⟨he, hup⟩)

theorem settled_cleanElements (h : ∀ e ∈ es, IsElement e) :
    Settled rooted (cleanElements rooted es) := by
  suffices hfold : ∀ stack : List Bytes, Settled rooted stack.reverse →
      Settled rooted (es.foldl (pushElement rooted) stack).reverse from hfold [] (.nil rooted)
  induction es with
  | nil => exact fun _ hstack => hstack
  | cons e es ih =>
      rw [List.forall_mem_cons] at h
      exact fun stack hstack => ih h.2 _ (settled_pushElement hstack h.1)

theorem foldl_pushElement_replicate (ups n : Nat) :
    (List.replicate ups dotDot).foldl (pushElement false) (List.replicate n dotDot) =
      List.replicate (ups + n) dotDot := by
  induction ups generalizing n with
  | zero => rw [Nat.zero_add]; rfl
  | succ ups ih =>
      have hpush : pushElement false (List.replicate n dotDot) dotDot =
          List.replicate (n + 1) dotDot := by
        cases n <;> rfl
      rw [List.replicate_succ, List.foldl_cons, hpush, ih, Nat.succ_add_eq_add_succ]

/-- Cleaning leaves a shortest form as it is. -/
theorem cleanElements_of_settled (h : Settled rooted es) : cleanElements rooted es = es := by
  obtain ⟨ups, names, rfl, hnames, hups⟩ := h
  rw [cleanElements_append fun hmem => (hnames _ hmem).ne_dotDot rfl, cleanElements]
  cases rooted with
  | true => rw [hups rfl]; rfl
  | false =>
      have hfold := foldl_pushElement_replicate ups 0
      rw [List.replicate_zero, Nat.add_zero] at hfold
      rw [hfold, List.reverse_replicate]

/-! ## Clean paths -/

/-- A path in its shortest form. -/
def IsClean (p : Bytes) : Prop := clean p = p

instance (p : Bytes) : Decidable (IsClean p) := inferInstanceAs (Decidable (clean p = p))

theorem isClean_ofElements (h : Settled rooted es) : IsClean (ofElements rooted es) := by
  rw [IsClean, clean, isAbs_ofElements h.isElement, elements_ofElements h.isElement,
    cleanElements_of_settled h]

theorem isClean_clean (p : Bytes) : IsClean (clean p) :=
  isClean_ofElements (settled_cleanElements fun _ => isElement_of_mem_elements)

namespace IsClean

theorem settled (h : IsClean p) : Settled (isAbs p) (elements p) := by
  have hsettled : Settled (isAbs p) (cleanElements (isAbs p) (elements p)) :=
    settled_cleanElements fun _ => isElement_of_mem_elements
  have helements : elements (clean p) = cleanElements (isAbs p) (elements p) :=
    elements_ofElements hsettled.isElement
  rw [h] at helements
  rw [helements]
  exact hsettled

theorem eq_ofElements (h : IsClean p) : p = ofElements (isAbs p) (elements p) := by
  rw [← cleanElements_of_settled h.settled]
  exact h.symm

/-- A clean path is known by whether it is absolute and by its elements. -/
theorem ext (hp : IsClean p) (hq : IsClean q) (habs : isAbs p = isAbs q)
    (helements : elements p = elements q) : p = q := by
  rw [hp.eq_ofElements, hq.eq_ofElements, habs, helements]

theorem ne_nil (h : IsClean p) : p ≠ [] := by
  rintro rfl
  exact absurd h (by decide)

end IsClean

/-- A clean path that is absolute leads down only. -/
theorem IsClean.isName_of_isAbs (h : IsClean p) (habs : isAbs p = true) :
    ∀ name ∈ elements p, IsName name := by
  obtain ⟨ups, names, heq, hnames, hups⟩ := h.settled
  rw [hups habs, List.replicate_zero, List.nil_append] at heq
  rw [heq]
  exact hnames

/-! ## The text in front of the last element -/

/-- What the texts of all paths below a directory begin with. -/
def lead (rooted : Bool) (es : List Bytes) : Bytes :=
  (if rooted then [Ascii.slash] else []) ++ es.flatMap (· ++ [Ascii.slash])

theorem join_concat_eq_flatMap (es : List Bytes) (e : Bytes) :
    Bytes.join [Ascii.slash] (es ++ [e]) = es.flatMap (· ++ [Ascii.slash]) ++ e := by
  induction es with
  | nil => rfl
  | cons first es ih =>
      rw [List.flatMap_cons, List.append_assoc, List.append_assoc, ← ih]
      cases es <;> simp [Bytes.join]

theorem ofElements_concat (rooted : Bool) (es : List Bytes) (e : Bytes) :
    ofElements rooted (es ++ [e]) = lead rooted es ++ e := by
  cases rooted <;> simp [ofElements, lead, join_concat_eq_flatMap]

theorem lead_concat (rooted : Bool) (es : List Bytes) (e : Bytes) :
    lead rooted (es ++ [e]) = lead rooted es ++ e ++ [Ascii.slash] := by
  simp [lead, List.flatMap_append]

theorem elements_lead_append (rooted : Bool) (h : ∀ e ∈ es, IsElement e) (rest : Bytes) :
    elements (lead rooted es ++ rest) = es ++ elements rest := by
  have hflat : elements (es.flatMap (· ++ [Ascii.slash]) ++ rest) = es ++ elements rest := by
    induction es with
    | nil => rfl
    | cons e es ih =>
        rw [List.forall_mem_cons] at h
        rw [List.flatMap_cons, List.append_assoc, List.append_assoc, List.singleton_append,
          elements_append_slash, ih h.2, h.1.elements_eq]
        rfl
  cases rooted with
  | false => exact hflat
  | true => simpa [lead, elements_cons_slash] using hflat

theorem isAbs_lead_append (h : ∀ e ∈ es, IsElement e) (hlead : rooted = true ∨ es ≠ [])
    (rest : Bytes) : isAbs (lead rooted es ++ rest) = rooted := by
  cases rooted with
  | true => rfl
  | false =>
      obtain ⟨e, es, rfl⟩ := List.exists_cons_of_ne_nil (hlead.resolve_left nofun)
      have he := h e List.mem_cons_self
      obtain ⟨b, e', rfl⟩ := List.exists_cons_of_ne_nil he.ne_nil
      have hb : b ≠ Ascii.slash := fun hb => he.slash_notMem (hb ▸ List.mem_cons_self)
      simp [lead, isAbs, hb]

/-! ## The way up -/

theorem dirPart_ofElements_concat {e : Bytes} (he : IsElement e) :
    dirPart (ofElements rooted (es ++ [e])) = lead rooted es := by
  rw [ofElements_concat, dirPart]
  rcases List.eq_nil_or_concat es with rfl | ⟨before, last, rfl⟩
  · cases rooted with
    | true =>
        have hcut := Bytes.cutLast?_append_cons (a := []) he.slash_notMem
        simp only [lead, List.flatMap_nil, if_true, List.append_nil, List.singleton_append]
        rw [← List.nil_append (Ascii.slash :: e), hcut]
        rfl
    | false =>
        cases hcut : Bytes.cutLast? Ascii.slash e with
        | none => simp [lead, hcut]
        | some parts =>
            obtain ⟨heq, -⟩ := Bytes.cutLast?_eq_some hcut
            exact absurd (heq ▸ List.mem_append_right _ List.mem_cons_self) he.slash_notMem
  · rw [List.concat_eq_append, lead_concat, List.append_assoc, List.singleton_append,
      Bytes.cutLast?_append_cons he.slash_notMem]

/-- The directory of a path in its shortest form is the path without its last element. -/
theorem dir_ofElements (h : Settled rooted es) :
    dir (ofElements rooted es) = ofElements rooted es.dropLast := by
  rcases List.eq_nil_or_concat es with rfl | ⟨before, last, rfl⟩
  · cases rooted <;> decide
  · rw [List.concat_eq_append] at h ⊢
    have hbefore : Settled rooted before := h.of_prefix (List.prefix_append _ _)
    rw [dir, dirPart_ofElements_concat (h.isElement last (by simp)), List.dropLast_concat]
    by_cases hlead : rooted = true ∨ before ≠ []
    · have helements := elements_lead_append rooted hbefore.isElement []
      have habs := isAbs_lead_append hbefore.isElement hlead []
      rw [List.append_nil] at helements habs
      have hnil : elements [] = [] := rfl
      rw [clean, helements, habs, hnil, List.append_nil, cleanElements_of_settled hbefore]
    · rw [not_or, not_not, Bool.not_eq_true] at hlead
      obtain ⟨rfl, rfl⟩ := hlead
      rfl

theorem dir_iterate_ofElements (h : Settled rooted es) (n : Nat) :
    dir^[n] (ofElements rooted es) = ofElements rooted (es.take (es.length - n)) := by
  induction n with
  | zero => simp
  | succ n ih =>
      rw [Function.iterate_succ_apply', ih, dir_ofElements (h.take _), List.dropLast_eq_take,
        List.take_take, List.length_take]
      congr 2
      omega

/-- One path is found on the way up from another one. -/
def Above (a p : Bytes) : Prop := a ≠ p ∧ ∃ n, dir^[n] p = a

/-- On the way up from a clean path are those that have fewer of its elements. -/
theorem above_iff {a : Bytes} (hp : IsClean p) :
    Above a p ↔ IsClean a ∧ isAbs a = isAbs p ∧ elements a <+: elements p ∧ a ≠ p := by
  constructor
  · rintro ⟨hne, n, rfl⟩
    have hiter := dir_iterate_ofElements hp.settled n
    have htake := hp.settled.take ((elements p).length - n)
    rw [← hp.eq_ofElements] at hiter
    refine ⟨?_, ?_, ?_, hne⟩
    · rw [hiter]
      exact isClean_ofElements htake
    · rw [hiter, isAbs_ofElements htake.isElement]
    · rw [hiter, elements_ofElements htake.isElement]
      exact List.take_prefix _ _
  · rintro ⟨ha, habs, hstart, hne⟩
    refine ⟨hne, (elements p).length - (elements a).length, ?_⟩
    have hiter := dir_iterate_ofElements hp.settled ((elements p).length - (elements a).length)
    rw [← hp.eq_ofElements] at hiter
    rw [hiter, Nat.sub_sub_self hstart.length_le, ← List.prefix_iff_eq_take.mp hstart, ← habs,
      ← ha.eq_ofElements]

theorem Above.isClean {a : Bytes} (h : Above a p) (hp : IsClean p) : IsClean a :=
  ((above_iff hp).mp h).1

theorem Above.trans {a b : Bytes} (hab : Above a b) (hbp : Above b p) (hp : IsClean p) :
    Above a p := by
  obtain ⟨hb, hbabs, hbstart, hbne⟩ := (above_iff hp).mp hbp
  obtain ⟨ha, haabs, hastart, hane⟩ := (above_iff hb).mp hab
  refine (above_iff hp).mpr ⟨ha, haabs.trans hbabs, hastart.trans hbstart, ?_⟩
  rintro rfl
  exact hane (ha.ext hb haabs
    (hastart.eq_of_length (le_antisymm hastart.length_le hbstart.length_le)))

theorem above_dir (h : dir p ≠ p) : Above (dir p) p := ⟨h, 1, rfl⟩

/-! ### The top -/

/-- There is nothing above a path but itself. -/
def Topmost (p : Bytes) : Prop := p = [Ascii.slash] ∨ p = [Ascii.dot]

theorem topmost_iff (hp : IsClean p) : Topmost p ↔ elements p = [] := by
  constructor
  · rintro (rfl | rfl) <;> rfl
  · intro hnil
    rw [hp.eq_ofElements, hnil]
    cases isAbs p
    · exact .inr rfl
    · exact .inl rfl

theorem dir_ne_self (hp : IsClean p) (htop : ¬ Topmost p) : dir p ≠ p := by
  intro heq
  have hdir := dir_ofElements hp.settled
  rw [← hp.eq_ofElements, heq] at hdir
  have helements := congrArg elements hdir
  rw [elements_ofElements hp.settled.dropLast.isElement] at helements
  have hlength := congrArg List.length helements
  rw [List.length_dropLast] at hlength
  refine htop ((topmost_iff hp).mpr (List.eq_nil_of_length_eq_zero ?_))
  omega

theorem isClean_dir (p : Bytes) : IsClean (dir p) := isClean_clean _

theorem length_elements_dir (hp : IsClean p) :
    (elements (dir p)).length = (elements p).length - 1 := by
  have hdir := dir_ofElements hp.settled
  rw [← hp.eq_ofElements] at hdir
  rw [hdir, elements_ofElements hp.settled.dropLast.isElement, List.length_dropLast]

theorem length_elements_le (hp : IsClean p) : (elements p).length ≤ p.length := by
  have hlead : ∀ es : List Bytes,
      es.length ≤ (es.flatMap (· ++ [Ascii.slash])).length := by
    intro es
    induction es with
    | nil => exact Nat.le_refl _
    | cons e es ih =>
        simp only [List.flatMap_cons, List.length_append, List.length_cons, List.length_nil]
        omega
  rcases List.eq_nil_or_concat (elements p) with hnil | ⟨before, last, heq⟩
  · rw [hnil]
    exact Nat.zero_le _
  · rw [List.concat_eq_append] at heq
    have helement := hp.settled.isElement last (heq ▸ by simp)
    have hlast : 0 < last.length := List.length_pos_of_ne_nil helement.ne_nil
    have hbefore := hlead before
    have hp' := hp.eq_ofElements
    rw [heq, ofElements_concat, lead] at hp'
    rw [heq, hp']
    simp only [List.length_append, List.length_cons, List.length_nil]
    omega

/-! ## The way down -/

/-- One path is reached from another one by the names of entries of directories. -/
def Below (d p : Bytes) : Prop :=
  ∃ names, names ≠ [] ∧ (∀ name ∈ names, IsName name) ∧ p = join (d :: names)

/-- One path is reached from another one by first going upwards. -/
def ClimbsFrom (d p : Bytes) : Prop :=
  isAbs p = isAbs d ∧ elements d ++ [dotDot] <+: elements p

theorem isAbs_append (h : d ≠ []) (rest : Bytes) : isAbs (d ++ rest) = isAbs d := by
  obtain ⟨b, d, rfl⟩ := List.exists_cons_of_ne_nil h
  rfl

theorem join_cons_of_names (hd : IsClean d) (hnames : ∀ name ∈ names, IsName name) :
    join (d :: names) = ofElements (isAbs d) (elements d ++ names) := by
  have hpresent : (d :: names).filter (· ≠ []) = d :: names := by
    rw [List.filter_eq_self, List.forall_mem_cons]
    exact ⟨by simpa using hd.ne_nil, fun name hname => by simpa using (hnames name hname).ne_nil⟩
  have htext : elements (Bytes.join [Ascii.slash] (d :: names)) = elements d ++ names ∧
      isAbs (Bytes.join [Ascii.slash] (d :: names)) = isAbs d := by
    cases names with
    | nil => exact ⟨(List.append_nil _).symm, rfl⟩
    | cons name rest =>
        have hjoin : Bytes.join [Ascii.slash] (d :: name :: rest) =
            d ++ Ascii.slash :: Bytes.join [Ascii.slash] (name :: rest) := by
          simp [Bytes.join]
        rw [hjoin, elements_append_slash, elements_join fun e he => (hnames e he).toIsElement]
        exact ⟨rfl, isAbs_append hd.ne_nil _⟩
  rw [join, hpresent]
  simp only [clean, htext.1, htext.2, cleanElements_of_settled (hd.settled.append hnames)]

theorem below_iff (hd : IsClean d) : Below d p ↔ ∃ names, names ≠ [] ∧
    (∀ name ∈ names, IsName name) ∧ p = ofElements (isAbs d) (elements d ++ names) := by
  refine exists_congr fun names => and_congr_right fun _ => and_congr_right fun hnames => ?_
  rw [join_cons_of_names hd hnames]

theorem Below.isClean (h : Below d p) (hd : IsClean d) : IsClean p := by
  obtain ⟨names, -, hnames, rfl⟩ := (below_iff hd).mp h
  exact isClean_ofElements (hd.settled.append hnames)

theorem Below.spec (h : Below d p) (hd : IsClean d) : isAbs p = isAbs d ∧
    ∃ names, names ≠ [] ∧ (∀ name ∈ names, IsName name) ∧ elements p = elements d ++ names := by
  obtain ⟨names, hne, hnames, rfl⟩ := (below_iff hd).mp h
  have helement := (hd.settled.append hnames).isElement
  exact ⟨isAbs_ofElements helement, names, hne, hnames, elements_ofElements helement⟩

/-- A clean path whose elements begin with those of another one is that path, lies below it or climbs
from it. -/
theorem eq_or_below_or_climbs (hd : IsClean d) (hp : IsClean p) (habs : isAbs p = isAbs d)
    (hstart : elements d <+: elements p) : p = d ∨ Below d p ∨ ClimbsFrom d p := by
  obtain ⟨more, hmore⟩ := hstart
  rcases more with _ | ⟨first, rest⟩
  · exact .inl (hp.ext hd habs (by rw [← hmore, List.append_nil]))
  · have hsettled := hp.settled
    rw [← hmore] at hsettled
    by_cases hup : first = dotDot
    · refine .inr (.inr ⟨habs, rest, ?_⟩)
      rw [List.append_assoc, List.singleton_append, ← hup, hmore]
    · refine .inr (.inl ((below_iff hd).mpr ⟨first :: rest, List.cons_ne_nil _ _, ?_, ?_⟩))
      · exact hsettled.isName_of_append (by simpa using hup)
      · rw [hmore, ← habs, ← hp.eq_ofElements]

theorem Below.not_climbsFrom (h : Below d p) (hd : IsClean d) : ¬ ClimbsFrom d p := by
  rintro ⟨-, rest, hrest⟩
  obtain ⟨-, names, -, hnames, helements⟩ := h.spec hd
  rw [helements, List.append_assoc, List.append_cancel_left_eq] at hrest
  exact (hnames dotDot (hrest ▸ List.mem_cons_self)).ne_dotDot rfl

theorem not_climbsFrom_of_isAbs (hp : IsClean p) (habs : isAbs d = true) : ¬ ClimbsFrom d p := by
  rintro ⟨hp', rest, hrest⟩
  have hname := hp.isName_of_isAbs (hp'.trans habs) dotDot (by rw [← hrest]; simp)
  exact hname.ne_dotDot rfl

/-- Absolute paths that are above others are those that the others lie below. -/
theorem above_iff_below (hd : IsClean d) (hp : IsClean p) (habs : isAbs d = true) :
    Above d p ↔ Below d p := by
  rw [above_iff hp]
  constructor
  · rintro ⟨-, hsame, hstart, hne⟩
    rcases eq_or_below_or_climbs hd hp hsame.symm hstart with heq | hbelow | hclimbs
    · exact absurd heq.symm hne
    · exact hbelow
    · exact absurd hclimbs (not_climbsFrom_of_isAbs hp habs)
  · intro hbelow
    obtain ⟨hsame, names, hne, -, helements⟩ := hbelow.spec hd
    refine ⟨hd, hsame.symm, ⟨names, helements.symm⟩, ?_⟩
    rintro rfl
    exact hne (List.self_eq_append_right.mp helements)

/-! ## Relative paths -/

theorem dropCommon_append (es more : List Bytes) : dropCommon es (es ++ more) = ([], more) := by
  induction es with
  | nil => cases more <;> rfl
  | cons e es ih => rw [List.cons_append, dropCommon, if_pos rfl, ih]

theorem ofElements_ne_nil (h : ∀ e ∈ es, IsElement e) : ofElements rooted es ≠ [] := by
  rcases List.eq_nil_or_concat es with rfl | ⟨before, last, rfl⟩
  · cases rooted <;> decide
  · rw [List.concat_eq_append] at h ⊢
    rw [ofElements_concat]
    exact List.append_ne_nil_of_right_ne_nil _ (h last (by simp)).ne_nil

theorem ofElements_eq_dot_iff (h : ∀ e ∈ es, IsElement e) :
    ofElements false es = [Ascii.dot] ↔ es = [] := by
  refine ⟨fun heq => ?_, fun hnil => hnil ▸ rfl⟩
  rw [← elements_ofElements h, heq]
  rfl

section

variable {more : List Bytes} (hd : IsClean d) (hp : IsClean p) (habs : isAbs p = isAbs d)
  (hmore : elements p = elements d ++ more)

include hd hp habs hmore

theorem relative?_eq_some : relative? d p = some (ofElements false more) := by
  have hd' : clean d = d := hd
  have hp' : clean p = p := hp
  simp only [relative?, hd', hp']
  by_cases heq : p = d
  · subst heq
    obtain rfl : more = [] := by simpa using hmore.symm
    rw [if_pos rfl]
    rfl
  · have hne : more ≠ [] := fun hnil => heq (hp.ext hd habs (by rw [hmore, hnil, List.append_nil]))
    simp [heq, habs, hmore, dropCommon_append, ofElements, hne]

/-- The way from a directory, put after the directory, leads back to where it came from. -/
theorem join_relative : join [d, ofElements false more] = p := by
  have helement : ∀ e ∈ more, IsElement e := fun e he =>
    hp.settled.isElement e (hmore ▸ List.mem_append_right _ he)
  have hpresent : [d, ofElements false more].filter (· ≠ []) = [d, ofElements false more] := by
    simp [hd.ne_nil, ofElements_ne_nil helement]
  rw [join, hpresent]
  simp only [Bytes.join, clean, List.append_assoc, List.singleton_append, elements_append_slash,
    isAbs_append hd.ne_nil, elements_ofElements helement]
  rw [← hmore, ← habs, cleanElements_of_settled hp.settled, ← hp.eq_ofElements]

end

end RetryWeave.Path
