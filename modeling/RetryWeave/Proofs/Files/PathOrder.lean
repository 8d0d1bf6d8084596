import RetryWeave.Proofs.Files.Hierarchy
import RetryWeave.Proofs.Text.Order

/-! # The order of paths

Absolute paths in the order of their texts are in the order of their elements, but for one thing: a
name that goes on with a byte before the slash stands between a shorter name and what is below it. -/

namespace RetryWeave.Path

open RetryWeave

/-! ## Texts of absolute paths -/

/-- The text of an absolute path that has elements. -/
def spell (es : List Bytes) : Bytes := es.flatMap (Ascii.slash :: ·)

theorem spell_append (es es' : List Bytes) : spell (es ++ es') = spell es ++ spell es' :=
  List.flatMap_append

theorem spell_cons (e : Bytes) (es : List Bytes) :
    spell (e :: es) = Ascii.slash :: (e ++ spell es) :=
  rfl

theorem ofElements_eq_spell {es : List Bytes} (h : es ≠ []) : ofElements true es = spell es := by
  rcases List.eq_nil_or_concat es with rfl | ⟨before, last, rfl⟩
  · exact absurd rfl h
  · have hshift : ∀ es : List Bytes, Ascii.slash :: es.flatMap (· ++ [Ascii.slash]) =
        spell es ++ [Ascii.slash] := by
      intro es
      induction es with
      | nil => rfl
      | cons e es ih =>
          rw [spell_cons, List.cons_append, List.append_assoc, ← ih]
          simp
    rw [List.concat_eq_append, ofElements_concat, spell_append, lead, if_pos rfl,
      List.singleton_append, hshift]
    simp [spell]

/-! ## Crossings -/

/-- The first path goes down through a directory whose name the second one has with more after it, and
what is after it comes before a slash. -/
def Crossing (u v : List Bytes) : Prop :=
  ∃ common name b rest inner more more', u = common ++ name :: inner :: more ∧
    v = common ++ (name ++ b :: rest) :: more' ∧ b < Ascii.slash

theorem Crossing.cons {u v : List Bytes} (h : Crossing u v) (e : Bytes) :
    Crossing (e :: u) (e :: v) := by
  obtain ⟨common, name, b, rest, inner, more, more', rfl, rfl, hb⟩ := h
  exact ⟨e :: common, name, b, rest, inner, more, more', rfl, rfl, hb⟩

theorem Crossing.lt {u v : List Bytes} (h : Crossing u v) : u < v := by
  obtain ⟨common, name, b, rest, inner, more, more', rfl, rfl, -⟩ := h
  exact List.append_left_lt (List.cons_lt_cons_iff.mpr (.inl (Bytes.lt_append_cons name b rest)))

theorem spell_lt_spell {u v : List Bytes} (hv : ∀ name ∈ v, IsElement name) (h : u < v)
    (hcrossing : ¬ Crossing u v) : spell u < spell v := by
  induction u generalizing v with
  | nil =>
      cases v with
      | nil => exact absurd h (List.lt_irrefl [])
      | cons name v => exact List.nil_lt_cons _ _
  | cons a u ih =>
      cases v with
      | nil => exact absurd h (List.not_lt_nil _)
      | cons b v =>
          rw [List.forall_mem_cons] at hv
          rw [spell_cons, spell_cons, List.cons_lt_cons_iff]
          refine .inr ⟨rfl, ?_⟩
          rcases List.cons_lt_cons_iff.mp h with hlt | ⟨rfl, hlt⟩
          · rcases Bytes.lt_cases hlt with ⟨y, rest, rfl⟩ |
              ⟨common, x, y, rest, rest', rfl, rfl, hxy⟩
            · rw [List.append_assoc]
              refine List.append_left_lt ?_
              cases u with
              | nil => exact List.nil_lt_cons _ _
              | cons inner more =>
                  -- after the shorter name stands a slash, and the longer name has none
                  rw [spell_cons, List.cons_append, List.cons_lt_cons_iff]
                  have hne : y ≠ Ascii.slash := by
                    rintro rfl
                    exact hv.1.slash_notMem (List.mem_append_right _ List.mem_cons_self)
                  have hge : ¬ y < Ascii.slash := fun hy =>
                    hcrossing ⟨[], a, y, rest, inner, more, v, rfl, rfl, hy⟩
                  exact .inl (UInt8.lt_of_le_of_ne (UInt8.not_lt.mp hge) hne.symm)
            · rw [List.append_assoc, List.append_assoc]
              refine List.append_left_lt ?_
              rw [List.cons_append, List.cons_append, List.cons_lt_cons_iff]
              exact .inl hxy
          · exact List.append_left_lt (ih hv.2 hlt fun hc => hcrossing (hc.cons a))

theorem spell_lt_of_crossing {u v : List Bytes} (h : Crossing u v) : spell v < spell u := by
  obtain ⟨common, name, b, rest, inner, more, more', rfl, rfl, hb⟩ := h
  rw [spell_append, spell_append]
  refine List.append_left_lt ?_
  rw [spell_cons, spell_cons, List.cons_lt_cons_iff]
  refine .inr ⟨rfl, ?_⟩
  rw [List.append_assoc]
  refine List.append_left_lt ?_
  rw [spell_cons, List.cons_append, List.cons_lt_cons_iff]
  exact .inl hb

/-! ## Paths below a directory -/

/-- The absolute path that leads down from a directory by names. -/
def place (top : Bytes) (l : List Bytes) : Bytes := ofElements true (elements top ++ l)

section

variable {top : Bytes} (hclean : IsClean top) (habs : isAbs top = true)

include hclean habs

theorem place_nil : place top [] = top := by
  rw [place, List.append_nil, ← habs, ← hclean.eq_ofElements]

variable {l l' : List Bytes} (hl : ∀ name ∈ l, IsName name) (hl' : ∀ name ∈ l', IsName name)

theorem settled_place (hl : ∀ name ∈ l, IsName name) : Settled true (elements top ++ l) :=
  habs ▸ hclean.settled.append hl

include hl

theorem isClean_place : IsClean (place top l) := isClean_ofElements (settled_place hclean habs hl)

theorem isAbs_place : isAbs (place top l) = true :=
  isAbs_ofElements (settled_place hclean habs hl).isElement

theorem elements_place : elements (place top l) = elements top ++ l :=
  elements_ofElements (settled_place hclean habs hl).isElement

theorem topmost_place_iff : Topmost (place top l) ↔ top = [Ascii.slash] ∧ l = [] := by
  rw [topmost_iff (isClean_place hclean habs hl), elements_place hclean habs hl,
    List.append_eq_nil_iff]
  refine and_congr_left fun _ => ⟨fun hnil => ?_, fun htop => ?_⟩
  · rw [hclean.eq_ofElements, habs, hnil]
    rfl
  · rw [htop]
    rfl

include hl'

theorem place_inj : place top l = place top l' ↔ l = l' := by
  refine ⟨fun heq => ?_, fun heq => heq ▸ rfl⟩
  have helements := congrArg elements heq
  rw [elements_place hclean habs hl, elements_place hclean habs hl'] at helements
  exact List.append_cancel_left helements

theorem above_place_iff : Above (place top l) (place top l') ↔ l <+: l' ∧ l ≠ l' := by
  rw [above_iff (isClean_place hclean habs hl'), isAbs_place hclean habs hl,
    isAbs_place hclean habs hl', elements_place hclean habs hl, elements_place hclean habs hl',
    List.prefix_append_right_inj, ne_eq, place_inj hclean habs hl hl']
  exact ⟨fun h => h.2.2, fun h => ⟨isClean_place hclean habs hl, rfl, h⟩⟩

end

theorem place_lt_place {top : Bytes} {u v : List Bytes} (hv : ∀ name ∈ v, IsElement name)
    (h : u < v) (hcrossing : ¬ Crossing u v) : place top u < place top v := by
  have hvne : v ≠ [] := by
    rintro rfl
    exact List.not_lt_nil _ h
  have hspell : spell (elements top ++ u) < spell (elements top ++ v) := by
    rw [spell_append, spell_append]
    exact List.append_left_lt (spell_lt_spell hv h hcrossing)
  rw [place, place, ofElements_eq_spell (List.append_ne_nil_of_right_ne_nil _ hvne)]
  by_cases hu : elements top ++ u = []
  · -- the text of the topmost directory is a slash, with which all others begin
    rw [List.append_eq_nil_iff] at hu
    obtain ⟨name, v, rfl⟩ := List.exists_cons_of_ne_nil hvne
    obtain ⟨b, name', hname⟩ := List.exists_cons_of_ne_nil (hv name List.mem_cons_self).ne_nil
    rw [hu.1, hu.2, List.nil_append, List.nil_append, spell_cons, hname]
    exact List.cons_lt_cons_iff.mpr (.inr ⟨rfl, List.nil_lt_cons _ _⟩)
  · rw [ofElements_eq_spell hu]
    exact hspell

theorem place_lt_of_crossing {top : Bytes} {u v : List Bytes} (h : Crossing u v) :
    place top v < place top u := by
  have hne : u ≠ [] ∧ v ≠ [] := by
    obtain ⟨common, name, b, rest, inner, more, more', rfl, rfl, -⟩ := h
    exact ⟨by simp, by simp⟩
  rw [place, place, ofElements_eq_spell (List.append_ne_nil_of_right_ne_nil _ hne.1),
    ofElements_eq_spell (List.append_ne_nil_of_right_ne_nil _ hne.2), spell_append, spell_append]
  exact List.append_left_lt (spell_lt_of_crossing h)

end RetryWeave.Path
