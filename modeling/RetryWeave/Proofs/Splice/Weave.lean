import Mathlib.Data.List.Pairwise
import Mathlib.Data.List.Sort
import RetryWeave.Expansion.Splice

/-! # Edits that do not overlap

Edits are applied from the last to the first. If they do not overlap, the result can be read from
left to right: what lies between the edits is kept, each byte once and in order, and each new text
stands in the place of what it replaces. -/

namespace RetryWeave

namespace Edit

/-- Two edits do not overlap. -/
def Apart (a b : Edit) : Prop := a.stop ≤ b.start ∨ b.stop ≤ a.start

/-- What an edit replaces is there; it may be no text at all. -/
def InRange (src : Bytes) (e : Edit) : Prop := e.start ≤ e.stop ∧ e.stop ≤ src.length

/-- An edit replaces some text, and this text is there. -/
def Within (src : Bytes) (e : Edit) : Prop := e.start < e.stop ∧ e.stop ≤ src.length

def Covers (e : Edit) (offset : Nat) : Prop := e.start ≤ offset ∧ offset < e.stop

instance (e : Edit) (offset : Nat) : Decidable (e.Covers offset) :=
  inferInstanceAs (Decidable (_ ∧ _))

instance (a b : Edit) : Decidable (Apart a b) := inferInstanceAs (Decidable (_ ∨ _))

instance (src : Bytes) (e : Edit) : Decidable (e.InRange src) :=
  inferInstanceAs (Decidable (_ ∧ _))

theorem Apart.symm {a b : Edit} (h : Apart a b) : Apart b a := Or.symm h

theorem Within.inRange {src : Bytes} {e : Edit} (h : e.Within src) : e.InRange src :=
  ⟨h.1.le, h.2⟩

end Edit

/-! ## Reading from left to right -/

/-- A byte of an edited text; one that was kept comes with its offset in the source. -/
abbrev Traced := UInt8 × Option Nat

namespace Edit

/-- The bytes of a source from `start` up to `stop`. -/
def kept (src : Bytes) (start stop : Nat) : List Traced :=
  ((Bytes.slice src start stop).zipIdx start).map fun (b, n) => (b, some n)

def inserted (text : Bytes) : List Traced := text.map fun b => (b, none)

/-- The source from the offset `n` on, with edits that are given in order. -/
def weave (src : Bytes) : Nat → List Edit → List Traced
  | n, [] => kept src n src.length
  | n, e :: rest => kept src n e.start ++ inserted e.text ++ weave src e.stop rest

/-- Edits in order, from the offset `n` on. -/
def Ascending (src : Bytes) : Nat → List Edit → Prop
  | n, [] => n ≤ src.length
  | n, e :: rest => n ≤ e.start ∧ e.InRange src ∧ Ascending src e.stop rest

@[simp] theorem map_fst_kept (src : Bytes) (start stop : Nat) :
    (kept src start stop).map Prod.fst = Bytes.slice src start stop := by
  simp [kept, Function.comp_def, ← List.unzip_fst]

@[simp] theorem map_fst_inserted (text : Bytes) : (inserted text).map Prod.fst = text := by
  simp [inserted, Function.comp_def]

@[simp] theorem filterMap_snd_inserted (text : Bytes) :
    (inserted text).filterMap Prod.snd = [] := by
  simp [inserted]

theorem filterMap_snd_kept (src : Bytes) {start stop : Nat} (hstop : stop ≤ src.length) :
    (kept src start stop).filterMap Prod.snd = List.range' start (stop - start) := by
  have hlength : (Bytes.slice src start stop).length = stop - start := by
    rw [Bytes.slice, List.length_take, List.length_drop]
    omega
  rw [kept, List.filterMap_map, ← hlength, ← List.zipIdx_map_snd, ← List.filterMap_eq_map]
  rfl

theorem getElem?_of_mem_kept {src : Bytes} {start stop : Nat} {b : UInt8} {n : Nat}
    (h : (b, some n) ∈ kept src start stop) : src[n]? = some b := by
  obtain ⟨⟨b', n'⟩, hmem, heq⟩ := List.mem_map.mp h
  cases heq
  obtain ⟨hle, hget⟩ := List.mk_mem_zipIdx_iff_le_and_getElem?_sub.mp hmem
  rw [Bytes.slice, List.getElem?_take] at hget
  split at hget
  · rwa [List.getElem?_drop, Nat.add_sub_cancel' hle] at hget
  · cases hget

/-! ## Applying edits in order -/

theorem foldr_apply_eq_weave {src : Bytes} {n : Nat} {edits : List Edit}
    (h : Ascending src n edits) :
    edits.foldr (fun e text => apply text e) src =
      src.take n ++ (weave src n edits).map Prod.fst := by
  induction edits generalizing n with
  | nil =>
      have hrest : (src.drop n).take (src.length - n) = src.drop n :=
        List.take_of_length_le (List.length_drop ..).le
      rw [List.foldr_nil, weave, map_fst_kept, Bytes.slice, hrest, List.take_append_drop]
  | cons e rest ih =>
      obtain ⟨hn, ⟨hstop, hle⟩, hrest⟩ := h
      have hlength : (src.take e.stop).length = e.stop := List.length_take_of_le hle
      -- the edits after `e` leave the text up to `e.stop` as it is
      have htake : (src.take e.stop).take e.start = src.take n ++ Bytes.slice src n e.start := by
        rw [List.take_take, min_eq_left hstop, Bytes.slice, ← List.take_add,
          Nat.add_sub_cancel' hn]
      rw [List.foldr_cons, ih hrest, apply, List.take_append_of_le_length (by omega), htake,
        List.drop_append_of_le_length (by omega), List.drop_of_length_le (by omega)]
      simp [weave]

theorem Ascending.le_start {src : Bytes} {n : Nat} {edits : List Edit} (h : Ascending src n edits) :
    ∀ e ∈ edits, n ≤ e.start := by
  induction edits generalizing n with
  | nil => simp
  | cons e rest ih =>
      obtain ⟨hn, ⟨hstop, -⟩, hrest⟩ := h
      simp only [List.mem_cons, forall_eq_or_imp]
      exact ⟨hn, fun e' he' => (hn.trans hstop).trans (ih hrest e' he')⟩

/-- No edit covers the offset. -/
def spares (edits : List Edit) (offset : Nat) : Bool := edits.all fun e => !decide (e.Covers offset)

theorem spares_iff {edits : List Edit} {offset : Nat} :
    spares edits offset = true ↔ ∀ e ∈ edits, ¬ e.Covers offset := by
  simp [spares]

theorem filterMap_snd_weave {src : Bytes} {n : Nat} {edits : List Edit}
    (h : Ascending src n edits) :
    (weave src n edits).filterMap Prod.snd =
      (List.range' n (src.length - n)).filter (spares edits) := by
  induction edits generalizing n with
  | nil =>
      rw [weave, filterMap_snd_kept src le_rfl, List.filter_eq_self.mpr]
      exact fun _ _ => rfl
  | cons e rest ih =>
      obtain ⟨hn, ⟨hstop, hle⟩, hrest⟩ := h
      have hsplit : List.range' n (src.length - n) = List.range' n (e.start - n) ++
          (List.range' e.start (e.stop - e.start) ++
            List.range' e.stop (src.length - e.stop)) := by
        rw [show src.length - n = (e.start - n) + ((e.stop - e.start) + (src.length - e.stop)) by
          omega, ← List.range'_append_1, ← List.range'_append_1, Nat.add_sub_cancel' hn,
          Nat.add_sub_cancel' hstop]
      have hbefore : (List.range' n (e.start - n)).filter (spares (e :: rest)) =
          List.range' n (e.start - n) := by
        refine List.filter_eq_self.mpr fun i hi => spares_iff.mpr fun e' he' hcovers => ?_
        have hle' : e.start ≤ e'.start := by
          rcases List.mem_cons.mp he' with rfl | he'
          · exact le_rfl
          · exact hstop.trans (hrest.le_start e' he')
        have := hcovers.1
        simp only [List.mem_range'_1] at hi
        omega
      have hinside : (List.range' e.start (e.stop - e.start)).filter (spares (e :: rest)) = [] := by
        refine List.filter_eq_nil_iff.mpr fun i hi hspares => ?_
        simp only [List.mem_range'_1] at hi
        exact spares_iff.mp hspares e List.mem_cons_self ⟨hi.1, by omega⟩
      have hafter : (List.range' e.stop (src.length - e.stop)).filter (spares (e :: rest)) =
          (List.range' e.stop (src.length - e.stop)).filter (spares rest) := by
        refine List.filter_congr fun i hi => ?_
        simp only [List.mem_range'_1] at hi
        have : ¬ e.Covers i := fun hcovers => by
          have := hcovers.2
          omega
        simp [spares, this]
      rw [hsplit, List.filter_append, List.filter_append, hbefore, hinside, hafter, ← ih hrest,
        weave, List.filterMap_append, List.filterMap_append, filterMap_snd_inserted,
        filterMap_snd_kept src (hstop.trans hle), List.append_nil, List.nil_append]

theorem getElem?_of_mem_weave {src : Bytes} {n : Nat} {edits : List Edit} {b : UInt8} {i : Nat}
    (h : (b, some i) ∈ weave src n edits) : src[i]? = some b := by
  induction edits generalizing n with
  | nil => exact getElem?_of_mem_kept h
  | cons e rest ih =>
      rcases List.mem_append.mp h with h | h
      · rcases List.mem_append.mp h with h | h
        · exact getElem?_of_mem_kept h
        · simp [inserted] at h
      · exact ih h

/-- A new text stands between what was before and what was after the text it replaces. -/
theorem exists_weave_eq {src : Bytes} {n : Nat} {edits : List Edit} (h : Ascending src n edits)
    {e : Edit} (he : e ∈ edits) : ∃ before after,
      weave src n edits = before ++ inserted e.text ++ after ∧
      (∀ i ∈ before.filterMap Prod.snd, i < e.start) ∧
      ∀ i ∈ after.filterMap Prod.snd, e.stop ≤ i := by
  induction edits generalizing n with
  | nil => cases he
  | cons e' rest ih =>
      obtain ⟨hn, ⟨hstop, hle⟩, hrest⟩ := h
      have hkept : ∀ i ∈ (kept src n e'.start).filterMap Prod.snd, i < e'.start := by
        intro i hi
        rw [filterMap_snd_kept src (hstop.trans hle), List.mem_range'_1] at hi
        omega
      rcases List.mem_cons.mp he with rfl | he
      · refine ⟨kept src n e.start, weave src e.stop rest, rfl, hkept, fun i hi => ?_⟩
        rw [filterMap_snd_weave hrest, List.mem_filter, List.mem_range'_1] at hi
        exact hi.1.1
      · obtain ⟨before, after, hweave, hbefore, hafter⟩ := ih hrest he
        refine ⟨kept src n e'.start ++ inserted e'.text ++ before, after, ?_, fun i hi => ?_,
          hafter⟩
        · rw [weave, hweave]
          simp only [List.append_assoc]
        · have hstart := hrest.le_start e he
          rw [List.filterMap_append, List.filterMap_append, filterMap_snd_inserted,
            List.append_nil, List.mem_append] at hi
          rcases hi with hi | hi
          · exact (hkept i hi).trans_le (hstop.trans hstart)
          · exact hbefore i hi

/-! ## Edits in any order -/

/-- An edited text, byte by byte: what no edit covers is kept once and in order, and every new text
stands in the place of what it replaces. -/
structure Spliced (src : Bytes) (edits : List Edit) (text : Bytes) (woven : List Traced) :
    Prop where
  text_eq : woven.map Prod.fst = text
  source : ∀ b n, (b, some n) ∈ woven → src[n]? = some b
  offsets : woven.filterMap Prod.snd = (List.range src.length).filter (spares edits)
  place : ∀ e ∈ edits, ∃ before after, woven = before ++ inserted e.text ++ after ∧
    (∀ n ∈ before.filterMap Prod.snd, n < e.start) ∧ ∀ n ∈ after.filterMap Prod.snd, e.stop ≤ n

theorem ascending_of_pairwise {src : Bytes} {edits : List Edit} {n : Nat} (hn : n ≤ src.length)
    (hstart : ∀ e ∈ edits, n ≤ e.start) (hrange : ∀ e ∈ edits, e.InRange src)
    (hordered : edits.Pairwise fun a b => a.stop ≤ b.start) : Ascending src n edits := by
  induction edits generalizing n with
  | nil => exact hn
  | cons e rest ih =>
      simp only [List.mem_cons, forall_eq_or_imp] at hstart hrange
      obtain ⟨he, hrest⟩ := List.pairwise_cons.mp hordered
      exact ⟨hstart.1, hrange.1, ih hrange.1.2 he hrange.2 hrest⟩

theorem pairwise_mergeSort_start (edits : List Edit) :
    (edits.mergeSort fun a b => b.start ≤ a.start).Pairwise
      fun a b => decide (b.start ≤ a.start) = true :=
  List.pairwise_mergeSort (by simp only [decide_eq_true_eq]; omega)
    (by simp only [Bool.or_eq_true, decide_eq_true_eq]; omega) edits

/-- Edits that start at different places are applied in one order only. -/
theorem applyAll_eq_foldl (src : Bytes) {edits sorted : List Edit} (hperm : sorted.Perm edits)
    (hsorted : sorted.Pairwise fun a b => b.start < a.start) :
    applyAll src edits = sorted.foldl apply src := by
  have hsame := (List.mergeSort_perm edits fun a b => decide (b.start ≤ a.start)).trans hperm.symm
  refine congrArg (List.foldl apply src) (hsame.eq_of_pairwise ?_ (pairwise_mergeSort_start edits)
    (hsorted.imp fun hlt => decide_eq_true hlt.le))
  intro a b ha hb hab hba
  by_contra hne
  have : Std.Symm fun a b : Edit => a.start ≠ b.start := ⟨fun _ _ => Ne.symm⟩
  have hdistinct : sorted.Pairwise fun a b => a.start ≠ b.start := hsorted.imp fun hlt => hlt.ne'
  have := hdistinct.forall (hsame.mem_iff.mp ha) hb hne
  simp only [decide_eq_true_eq] at hab hba
  omega

/-- Edits that do not overlap and start at different places, in the order of their starts: each ends
before the next one starts. -/
theorem ascending_of_sorted {src : Bytes} {edits sorted : List Edit} (hperm : sorted.Perm edits)
    (hrange : ∀ e ∈ edits, e.InRange src) (hapart : edits.Pairwise Apart)
    (hsorted : sorted.Pairwise fun a b => a.start < b.start) : Ascending src 0 sorted := by
  have hmem : ∀ e ∈ sorted, e.InRange src := fun e he => hrange e (hperm.mem_iff.mp he)
  refine ascending_of_pairwise (Nat.zero_le _) (fun _ _ => Nat.zero_le _) hmem ?_
  have hboth := hsorted.and (hperm.symm.pairwise hapart fun h => h.symm)
  refine hboth.imp_of_mem fun {a b} _ hb h => ?_
  -- `b` starts after `a`, so it is not the one in front
  obtain ⟨hstop, -⟩ := hmem b hb
  rcases h.2 with hfront | hback
  · exact hfront
  · omega

/-- The edits are sorted strictly if no two of them start at one place. -/
theorem pairwise_reverse_mergeSort {edits : List Edit}
    (hstarts : edits.Pairwise fun a b => a.start ≠ b.start) :
    (edits.mergeSort fun a b => b.start ≤ a.start).reverse.Pairwise
      fun a b => a.start < b.start := by
  have hperm := List.mergeSort_perm edits fun a b => decide (b.start ≤ a.start)
  rw [List.pairwise_reverse]
  refine ((pairwise_mergeSort_start edits).and
    (hperm.symm.pairwise hstarts fun h => h.symm)).imp fun h => ?_
  exact Nat.lt_of_le_of_ne (of_decide_eq_true h.1) h.2.symm

/-- Sorted by their starts, edits that do not overlap follow one another. -/
theorem ascending_mergeSort {src : Bytes} {edits : List Edit}
    (hrange : ∀ e ∈ edits, e.InRange src) (hapart : edits.Pairwise Apart)
    (hstarts : edits.Pairwise fun a b => a.start ≠ b.start) :
    Ascending src 0 (edits.mergeSort fun a b => b.start ≤ a.start).reverse :=
  ascending_of_sorted ((List.reverse_perm _).trans (List.mergeSort_perm _ _)) hrange hapart
    (pairwise_reverse_mergeSort hstarts)

/-- Of two edits that have text and do not overlap, one starts first. -/
theorem pairwise_start_ne {src : Bytes} {edits : List Edit}
    (hwithin : ∀ e ∈ edits, e.Within src) (hapart : edits.Pairwise Apart) :
    edits.Pairwise fun a b => a.start ≠ b.start := by
  refine hapart.imp_of_mem fun {a b} ha hb h heq => ?_
  obtain ⟨hlt, -⟩ := hwithin a ha
  obtain ⟨hlt', -⟩ := hwithin b hb
  rcases h with hfront | hback <;> omega

/-- Edits that do not overlap are all applied, wherever they stand in the list. -/
theorem exists_spliced {src : Bytes} {edits : List Edit} (hwithin : ∀ e ∈ edits, e.Within src)
    (hapart : edits.Pairwise Apart) : ∃ woven, Spliced src edits (applyAll src edits) woven := by
  have hperm := List.mergeSort_perm edits fun a b => decide (b.start ≤ a.start)
  have hascending := ascending_mergeSort (fun e he => (hwithin e he).inRange) hapart
    (pairwise_start_ne hwithin hapart)
  have hmem : ∀ e, e ∈ (edits.mergeSort fun a b => decide (b.start ≤ a.start)).reverse ↔
      e ∈ edits := fun e => List.mem_reverse.trans hperm.mem_iff
  refine ⟨weave src 0 (edits.mergeSort fun a b => decide (b.start ≤ a.start)).reverse, ?_⟩
  exact {
    text_eq := by
      have hweave := foldr_apply_eq_weave hascending
      rw [List.take_zero, List.nil_append, List.foldr_reverse] at hweave
      exact hweave.symm
    source := fun b n h => getElem?_of_mem_weave h
    offsets := by
      rw [filterMap_snd_weave hascending, Nat.sub_zero, ← List.range_eq_range']
      refine List.filter_congr fun n _ => ?_
      rw [Bool.eq_iff_iff, spares_iff, spares_iff]
      exact forall_congr' fun e => imp_congr_left (hmem e)
    place := fun e he => exists_weave_eq hascending ((hmem e).mpr he) }

end Edit

end RetryWeave
