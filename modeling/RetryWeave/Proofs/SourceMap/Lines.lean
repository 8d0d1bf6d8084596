import Mathlib.Data.List.Pairwise
import Mathlib.Order.Basic
import RetryWeave.Source.Position

/-! # Line numbers

The physical line of an offset is one more than the number of newlines before it. A position has
this line, unless a line comment before it names another one. -/

namespace RetryWeave

/-- The line of an offset: one more than the number of newlines before it. -/
def lineNumber (text : Bytes) (n : Nat) : Nat := 1 + (text.take n).count Ascii.newline

theorem lineNumber_le (text : Bytes) (n : Nat) :
    lineNumber text n ≤ 1 + text.count Ascii.newline :=
  Nat.add_le_add_left ((List.take_sublist n text).count_le _) 1

/-- A later offset lies on a later line if and only if a newline stands between them. -/
theorem lineNumber_lt_iff (text : Bytes) {m n : Nat} (h : m ≤ n) :
    lineNumber text m < lineNumber text n ↔ Ascii.newline ∈ Bytes.slice text m n := by
  have hsplit : text.take n = text.take m ++ Bytes.slice text m n := by
    rw [Bytes.slice, ← List.take_add, Nat.add_sub_cancel' h]
  rw [lineNumber, lineNumber, hsplit, List.count_append, ← List.count_pos_iff]
  omega

/-- A byte that is no newline ends on the line on which it starts. -/
theorem lineNumber_succ {text : Bytes} {n : Nat} {b : UInt8} (hb : text[n]? = some b)
    (hne : b ≠ Ascii.newline) : lineNumber text (n + 1) = lineNumber text n := by
  obtain ⟨hlt, rfl⟩ := List.getElem?_eq_some_iff.mp hb
  rw [lineNumber, List.take_succ_eq_append_getElem hlt, List.count_append, List.count_singleton,
    if_neg (by simpa using hne)]
  rfl

namespace LineTable

/-! ## The starts of lines -/

theorem lt_of_mem_startsFrom {size offset s : Nat} {text : Bytes}
    (h : s ∈ startsFrom size offset text) : offset < s := by
  induction text generalizing offset with
  | nil => cases h
  | cons b rest ih =>
      rw [startsFrom] at h
      split at h
      · rcases List.mem_cons.mp h with rfl | h
        · exact Nat.lt_succ_self offset
        · exact Nat.lt_of_succ_lt (ih h)
      · exact Nat.lt_of_succ_lt (ih h)

theorem pairwise_startsFrom (size offset : Nat) (text : Bytes) :
    (startsFrom size offset text).Pairwise (· < ·) := by
  induction text generalizing offset with
  | nil => exact .nil
  | cons b rest ih =>
      rw [startsFrom]
      split
      · exact List.pairwise_cons.mpr ⟨fun s hs => lt_of_mem_startsFrom hs, ih (offset + 1)⟩
      · exact ih (offset + 1)

/-- As many lines start up to an offset as there are newlines before it. The end of a text that ends
with a newline is left out, since no line starts there. -/
theorem countP_startsFrom {size offset n : Nat} {text : Bytes} (hsize : size = offset + text.length)
    (hle : offset ≤ n) (hn : n ≤ size) (hlast : n < size ∨ text.getLast? ≠ some Ascii.newline) :
    (startsFrom size offset text).countP (· ≤ n) =
      (text.take (n - offset)).count Ascii.newline := by
  induction text generalizing offset with
  | nil => simp [startsFrom]
  | cons b rest ih =>
      rw [List.length_cons] at hsize
      rcases Nat.eq_or_lt_of_le hle with rfl | hlt
      · rw [Nat.sub_self, List.take_zero, List.count_nil, List.countP_eq_zero]
        intro s hs
        simpa using lt_of_mem_startsFrom hs
      · have hrest : n < size ∨ rest.getLast? ≠ some Ascii.newline := by
          refine hlast.imp_right fun hne heq => hne ?_
          rw [List.getLast?_cons, heq, Option.getD_some]
        have ih := ih (show size = offset + 1 + rest.length by omega) hlt hrest
        obtain ⟨k, rfl⟩ : ∃ k, n = offset + (k + 1) := ⟨n - offset - 1, by omega⟩
        rw [Nat.add_sub_cancel_left, List.take_succ_cons, List.count_cons]
        rw [show offset + (k + 1) - (offset + 1) = k by omega] at ih
        rw [startsFrom]
        by_cases hb : b = Ascii.newline
        · have hinside : offset + 1 < size := by
            by_contra hout
            obtain rfl : rest = [] := List.eq_nil_of_length_eq_zero (by omega)
            rcases hlast with hlast | hlast
            · omega
            · exact hlast (by rw [hb]; rfl)
          rw [if_pos (by simp [hb, hinside]), List.countP_cons, ih]
          simp [hb]
        · rw [if_neg (by simp [hb]), ih]
          simp [hb]

/-! ## Halving -/

/-- In increasing order, the numbers up to a bound come first. -/
theorem getElem_le_iff {l : List Nat} (h : l.Pairwise (· < ·)) {n i : Nat} (hi : i < l.length) :
    l[i] ≤ n ↔ i < l.countP (· ≤ n) := by
  induction l generalizing i with
  | nil => cases hi
  | cons a l ih =>
      obtain ⟨ha, hl⟩ := List.pairwise_cons.mp h
      by_cases han : a ≤ n
      · cases i with
        | zero => simp [han]
        | succ i => simp [han, ih hl (Nat.lt_of_succ_lt_succ hi)]
      · have hnone : l.countP (· ≤ n) = 0 := by
          rw [List.countP_eq_zero]
          intro b hb
          have := ha b hb
          simp only [decide_eq_true_eq]
          omega
        cases i with
        | zero => simp [han, hnone]
        | succ i =>
            have hi : i < l.length := Nat.lt_of_succ_lt_succ hi
            have := ha l[i] (List.getElem_mem hi)
            simp only [List.getElem_cons_succ, List.countP_cons, hnone, han, decide_false]
            simp only [Bool.false_eq_true, if_false]
            omega

theorem getD_toArray {l : List Nat} {i : Nat} (hi : i < l.length) : l.toArray.getD i 0 = l[i] := by
  simp [Array.getD, hi]

theorem splits_countP {l : List Nat} (h : l.Pairwise (· < ·)) (n : Nat) :
    Splits l.toArray n (l.countP (· ≤ n)) := by
  constructor
  · intro i hi
    have hlength : i < l.length := Nat.lt_of_lt_of_le hi List.countP_le_length
    rw [getD_toArray hlength]
    exact (getElem_le_iff h hlength).mpr hi
  · intro i hi hlength
    rw [List.size_toArray] at hlength
    rw [getD_toArray hlength]
    exact Nat.lt_of_not_le fun hle => Nat.not_lt.mpr hi ((getElem_le_iff h hlength).mp hle)

theorem Splits.unique {starts : Array Nat} {n i j : Nat} (hi : Splits starts n i)
    (hj : Splits starts n j) (hisize : i ≤ starts.size) (hjsize : j ≤ starts.size) : i = j := by
  -- a line between the two would start both before and after the offset
  rcases Nat.lt_trichotomy i j with hlt | heq | hlt
  · have hafter := hi.2 i (Nat.le_refl i) (by omega)
    have hbefore := hj.1 i hlt
    omega
  · exact heq
  · have hafter := hj.2 j (Nat.le_refl j) (by omega)
    have hbefore := hi.1 j hlt
    omega

theorem firstAfter_le {starts : Array Nat} {n steps low high : Nat} (h : low ≤ high) :
    firstAfter starts n steps low high ≤ high := by
  induction steps generalizing low high with
  | zero => exact h
  | succ steps ih =>
      rw [firstAfter]
      split
      · dsimp only
        split
        · exact ih (by omega)
        · exact Nat.le_trans (ih (by omega)) (by omega)
      · exact h

theorem firstAfter_eq_countP {l : List Nat} (h : l.Pairwise (· < ·)) (n : Nat) :
    firstAfter l.toArray n l.toArray.size 0 l.toArray.size = l.countP (· ≤ n) := by
  refine Splits.unique
    (splits_firstAfter ?_ (Nat.le_refl _) (Nat.zero_le _) (Nat.sub_le _ _) nofun ?_)
    (splits_countP h n) (firstAfter_le (Nat.zero_le _)) ?_
  · intro i j hij hj
    rw [List.size_toArray] at hj
    rw [getD_toArray hj, getD_toArray (show i < l.length by omega)]
    rcases Nat.eq_or_lt_of_le hij with rfl | hlt
    · exact Nat.le_refl _
    · exact Nat.le_of_lt (List.pairwise_iff_getElem.mp h i j _ hj hlt)
  · intro i hi hsize
    omega
  · rw [List.size_toArray]
    exact List.countP_le_length

/-! ## Positions -/

variable {name text : Bytes} {infos : List LineInfo} {n : Nat}

/-- The physical line of an offset counts the newlines before it. -/
theorem lineOf_ofText (hn : n ≤ text.length)
    (hlast : n < text.length ∨ text.getLast? ≠ some Ascii.newline) :
    (ofText name text infos).lineOf n = lineNumber text n := by
  have hsorted : (0 :: startsFrom text.length 0 text).Pairwise (· < ·) :=
    List.pairwise_cons.mpr ⟨fun s hs => lt_of_mem_startsFrom hs, pairwise_startsFrom _ _ _⟩
  have hcount := countP_startsFrom (show text.length = 0 + text.length by omega) (Nat.zero_le n) hn
    hlast
  have hline : (ofText name text infos).lineOf n =
      (0 :: startsFrom text.length 0 text).countP (· ≤ n) := firstAfter_eq_countP hsorted n
  rw [hline, List.countP_cons, hcount, lineNumber, Nat.sub_zero, Nat.add_comm]
  simp

/-- The last line comment before an offset, if there is one, names the line that it stands for. -/
def Straight (t : LineTable) (n : Nat) : Prop :=
  ∀ i, (t.infos.filter fun i => i.offset ≤ n).getLast? = some i → i.line = t.lineOf i.offset

theorem straight_of_infos_eq_nil {t : LineTable} (h : t.infos = []) (n : Nat) : t.Straight n := by
  simp [Straight, h]

/-- A position has the physical line if and only if no line comment moved it. -/
theorem position_line_eq_iff (hn : n ≤ text.length)
    (hlast : n < text.length ∨ text.getLast? ≠ some Ascii.newline) :
    ((ofText name text infos).position n).line = lineNumber text n ↔
      (ofText name text infos).Straight n := by
  have hmin : min n (ofText name text infos).size = n := Nat.min_eq_left hn
  have hline : ((ofText name text infos).physical n).line = lineNumber text n := by
    have h : (ofText name text infos).lineOf n = lineNumber text n := lineOf_ofText hn hlast
    rw [← h, physical, hmin]
    rfl
  unfold position Straight
  rw [hmin]
  cases hinfo : ((ofText name text infos).infos.filter fun i => i.offset ≤ n).getLast? with
  | none => simp [hline]
  | some info =>
      simp only [hline, Option.some.injEq, forall_eq']
      omega

end LineTable

end RetryWeave
