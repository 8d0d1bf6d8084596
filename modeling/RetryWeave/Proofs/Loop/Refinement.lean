import RetryWeave.Proofs.Loop.Semantics
import RetryWeave.Proofs.Naming.Shape
import RetryWeave.Proofs.Retry.Contract

/-! # A retry loop does what a run does

The loop counts failed attempts from zero and stops when the count reaches the budget; the run
counts attempts from one. The invariant of the loop ties both counts to the variable. -/

namespace RetryWeave.Execution

open Syntax

variable {σ ε ν : Type}

/-! ## Numbers of 64 bits -/

section Numbers

variable {a b : Nat}

theorem int64_ofNat_lt (ha : a < 2 ^ 63) (hb : b < 2 ^ 63) :
    Int64.ofNat a < Int64.ofNat b ↔ a < b := by
  rw [Int64.lt_iff_toInt_lt, Int64.toInt_ofNat_of_lt ha, Int64.toInt_ofNat_of_lt hb, Int.ofNat_lt]

theorem int64_ofNat_inj (ha : a < 2 ^ 63) (hb : b < 2 ^ 63) :
    Int64.ofNat a = Int64.ofNat b ↔ a = b := by
  rw [← Int64.toInt_inj, Int64.toInt_ofNat_of_lt ha, Int64.toInt_ofNat_of_lt hb, Int.ofNat_inj]

theorem int64_ofNat_succ (a : Nat) : Int64.ofNat a + 1 = Int64.ofNat (a + 1) :=
  (Int64.ofNat_add a 1).symm

theorem int64_ofNat_ne_maxValue (ha : a + 1 < 2 ^ 63) : Int64.ofNat a ≠ Int64.maxValue := by
  intro h
  have hmax := congrArg Int64.toInt h
  rw [Int64.toInt_ofNat_of_lt (by omega), Int64.toInt_maxValue] at hmax
  omega

theorem literal?_ofNat (ha : a < 2 ^ 63) : literal? (Bytes.ofNat a) = some (Int64.ofNat a) := by
  rw [literal?, Directive.literalValue_ofNat, if_pos ⟨number?_ofNat a, ha⟩]

end Numbers

/-! ## Reading expressions back -/

section Eval

variable (frames : Frames ε ν)

theorem eval_number {i : Int} (h0 : 0 ≤ i) (h : i.toNat < 2 ^ 63) :
    eval frames (RetryLoop.number i) = some (.int (Int64.ofNat i.toNat)) := by
  rw [RetryLoop.number, Bytes.ofInt_of_nonneg h0, eval, if_pos rfl, literal?_ofNat h]
  rfl

variable {frames}

theorem eval_name {name : Bytes} {v : Value ε ν} (h : frames.lookup name = some v) :
    eval frames (RetryLoop.name name) = some v := by
  simp only [RetryLoop.name, Ident.fresh, eval, h]

theorem eval_nil (h : frames.lookup (Bytes.ofString "nil") = none) :
    eval frames (RetryLoop.name "nil") = some (.error none) := by
  simp only [RetryLoop.name, Ident.fresh, eval, h, if_true]

theorem eval_compare {name : Bytes} {op : Tok} {right : Expr} {a b : Value ε ν}
    (ha : eval frames (RetryLoop.name name) = some a) (hb : eval frames right = some b) :
    eval frames (RetryLoop.compare name op right) = (compare? op a b).map .bool := by
  rw [RetryLoop.compare, eval, ha, hb]
  rfl

end Eval

theorem names?_map_name (names : List Bytes) :
    Machine.names? (names.map RetryLoop.name) = some names := by
  induction names with
  | nil => rfl
  | cons name names ih =>
      rw [Machine.names?] at ih ⊢
      rw [List.map_cons, List.mapM_cons, ih]
      rfl

/-! ## Lists of names and values -/

theorem mapM_of_map_eq {α β : Type} {f : α → Option β} {xs : List α} {ys : List β}
    (h : xs.map f = ys.map some) : xs.mapM f = some ys := by
  induction xs generalizing ys with
  | nil =>
      cases ys with
      | nil => rfl
      | cons y ys => cases h
  | cons x xs ih =>
      cases ys with
      | nil => cases h
      | cons y ys =>
          rw [List.map_cons, List.map_cons, List.cons.injEq] at h
          rw [List.mapM_cons, h.1, ih h.2]
          rfl

/-- Different names that were bound in turn read back what they were bound to. -/
theorem map_lookup_zip {names : List Bytes} {vs : List (Value ε ν)} (hnodup : names.Nodup)
    (hlength : names.length = vs.length) :
    names.map (fun name => (names.zip vs).lookup name) = vs.map some := by
  induction names generalizing vs with
  | nil =>
      obtain rfl := List.length_eq_zero_iff.mp hlength.symm
      rfl
  | cons name names ih =>
      cases vs with
      | nil => cases hlength
      | cons v vs =>
          obtain ⟨hname, hnodup⟩ := List.nodup_cons.mp hnodup
          rw [List.map_cons, List.map_cons, ← ih hnodup (Nat.succ.inj hlength)]
          congr 1
          · simp
          · apply List.map_congr_left
            intro other hother
            have hne : (other == name) = false := by
              rw [beq_eq_false_iff_ne]
              rintro rfl
              exact hname hother
            rw [List.zip_cons_cons, List.lookup_cons, hne]

theorem exists_lookup_zip {names : List Bytes} {vs : List (Value ε ν)} (hnodup : names.Nodup)
    (hlength : names.length = vs.length) {name : Bytes} (hname : name ∈ names) :
    ∃ v, (names.zip vs).lookup name = some v := by
  have hmem := List.mem_map_of_mem (f := fun name => (names.zip vs).lookup name) hname
  rw [map_lookup_zip hnodup hlength] at hmem
  obtain ⟨v, _, hv⟩ := List.mem_map.mp hmem
  exact ⟨v, hv.symm⟩

theorem lookup_zip_eq_none {names : List Bytes} {vs : List (Value ε ν)} {name : Bytes}
    (hname : name ∉ names) : (names.zip vs).lookup name = none := by
  rw [List.lookup_eq_none_iff]
  intro p hp
  rw [bne_iff_ne]
  rintro rfl
  exact hname (List.of_mem_zip hp).1

/-! ## One round -/

/-- The names of a loop are different, and none of them means something to the language. -/
structure Hygienic (l : RetryLoop) : Prop where
  nodup : l.names.Nodup
  nil_notMem : Bytes.ofString "nil" ∉ l.names
  blank_notMem : [Ascii.underscore] ∉ l.names

/-- The frame around the loop after `c` failed attempts. -/
structure Ready (l : RetryLoop) (c : Nat) (top : Frame ε ν) : Prop where
  counter : top.lookup l.counter = some (.int (Int64.ofNat c))
  helper : top.lookup l.helper = some .closure
  nil : top.lookup (Bytes.ofString "nil") = none

namespace Hygienic

variable {l : RetryLoop} (h : Hygienic l)
include h

theorem counter_ne_helper : l.counter ≠ l.helper := by
  have hhelper := (List.nodup_cons.mp h.nodup).1
  intro heq
  exact hhelper (heq ▸ List.mem_cons_self)

theorem counter_ne_nil : l.counter ≠ Bytes.ofString "nil" := by
  intro heq
  exact h.nil_notMem (heq ▸ List.mem_cons_of_mem _ List.mem_cons_self)

theorem counter_ne_blank : l.counter ≠ [Ascii.underscore] := by
  intro heq
  exact h.blank_notMem (heq ▸ List.mem_cons_of_mem _ List.mem_cons_self)

theorem helper_ne_nil : l.helper ≠ Bytes.ofString "nil" := by
  intro heq
  exact h.nil_notMem (heq ▸ List.mem_cons_self)

theorem results_nodup : (l.values ++ [l.error]).Nodup :=
  (List.nodup_cons.mp (List.nodup_cons.mp h.nodup).2).2

theorem counter_notMem_results : l.counter ∉ l.values ++ [l.error] :=
  (List.nodup_cons.mp (List.nodup_cons.mp h.nodup).2).1

omit h in
theorem notMem_results {name : Bytes} (hname : name ∉ l.names) :
    name ∉ l.values ++ [l.error] := by
  intro hmem
  exact hname (List.mem_cons_of_mem _ (List.mem_cons_of_mem _ hmem))

/-- A further failed attempt leaves a larger count. -/
theorem ready_succ {c : Nat} {top : Frame ε ν} (hready : Ready l c top) :
    Ready l (c + 1) ((l.counter, .int (Int64.ofNat (c + 1))) :: top) where
  counter := by simp
  helper := by
    have hne : (l.helper == l.counter) = false := by simpa using h.counter_ne_helper.symm
    rw [List.lookup_cons, hne]
    exact hready.helper
  nil := by
    have hne : (Bytes.ofString "nil" == l.counter) = false := by simpa using h.counter_ne_nil.symm
    rw [List.lookup_cons, hne]
    exact hready.nil

end Hygienic

theorem Frames.lookup_cons (top : Frame ε ν) (rest : Frames ε ν) (name : Bytes) :
    Frames.lookup (top :: rest) name = (top.lookup name).or (Frames.lookup rest name) := by
  simp only [Frames.lookup, List.findSome?_cons]
  cases top.lookup name <;> rfl

@[simp] theorem Machine.length_resultsOf {results : Nat}
    (o : Retry.Outcome ε (Vector ν (results - 1))) :
    (Machine.resultsOf o).length = results - 1 + 1 := by
  simp [Machine.resultsOf]

/-- The frame of a round once the closure was called. -/
def resultFrame {results : Nat} (l : RetryLoop) (o : Retry.Outcome ε (Vector ν (results - 1))) :
    Frame ε ν :=
  (l.values ++ [l.error]).zip (Machine.resultsOf o)

section Round

variable {l : RetryLoop} (h : Hygienic l) (m : Machine σ ε ν)
  (hvalues : l.values.length = m.results - 1)
include h hvalues

omit h in
theorem length_results (o : Retry.Outcome ε (Vector ν (m.results - 1))) :
    (l.values ++ [l.error]).length = (Machine.resultsOf o).length := by
  simp [hvalues]

theorem define_results (o : Retry.Outcome ε (Vector ν (m.results - 1))) (rest : Frames ε ν) :
    Frames.define (l.values ++ [l.error]) (Machine.resultsOf o) ([] :: rest) =
      some (resultFrame l o :: rest) := by
  have hblank : ∀ name ∈ l.values ++ [l.error], (name != [Ascii.underscore]) = true := by
    intro name hname
    rw [bne_iff_ne]
    rintro rfl
    exact Hygienic.notMem_results h.blank_notMem hname
  have hnamed : (l.values ++ [l.error]).filter (· != [Ascii.underscore]) =
      l.values ++ [l.error] := List.filter_eq_self.mpr hblank
  have hentries : ((l.values ++ [l.error]).zip (Machine.resultsOf o)).filter
      (·.1 != [Ascii.underscore]) = resultFrame l o :=
    List.filter_eq_self.mpr fun p hp => hblank p.1 (List.of_mem_zip hp).1
  have hnew : (l.values ++ [l.error]).any
      (fun name => name != [Ascii.underscore] && (List.lookup name ([] : Frame ε ν)).isNone) =
        true := by
    rw [List.any_eq_true]
    exact ⟨l.error, by simp, by simpa using hblank l.error (by simp)⟩
  rw [Frames.define, hnamed,
    if_pos ⟨length_results m hvalues o, h.results_nodup, hnew⟩, hentries, List.append_nil]

theorem lookup_error (o : Retry.Outcome ε (Vector ν (m.results - 1))) :
    (resultFrame l o).lookup l.error = some (.error o.error) := by
  have hmap := map_lookup_zip h.results_nodup (length_results m hvalues o)
  rw [Machine.resultsOf, List.map_append, List.map_append, List.map_singleton,
    List.map_singleton] at hmap
  exact List.singleton_inj.mp (List.append_inj' hmap rfl).2

omit hvalues in
theorem lookup_nil (o : Retry.Outcome ε (Vector ν (m.results - 1))) {top : Frame ε ν}
    (hnil : top.lookup (Bytes.ofString "nil") = none) :
    Frames.lookup [resultFrame l o, top] (Bytes.ofString "nil") = none := by
  rw [Frames.lookup_cons, Frames.lookup_cons, hnil, resultFrame,
    lookup_zip_eq_none (Hygienic.notMem_results h.nil_notMem)]
  rfl

/-- The names of the results read back the results of the call. -/
theorem map_eval_results (o : Retry.Outcome ε (Vector ν (m.results - 1))) (rest : Frames ε ν) :
    ((l.values ++ [l.error]).map RetryLoop.name).map (eval ([] :: resultFrame l o :: rest)) =
      (Machine.resultsOf o).map some := by
  have hlength := length_results m hvalues o
  rw [← map_lookup_zip h.results_nodup hlength, List.map_map]
  apply List.map_congr_left
  intro name hname
  obtain ⟨v, hv⟩ := exists_lookup_zip h.results_nodup hlength hname
  rw [hv, Function.comp_apply]
  apply eval_name
  rw [Frames.lookup_cons, Frames.lookup_cons, resultFrame, hv]
  rfl

theorem ret_error (o : Retry.Outcome ε (Vector ν (m.results - 1))) (hpos : 0 < m.results)
    (rest : Frames ε ν) (s : σ) :
    m.ret (l.values.map RetryLoop.name ++ [RetryLoop.name l.error])
        ([] :: resultFrame l o :: rest) s = .returned (Machine.resultsOf o) s := by
  have hmap := map_eval_results h m hvalues o rest
  rw [List.map_append, List.map_singleton] at hmap
  rw [Machine.ret, mapM_of_map_eq hmap]
  simp only [Machine.length_resultsOf]
  rw [if_pos (by omega)]

theorem ret_nil (o : Retry.Outcome ε (Vector ν (m.results - 1))) (hpos : 0 < m.results)
    (ho : o.error = none) {top : Frame ε ν} (hnil : top.lookup (Bytes.ofString "nil") = none)
    (s : σ) :
    m.ret (l.values.map RetryLoop.name ++ [RetryLoop.name "nil"])
        [[], resultFrame l o, top] s = .returned (Machine.resultsOf o) s := by
  have hmap := map_eval_results h m hvalues o [top]
  have hlookup : Frames.lookup [[], resultFrame l o, top] (Bytes.ofString "nil") = none :=
    lookup_nil h m o hnil
  have hnils : (l.values.map RetryLoop.name ++ [RetryLoop.name "nil"]).map
      (eval [[], resultFrame l o, top]) = (Machine.resultsOf o).map some := by
    rw [Machine.resultsOf, List.map_append, List.map_append, List.map_append] at hmap
    rw [Machine.resultsOf, List.map_append, List.map_append, List.map_singleton,
      List.map_singleton, eval_nil hlookup, ho, (List.append_inj' hmap rfl).1]
  rw [Machine.ret, mapM_of_map_eq hnils]
  simp only [Machine.length_resultsOf]
  rw [if_pos (by omega)]

theorem exec_call (fuel : Nat) {top : Frame ε ν} (hhelper : top.lookup l.helper = some .closure)
    (s : σ) :
    m.exec fuel (RetryLoop.define (l.values ++ [l.error]) (RetryLoop.call l.helper [])) [[], top] s =
      .next [resultFrame l (m.operation s).1, top] (m.operation s).2 := by
  have hlookup : Frames.lookup [[], top] l.helper = some .closure := by
    rw [Frames.lookup_cons, Frames.lookup_cons, hhelper]
    rfl
  simp only [RetryLoop.define, RetryLoop.call, RetryLoop.name, Ident.fresh, Machine.exec,
    Machine.define, hlookup]
  rw [show List.map _ (l.values ++ [l.error]) = List.map RetryLoop.name _ from rfl,
    names?_map_name, Option.bind_some, define_results h m hvalues]

/-- After a success the results are returned, after a failure control goes on. -/
theorem exec_success (hpos : 0 < m.results) (fuel : Nat)
    (o : Retry.Outcome ε (Vector ν (m.results - 1))) {top : Frame ε ν}
    (hnil : top.lookup (Bytes.ofString "nil") = none) (s : σ) :
    m.exec fuel (.ifElse none none (RetryLoop.compare l.error .eql (RetryLoop.name "nil"))
        (RetryLoop.block [l.returning "nil"]) none) [resultFrame l o, top] s =
      if o.error.isNone then .returned (Machine.resultsOf o) s
      else .next [resultFrame l o, top] s := by
  have herror : Frames.lookup [resultFrame l o, top] l.error = some (.error o.error) := by
    rw [Frames.lookup_cons, lookup_error h m hvalues]
    rfl
  rw [Machine.exec, eval_compare (eval_name herror) (eval_nil (lookup_nil h m o hnil))]
  cases ho : o.error with
  | none =>
      simp only [compare?, Option.map_some, Option.isNone_none, if_true]
      rw [RetryLoop.block, Machine.execBlock, Machine.execAll, RetryLoop.returning, Machine.exec,
        ret_nil h m hvalues o hpos ho hnil]
      rfl
  | some e => rfl

omit hvalues in
/-- The counter lies outside the frame of the round. -/
theorem exec_increment (fuel : Nat) (o : Retry.Outcome ε (Vector ν (m.results - 1))) {c : Nat}
    (hc : c + 1 < 2 ^ 63) {top : Frame ε ν} (hready : Ready l c top) (s : σ) :
    m.exec fuel (.incDec (RetryLoop.name l.counter) none .inc) [resultFrame l o, top] s =
      .next [resultFrame l o, (l.counter, .int (Int64.ofNat (c + 1))) :: top] s := by
  have hinner : (resultFrame l o).lookup l.counter = none :=
    lookup_zip_eq_none h.counter_notMem_results
  have hlookup : Frames.lookup [resultFrame l o, top] l.counter =
      some (.int (Int64.ofNat c)) := by
    rw [Frames.lookup_cons, Frames.lookup_cons, hinner, hready.counter]
    rfl
  have hassign : Frames.assign l.counter (.int (Int64.ofNat (c + 1))) [resultFrame l o, top] =
      some [resultFrame l o, (l.counter, .int (Int64.ofNat (c + 1))) :: top] := by
    simp [Frames.assign, hinner, hready.counter]
  have hmax : ¬ (Int64.ofNat c = Int64.maxValue ∧ m.arithmetic = .stops) :=
    fun hmax => int64_ofNat_ne_maxValue hc hmax.1
  simp only [Machine.exec, RetryLoop.name, Ident.fresh, Machine.increment, hlookup, if_neg hmax,
    int64_ofNat_succ, hassign]

/-- The results of the last attempt are returned, after another one control goes on. -/
theorem exec_exhausted (hpos : 0 < m.results) (fuel : Nat)
    (o : Retry.Outcome ε (Vector ν (m.results - 1))) {c n : Nat} (hn : l.retries = n)
    (hc : c < 2 ^ 63) (hlt : n < 2 ^ 63) {top : Frame ε ν} (hready : Ready l c top) (s : σ) :
    m.exec fuel (.ifElse none none
        (RetryLoop.compare l.counter .eql (RetryLoop.number l.retries))
        (RetryLoop.block [l.returning l.error]) none) [resultFrame l o, top] s =
      if c = n then .returned (Machine.resultsOf o) s else .next [resultFrame l o, top] s := by
  have hcounter : Frames.lookup [resultFrame l o, top] l.counter =
      some (.int (Int64.ofNat c)) := by
    rw [Frames.lookup_cons, Frames.lookup_cons, resultFrame,
      lookup_zip_eq_none h.counter_notMem_results, hready.counter]
    rfl
  have hnumber : eval [resultFrame l o, top] (RetryLoop.number l.retries) =
      some (.int (Int64.ofNat n)) := by
    rw [hn]
    exact eval_number _ (Int.natCast_nonneg n) hlt
  have heq : (Int64.ofNat c == Int64.ofNat n) = decide (c = n) := by
    rw [Bool.eq_iff_iff, beq_iff_eq, decide_eq_true_iff, int64_ofNat_inj hc hlt]
  rw [Machine.exec, eval_compare (eval_name hcounter) hnumber]
  simp only [compare?, Option.map_some, heq]
  by_cases hcn : c = n
  · simp only [hcn, decide_true, if_true]
    rw [RetryLoop.block, Machine.execBlock, Machine.execAll, RetryLoop.returning, Machine.exec,
      ret_error h m hvalues o hpos]
    rfl
  · simp only [hcn, decide_false, if_false]

/-- One round of the loop: one call of the closure. -/
theorem execBlock_loopBody (hpos : 0 < m.results) (fuel : Nat) {c n : Nat} (hn : l.retries = n)
    (hc : c < n) (hlt : n < 2 ^ 63) {top : Frame ε ν} (hready : Ready l c top) (s : σ) :
    m.execBlock fuel (RetryLoop.block l.loopBody) [top] s =
      let (o, s') := m.operation s
      if o.error.isNone ∨ c + 1 = n then .returned (Machine.resultsOf o) s'
      else .next [(l.counter, .int (Int64.ofNat (c + 1))) :: top] s' := by
  have hcall := exec_call h m hvalues fuel hready.helper s
  have hsuccess := exec_success h m hvalues hpos fuel (m.operation s).1 hready.nil
    (m.operation s).2
  have hincrement := exec_increment h m fuel (m.operation s).1 (by omega) hready
    (m.operation s).2
  have hexhausted := exec_exhausted h m hvalues hpos fuel (m.operation s).1 hn (by omega) hlt
    (h.ready_succ hready) (m.operation s).2
  rw [RetryLoop.block, RetryLoop.loopBody, Machine.execBlock]
  simp only [Machine.execAll, hcall, Ending.andThen, hsuccess]
  cases ho : (m.operation s).1.error with
  | none => simp [Ending.leave, Ending.andThen]
  | some e =>
      simp only [Option.isNone_some, Bool.false_eq_true, if_false, hincrement, hexhausted, false_or]
      by_cases hcn : c + 1 = n
      · simp [hcn, Ending.leave, Ending.andThen]
      · simp [hcn, Ending.leave, Ending.andThen]

/-! ## The loop -/

omit h hvalues in
theorem eval_loopCond {c n : Nat} (hn : l.retries = n) (hc : c < n) (hlt : n < 2 ^ 63)
    {top : Frame ε ν} (hready : Ready l c top) :
    eval [top] (RetryLoop.compare l.counter .lss (RetryLoop.number l.retries)) =
      some (.bool true) := by
  have hcounter : Frames.lookup [top] l.counter = some (.int (Int64.ofNat c)) := by
    rw [Frames.lookup_cons, hready.counter]
    rfl
  have hnumber : eval [top] (RetryLoop.number l.retries) = some (.int (Int64.ofNat n)) := by
    rw [hn]
    exact eval_number _ (Int.natCast_nonneg n) hlt
  rw [eval_compare (eval_name hcounter) hnumber]
  simp [compare?, int64_ofNat_lt (Nat.lt_trans hc hlt) hlt, hc]

/-- With `more` attempts left after the next one, the loop does what the attempts do. -/
theorem loop_eq_attempts (hpos : 0 < m.results) (inner : Nat) {c n more : Nat} (hn : l.retries = n)
    (hlt : n < 2 ^ 63) (hmore : c + 1 + more = n) {top : Frame ε ν} (hready : Ready l c top)
    {fuel : Nat} (hfuel : more < fuel) (s : σ) :
    let r := Retry.attempts m.operation none (c + 1) more s
    Machine.loop (eval · (RetryLoop.compare l.counter .lss (RetryLoop.number l.retries)))
        (m.execBlock inner (RetryLoop.block l.loopBody)) fuel [top] s =
      .returned (Machine.resultsOf r.1) r.2 := by
  induction more generalizing c top fuel s with
  | zero =>
      obtain ⟨fuel, rfl⟩ := Nat.exists_eq_add_of_lt hfuel
      rw [Machine.loop, eval_loopCond hn (by omega) hlt hready]
      simp only [execBlock_loopBody h m hvalues hpos inner hn (by omega) hlt hready]
      rw [if_pos (.inr (by omega))]
      rfl
  | succ more ih =>
      obtain ⟨fuel, rfl⟩ := Nat.exists_eq_add_of_lt hfuel
      rw [Machine.loop, eval_loopCond hn (by omega) hlt hready, Retry.attempts_succ]
      simp only [execBlock_loopBody h m hvalues hpos inner hn (by omega) hlt hready]
      cases ho : (m.operation s).1.error with
      | none =>
          rw [if_pos (.inl rfl)]
          rfl
      | some e =>
          rw [if_neg (by simp; omega)]
          exact ih (by omega) (h.ready_succ hready) (by omega) (m.operation s).2

/-- From the declaration of the counter on, the statements do what the attempts do. -/
theorem execAll_stmts (hpos : 0 < m.results) {n : Nat} (hn : l.retries = n) (hbudget : 0 < n)
    (hlt : n < 2 ^ 63) {fuel : Nat} (hfuel : n ≤ fuel) (s : σ) :
    let r := Retry.attempts m.operation none 1 (n - 1) s
    m.execAll fuel l.stmts [[(l.helper, .closure)]] s = .returned (Machine.resultsOf r.1) r.2 := by
  let top : Frame ε ν := [(l.counter, .int (Int64.ofNat 0)), (l.helper, .closure)]
  have hne : (l.helper == l.counter) = false := by simpa using h.counter_ne_helper.symm
  have hne' : (l.counter == l.helper) = false := by simpa using h.counter_ne_helper
  have hready : Ready l 0 top := by
    have hnilCounter : (Bytes.ofString "nil" == l.counter) = false := by
      simpa using h.counter_ne_nil.symm
    have hnilHelper : (Bytes.ofString "nil" == l.helper) = false := by
      simpa using h.helper_ne_nil.symm
    refine ⟨by simp [top], ?_, ?_⟩
    · simp [top, List.lookup_cons, hne]
    · simp [top, List.lookup_cons, hnilCounter, hnilHelper]
  have hdefine : Frames.define [l.counter] [.int (Int64.ofNat 0)] [[(l.helper, .closure)]] =
      some [top] := by
    have hblank : (l.counter != [Ascii.underscore]) = true := bne_iff_ne.mpr h.counter_ne_blank
    simp [Frames.define, hblank, List.lookup_cons, hne', top]
  have hcounter : m.exec fuel l.counterStmt [[(l.helper, .closure)]] s = .next [top] s := by
    have hzero := eval_number [[(l.helper, (.closure : Value ε ν))]] (Int.le_refl 0) (by decide)
    rw [RetryLoop.number] at hzero
    rw [RetryLoop.counterStmt, RetryLoop.define, Machine.exec, RetryLoop.number]
    simp only [Machine.define, hzero, names?_map_name]
    rw [show (0 : Int).toNat = 0 from rfl, hdefine]
  have hloop := loop_eq_attempts h m hvalues hpos fuel hn hlt
    (show 0 + 1 + (n - 1) = n by omega) hready (show n - 1 < fuel by omega) s
  intro r
  rw [RetryLoop.stmts, Machine.execAll, hcounter, Ending.andThen, Machine.execAll,
    RetryLoop.loopStmt, Machine.exec, hloop]
  rfl

end Round

/-! ## The loop that is built -/

theorem hygienic_of_built {defaults : RetryLoop.Defaults} {directive : Directive}
    {target : Option Owner} {contextName : Option Bytes} {supply : NameSupply}
    {signature : Signature} {l : RetryLoop}
    (h : RetryLoop.Built defaults directive target contextName supply signature l) :
    Hygienic l where
  nodup := h.names_nodup
  nil_notMem hmem := (h.hasShape hmem).ne_nil rfl
  blank_notMem hmem := (h.hasShape hmem).ne_blank rfl

/-- The statements return what a run returns: its values, its error, and the state it leaves. -/
def Agrees (l : RetryLoop) (m : Machine σ ε ν) [Inhabited ν] (fuel : Nat) (s : σ) : Prop :=
  ∃ (outcome : Retry.Outcome ε (Vector ν (m.results - 1))) (s' : σ),
    Retry.run () l.retries none (fun _ => m.operation) s =
      (⟨outcome.value, outcome.error.map .attempt⟩, s') ∧
    execLoop l m fuel s = .returned (outcome.value.toList.map .data ++ [.error outcome.error]) s'

theorem agrees_of_hygienic {l : RetryLoop} (h : Hygienic l) (m : Machine σ ε ν) [Inhabited ν]
    (hvalues : l.values.length = m.results - 1) (hpos : 0 < m.results) (hbudget : 0 < l.retries)
    (hlt : l.retries.toNat < 2 ^ 63) {fuel : Nat} (hfuel : l.retries.toNat ≤ fuel) (s : σ) :
    Agrees l m fuel s := by
  have hrun : Retry.run () l.retries none (fun _ => m.operation) s = _ :=
    if_neg (Int.not_le.mpr hbudget)
  exact ⟨_, _, hrun,
    execAll_stmts h m hvalues hpos (by omega) (by omega) hlt hfuel s⟩

/-- The statements that are built for a declaration, with the closure bound to any operation with as
many results, return what a run of that operation returns under the same budget and without an
observer. They do so within as many rounds as the budget says, under both readings of the increment,
and with as many calls at most, which are the same in the same order. -/
theorem loop_refines_run {directive : Directive} {target : Option Owner} {place : Position}
    {contextName : Option Bytes} {supply : NameSupply} {default : Int64} {message : Bytes}
    {l : RetryLoop}
    (h : RetryLoop.build ⟨default.toInt, message⟩ directive target place contextName supply =
      .ok l) :
    Directive.budget directive.args default.toInt = .ok l.retries ∧
    (target.bind Signature.ofOwner?).bind (·.type.results) = some l.results ∧
    ∀ {σ ε ν : Type} [Inhabited ν]
      (operation : σ → Retry.Outcome ε (Vector ν (Signature.resultCount l.results - 1)) × σ)
      (arithmetic : Arithmetic) (fuel : Nat), l.retries.toNat ≤ fuel → ∀ s : σ,
      let recorded := Retry.Operation.recorded (fun _ : Unit => operation) ()
      Agrees l ⟨Signature.resultCount l.results, operation, arithmetic⟩ fuel s ∧
      Agrees l ⟨Signature.resultCount l.results, recorded, arithmetic⟩ fuel (s, []) ∧
      (Retry.run () l.retries none (fun _ => recorded) (s, [])).2.2.length ≤
        l.retries.toNat := by
  obtain ⟨signature, hbuilt⟩ := RetryLoop.built_of_build h
  obtain ⟨hbudget, hbound⟩ := Directive.budget_bounds hbuilt.budget
  have hlt : l.retries.toNat < 2 ^ 63 := by
    have hdefault := default.toInt_lt
    simp only [Directive.maxBudget] at hbound
    omega
  have hcount := Signature.resultCount_pos hbuilt.results
  have hl := hygienic_of_built hbuilt
  refine ⟨hbuilt.budget, ?_, ?_⟩
  · rw [hbuilt.owner]
    exact Signature.results_of_fallible? hbuilt.results
  · intro σ ε ν _ operation arithmetic fuel hfuel s recorded
    refine ⟨agrees_of_hygienic hl _ hbuilt.values_length hcount hbudget hlt hfuel s,
      agrees_of_hygienic hl _ hbuilt.values_length hcount hbudget hlt hfuel (s, []), ?_⟩
    rw [show Retry.run () l.retries none (fun _ => recorded) (s, []) = _ from
      Retry.run_recorded () (fun _ => operation) none s hbudget, Retry.length_course_none]
    exact Retry.lastAttempt_le operation none s l.retries.toNat

/-- `func pair() (a, b int, err error)`, with an empty body. -/
def pairDecl : FuncDecl where
  doc := none
  recv := none
  name := .fresh "pair"
  type := ⟨none, none, ⟨none, [], none⟩, some ⟨none, [
    ⟨none, [.fresh "a", .fresh "b"], .ident (.fresh "int"), none, none⟩,
    ⟨none, [.fresh "err"], .ident (.fresh "error"), none, none⟩], none⟩⟩
  body := some ⟨none, [], none⟩

/-- Under a budget of two, an operation whose first call fails is called twice. -/
theorem loop_refines_run_pair :
    ∃ l, RetryLoop.build ⟨(3 : Int64).toInt, "m"⟩ ⟨["retries=0x2"], .unknown⟩
        (some (.func pairDecl)) .unknown none ⟨.sequential, "retry", ["retryErr"]⟩ = .ok l ∧
      l.retries.toNat ≤ 2 ∧
      let operation : Nat →
          Retry.Outcome Bytes (Vector Nat (Signature.resultCount l.results - 1)) × Nat :=
        fun calls => (⟨Vector.replicate _ calls, if calls = 0 then some "e" else none⟩, calls + 1)
      Agrees l ⟨Signature.resultCount l.results, operation, .stops⟩ 2 0 ∧
      execLoop l ⟨Signature.resultCount l.results, operation, .stops⟩ 2 0 =
        .returned [.data 1, .data 1, .error none] 2 := by
  refine ⟨_, rfl, by decide, ?_, rfl⟩
  have hbuild : RetryLoop.build ⟨(3 : Int64).toInt, "m"⟩ ⟨["retries=0x2"], .unknown⟩
      (some (.func pairDecl)) .unknown none ⟨.sequential, "retry", ["retryErr"]⟩ = .ok _ := rfl
  exact ((loop_refines_run hbuild).2.2 _ .stops 2 (by decide) 0).1

end RetryWeave.Execution
