import RetryWeave.Retry

/-! # The contract of retried operations

A run calls its operation until the first success, at most as often as its budget allows. The
attempts are described here one by one, without the loop that makes them. -/

namespace RetryWeave.Retry

variable {κ σ ε α : Type}

/-! ## The attempts one by one -/

/-- The state after an observer, if there is one, was told of a failed attempt. -/
def notify (observe : Option (Observer σ ε)) (n : Nat) (e : ε) (s : σ) : σ :=
  match observe with
  | some f => f n e s
  | none => s

/-- The state after `n` failed attempts, in which the next one starts. -/
def stateAfter (op : σ → Outcome ε α × σ) (observe : Option (Observer σ ε)) (s : σ) : Nat → σ
  | 0 => s
  | n + 1 =>
    let (outcome, s') := op (stateAfter op observe s n)
    match outcome.error with
    | some e => notify observe (n + 1) e s'
    | none => s'

/-- What attempt number `n` returns when all before it failed. The first one has number 1. -/
def attempt (op : σ → Outcome ε α × σ) (observe : Option (Observer σ ε)) (s : σ) (n : Nat) :
    Outcome ε α × σ :=
  op (stateAfter op observe s (n - 1))

def succeeds (op : σ → Outcome ε α × σ) (observe : Option (Observer σ ε)) (s : σ) (n : Nat) :
    Bool :=
  (attempt op observe s n).1.error.isNone

/-- The least attempt up to number `n` that succeeds, or `n` if none of them does. -/
def lastAttempt (op : σ → Outcome ε α × σ) (observe : Option (Observer σ ε)) (s : σ) (n : Nat) :
    Nat :=
  ((List.range' 1 n).find? (succeeds op observe s)).getD n

/-- The same among `count` attempts from number `first` on. -/
def lastAttemptFrom (op : σ → Outcome ε α × σ) (observe : Option (Observer σ ε)) (s : σ)
    (first count : Nat) : Nat :=
  ((List.range' first count).find? (succeeds op observe s)).getD (first + count - 1)

/-! ## What happens outside -/

/-- A call of the operation, or a call of the observer. -/
inductive Event (κ ε α : Type) where
  | called (context : κ) (outcome : Outcome ε α)
  | told (attempt : Nat) (error : ε)
deriving DecidableEq, Repr

namespace Event

@[simp] def isCall : Event κ ε α → Bool
  | called .. => true
  | told .. => false

end Event

/-- The operation, with a log of its calls as part of the state. -/
def Operation.recorded (op : Operation κ σ ε α) : Operation κ (σ × List (Event κ ε α)) ε α :=
  fun context (s, log) =>
    let (outcome, s') := op context s
    (outcome, s', log ++ [.called context outcome])

/-- The observer, with a log of its calls as part of the state. -/
def Observer.recorded (f : Observer σ ε) : Observer (σ × List (Event κ ε α)) ε :=
  fun n e (s, log) => (f n e s, log ++ [.told n e])

/-- The calls of attempt number `i`: that of the operation, and unless it is the last attempt that
of the observer. -/
def eventsOf (context : κ) (op : σ → Outcome ε α × σ) (observe : Option (Observer σ ε)) (s : σ)
    (last i : Nat) : List (Event κ ε α) :=
  let outcome := (attempt op observe s i).1
  .called context outcome ::
    if i = last then []
    else
      match observe, outcome.error with
      | some _, some e => [.told i e]
      | _, _ => []

/-- The calls of a run whose last attempt has number `last`. -/
def course (context : κ) (op : σ → Outcome ε α × σ) (observe : Option (Observer σ ε)) (s : σ)
    (last : Nat) : List (Event κ ε α) :=
  (List.range' 1 last).flatMap (eventsOf context op observe s last)

/-! ## One attempt after another -/

section Attempts

variable (op : σ → Outcome ε α × σ) (observe : Option (Observer σ ε)) (s : σ)

theorem attempt_succ (n : Nat) :
    attempt op observe s (n + 1) = op (stateAfter op observe s n) := rfl

theorem stateAfter_succ_of_error {n : Nat} {e : ε}
    (h : (attempt op observe s (n + 1)).1.error = some e) :
    stateAfter op observe s (n + 1) = notify observe (n + 1) e (attempt op observe s (n + 1)).2 := by
  rw [attempt_succ] at h ⊢
  simp only [stateAfter, h]

theorem attempts_succ (n more : Nat) :
    attempts op observe n (more + 1) s =
      match (op s).1.error with
      | none => op s
      | some e => attempts op observe (n + 1) more (notify observe n e (op s).2) := by
  cases h : (op s).1.error with
  | none => simp only [attempts, h]
  | some e => cases observe <;> simp only [attempts, notify, h]

theorem lastAttemptFrom_first (n : Nat) :
    lastAttemptFrom op observe s 1 n = lastAttempt op observe s n := by
  simp [lastAttemptFrom, lastAttempt]

theorem lastAttemptFrom_one (first : Nat) : lastAttemptFrom op observe s first 1 = first := by
  cases h : succeeds op observe s first <;> simp [lastAttemptFrom, h]

theorem lastAttemptFrom_of_succeeds {first : Nat} (count : Nat)
    (h : succeeds op observe s first = true) :
    lastAttemptFrom op observe s first (count + 1) = first := by
  simp [lastAttemptFrom, List.range'_succ, h]

theorem lastAttemptFrom_of_fails {first : Nat} (count : Nat)
    (h : succeeds op observe s first = false) :
    lastAttemptFrom op observe s first (count + 1) =
      lastAttemptFrom op observe s (first + 1) count := by
  simp only [lastAttemptFrom, List.range'_succ, List.find?_cons, h]
  congr 1
  omega

theorem le_lastAttemptFrom (first count : Nat) :
    first ≤ lastAttemptFrom op observe s first (count + 1) := by
  induction count generalizing first with
  | zero => exact Nat.le_of_eq (lastAttemptFrom_one op observe s first).symm
  | succ count ih =>
      cases h : succeeds op observe s first with
      | true => exact Nat.le_of_eq (lastAttemptFrom_of_succeeds op observe s (count + 1) h).symm
      | false =>
          rw [lastAttemptFrom_of_fails op observe s (count + 1) h]
          exact Nat.le_trans (Nat.le_succ first) (ih (first + 1))

theorem lastAttempt_le (n : Nat) : lastAttempt op observe s n ≤ n := by
  rw [lastAttempt]
  cases h : (List.range' 1 n).find? (succeeds op observe s) with
  | none => exact Nat.le_refl n
  | some m =>
      have hm := List.mem_range'_1.mp (List.mem_of_find?_eq_some h)
      show m ≤ n
      omega

theorem fails_before_lastAttemptFrom {first i : Nat} (count : Nat) (hi : first ≤ i)
    (hlt : i < lastAttemptFrom op observe s first (count + 1)) :
    succeeds op observe s i = false := by
  induction count generalizing first with
  | zero =>
      rw [lastAttemptFrom_one] at hlt
      omega
  | succ count ih =>
      cases h : succeeds op observe s first with
      | true =>
          rw [lastAttemptFrom_of_succeeds op observe s (count + 1) h] at hlt
          omega
      | false =>
          rw [lastAttemptFrom_of_fails op observe s (count + 1) h] at hlt
          rcases Nat.eq_or_lt_of_le hi with rfl | hi
          · exact h
          · exact ih hi hlt

/-- The loop ends with the last attempt. It enters its rounds in the states that are reached by
failing attempts. -/
theorem attempts_eq_attempt (n more : Nat) :
    attempts op observe (n + 1) more (stateAfter op observe s n) =
      attempt op observe s (lastAttemptFrom op observe s (n + 1) (more + 1)) := by
  induction more generalizing n with
  | zero => rw [lastAttemptFrom_one, attempt_succ, attempts]
  | succ more ih =>
      rw [attempts_succ]
      cases h : (op (stateAfter op observe s n)).1.error with
      | none =>
          have hs : succeeds op observe s (n + 1) = true := by simp [succeeds, attempt_succ, h]
          rw [lastAttemptFrom_of_succeeds op observe s (more + 1) hs, attempt_succ]
      | some e =>
          have hs : succeeds op observe s (n + 1) = false := by simp [succeeds, attempt_succ, h]
          rw [lastAttemptFrom_of_fails op observe s (more + 1) hs, ← ih,
            stateAfter_succ_of_error op observe s h, attempt_succ]

end Attempts

/-! ## The log of a run -/

section Log

variable (context : κ) (op : Operation κ σ ε α) (observe : Option (Observer σ ε)) (s : σ)

/-- The events of a failed attempt that is not the last are its two calls. -/
theorem notify_recorded {n : Nat} (last : Nat) {e : ε} (log : List (Event κ ε α))
    (hn : n + 1 ≠ last)
    (h : (attempt (op context) observe s (n + 1)).1.error = some e) :
    notify (observe.map Observer.recorded) (n + 1) e
        (op.recorded context (stateAfter (op context) observe s n, log)).2 =
      (stateAfter (op context) observe s (n + 1),
        log ++ eventsOf context (op context) observe s last (n + 1)) := by
  rw [stateAfter_succ_of_error (op context) observe s h]
  cases observe with
  | none => simp [notify, eventsOf, Operation.recorded, attempt_succ, hn]
  | some f =>
      simp only [eventsOf, if_neg hn, h]
      simp [notify, Operation.recorded, Observer.recorded, attempt_succ]

/-- A run with a log does what the run without it does, and its log is that of the attempts from
number `n + 1` to the last one. -/
theorem attempts_recorded (n more : Nat) (log : List (Event κ ε α)) :
    let last := lastAttemptFrom (op context) observe s (n + 1) (more + 1)
    attempts (op.recorded context) (observe.map Observer.recorded) (n + 1) more
        (stateAfter (op context) observe s n, log) =
      ((attempt (op context) observe s last).1, (attempt (op context) observe s last).2,
        log ++ (List.range' (n + 1) (last - n)).flatMap
          (eventsOf context (op context) observe s last)) := by
  intro last
  induction more generalizing n log with
  | zero =>
      have hlast : last = n + 1 := lastAttemptFrom_one (op context) observe s (n + 1)
      simp [hlast, attempts, Operation.recorded, eventsOf, attempt_succ]
  | succ more ih =>
      rw [attempts_succ]
      cases h : (op context (stateAfter (op context) observe s n)).1.error with
      | none =>
          have hs : succeeds (op context) observe s (n + 1) = true := by
            simp [succeeds, attempt_succ, h]
          have hlast : last = n + 1 :=
            lastAttemptFrom_of_succeeds (op context) observe s (more + 1) hs
          simp [hlast, Operation.recorded, h, eventsOf, attempt_succ]
      | some e =>
          have hs : succeeds (op context) observe s (n + 1) = false := by
            simp [succeeds, attempt_succ, h]
          have hlast : last = lastAttemptFrom (op context) observe s (n + 2) (more + 1) :=
            lastAttemptFrom_of_fails (op context) observe s (more + 1) hs
          have hlt : n + 2 ≤ last := hlast ▸ le_lastAttemptFrom (op context) observe s (n + 2) more
          have herror : (op.recorded context
              (stateAfter (op context) observe s n, log)).1.error = some e := h
          have hrange : List.range' (n + 1) (last - n) =
              (n + 1) :: List.range' (n + 2) (last - (n + 1)) := by
            have hcount : last - n = last - (n + 1) + 1 := by omega
            rw [hcount, List.range'_succ]
          simp only [herror]
          rw [notify_recorded context op observe s last log (by omega) h, ih (n + 1), ← hlast,
            hrange, List.flatMap_cons, List.append_assoc]

theorem run_recorded [Inhabited α] {budget : Int} (hpos : 0 < budget) :
    let last := lastAttempt (op context) observe s budget.toNat
    let ended := attempt (op context) observe s last
    run context budget (observe.map Observer.recorded) op.recorded (s, []) =
      (⟨ended.1.value, ended.1.error.map .attempt⟩, ended.2,
        course context (op context) observe s last) := by
  have hcount : budget.toNat - 1 + 1 = budget.toNat := by omega
  have h := attempts_recorded context op observe s 0 (budget.toNat - 1) []
  simp only [stateAfter, hcount, Nat.zero_add, lastAttemptFrom_first] at h
  simp only [run, if_neg (Int.not_le.mpr hpos), h]
  rfl

theorem run_of_pos [Inhabited α] {budget : Int} (hpos : 0 < budget) :
    let ended := attempt (op context) observe s
      (lastAttempt (op context) observe s budget.toNat)
    run context budget observe op s =
      (⟨ended.1.value, ended.1.error.map .attempt⟩, ended.2) := by
  have hcount : budget.toNat - 1 + 1 = budget.toNat := by omega
  have h := attempts_eq_attempt (op context) observe s 0 (budget.toNat - 1)
  simp only [stateAfter, hcount, Nat.zero_add, lastAttemptFrom_first] at h
  simp only [run, if_neg (Int.not_le.mpr hpos), h]

theorem run_of_nonpos [Inhabited α] {budget : Int} (h : budget ≤ 0) :
    run context budget observe op s = (⟨default, some .nonPositiveBudget⟩, s) := by
  rw [run, if_pos h]

end Log

/-! ## The number of calls -/

section Count

variable (context : κ) (op : σ → Outcome ε α × σ) (observe : Option (Observer σ ε)) (s : σ)

/-- What holds of one member of each block is counted block by block. -/
private theorem countP_flatMap_one {β γ : Type} (p : γ → Bool) (f : β → List γ) (xs : List β)
    (h : ∀ x ∈ xs, (f x).countP p = 1) : (xs.flatMap f).countP p = xs.length := by
  induction xs with
  | nil => rfl
  | cons x xs ih =>
      rw [List.flatMap_cons, List.countP_append, h x (by simp),
        ih fun y hy => h y (by simp [hy]), List.length_cons, Nat.add_comm]

theorem countP_called_course (last : Nat) :
    (course context op observe s last).countP Event.isCall = last := by
  rw [course, countP_flatMap_one, List.length_range']
  intro i _
  by_cases hi : i = last
  · simp [eventsOf, hi]
  · cases h : (attempt op observe s i).1.error <;> cases observe <;>
      simp [eventsOf, List.countP_cons, h, hi]

/-- Without an observer all events are calls of the operation. -/
theorem length_course_none (last : Nat) : (course context op none s last).length = last := by
  have hcalls : ∀ event ∈ course context op none s last, event.isCall = true := by
    intro event h
    simp only [course, eventsOf, ite_self, List.mem_flatMap, List.mem_singleton] at h
    obtain ⟨i, _, rfl⟩ := h
    rfl
  rw [← List.countP_eq_length.mpr hcalls, countP_called_course]

theorem countP_told_course_none (last : Nat) :
    (course context op none s last).countP (fun event => !event.isCall) = 0 := by
  have hcalls := countP_called_course context op none s last
  have hlength := length_course_none context op s last
  rw [List.length_eq_countP_add_countP Event.isCall] at hlength
  simpa [hcalls] using hlength

/-- The observer is told of all attempts but the last one. -/
theorem countP_told_course_some (f : Observer σ ε) {n : Nat} (hpos : 0 < n) :
    let last := lastAttempt op (some f) s n
    (course context op (some f) s last).countP (fun event => !event.isCall) = last - 1 := by
  intro last
  have hn : n - 1 + 1 = n := by omega
  have hfirst : lastAttemptFrom op (some f) s 1 (n - 1 + 1) = last := by
    rw [hn, lastAttemptFrom_first]
  have hle : 1 ≤ last := hfirst ▸ le_lastAttemptFrom op (some f) s 1 (n - 1)
  have hrange : List.range' 1 last = List.range' 1 (last - 1) ++ [last] := by
    have hcount : last = last - 1 + 1 := by omega
    conv => lhs; rw [hcount, List.range'_1_concat]
    congr 2
    omega
  have hended : (eventsOf context op (some f) s last last).countP (fun event => !event.isCall) =
      0 := by
    simp [eventsOf]
  rw [course, hrange, List.flatMap_append, List.countP_append, countP_flatMap_one,
    List.length_range', List.flatMap_singleton, hended, Nat.add_zero]
  intro i hi
  rw [List.mem_range'_1] at hi
  have hfails := fails_before_lastAttemptFrom op (some f) s (n - 1) hi.1 (by omega)
  have hne : i ≠ last := by omega
  cases h : (attempt op (some f) s i).1.error with
  | none => simp [succeeds, h] at hfails
  | some e => simp [eventsOf, hne, h]

end Count

/-! ## Operations without a value -/

/-- The operation without its value. -/
def Operation.errorOnly (op : Operation κ σ ε α) : κ → σ → Option ε × σ :=
  fun context s => ((op context s).1.error, (op context s).2)

theorem attempts_congr_error {β : Type} {op : σ → Outcome ε α × σ} {op' : σ → Outcome ε β × σ}
    (h : ∀ s, (op s).1.error = (op' s).1.error ∧ (op s).2 = (op' s).2)
    (observe : Option (Observer σ ε)) (n more : Nat) (s : σ) :
    (attempts op observe n more s).1.error = (attempts op' observe n more s).1.error ∧
      (attempts op observe n more s).2 = (attempts op' observe n more s).2 := by
  induction more generalizing n s with
  | zero => exact h s
  | succ more ih =>
      obtain ⟨herror, hstate⟩ := h s
      rw [attempts_succ, attempts_succ, ← herror, ← hstate]
      cases (op s).1.error with
      | none => exact ⟨herror, hstate⟩
      | some e => exact ih (n + 1) _

namespace Executor

theorem execute_errorOnly [Inhabited α] (e : Executor σ ε) (context : κ)
    (op : Operation κ σ ε α) (s : σ) :
    e.execute context op.errorOnly s =
      ((run context e.budget e.observe op s).1.error, (run context e.budget e.observe op s).2) := by
  simp only [execute, run]
  split
  · rfl
  · let unit : σ → Outcome ε Unit × σ :=
      fun s => (⟨(), (op.errorOnly context s).1⟩, (op.errorOnly context s).2)
    have hunit : ∀ s, (unit s).1.error = (op context s).1.error ∧ (unit s).2 = (op context s).2 :=
      fun _ => ⟨rfl, rfl⟩
    obtain ⟨herror, hstate⟩ :=
      attempts_congr_error hunit e.observe 1 (e.budget.toNat - 1) s
    exact Prod.ext (congrArg (Option.map RunError.attempt) herror) hstate

/-- Of a chain of observers the last one counts. -/
theorem foldl_withObserver (e : Executor σ ε) (fs : List (Option (Observer σ ε))) :
    fs.foldl withObserver e = ⟨e.budget, fs.getLast?.getD e.observe⟩ := by
  induction fs generalizing e with
  | nil => rfl
  | cons f fs ih =>
      rw [List.foldl_cons, ih]
      cases fs <;> simp [withObserver, List.getLast?_cons]

end Executor

/-! ## Executors in use -/

/-- What can be done with the executors at hand, which are told apart by their number. -/
inductive Use (κ σ ε : Type) where
  | create (budget : Int)
  | derive (of : Nat) (f : Option (Observer σ ε))
  | execute (of : Nat) (context : κ) (op : κ → σ → Option ε × σ)

namespace Use

/-- New executors come last. -/
def apply (st : List (Executor σ ε) × σ) : Use κ σ ε → List (Executor σ ε) × σ
  | create budget => (st.1 ++ [.ofBudget budget], st.2)
  | derive i f => (st.1 ++ (st.1[i]?.map (·.withObserver f)).toList, st.2)
  | execute i context op =>
    (st.1, ((st.1[i]?.map fun e => (e.execute context op st.2).2)).getD st.2)

theorem isPrefix_apply (st : List (Executor σ ε) × σ) (use : Use κ σ ε) :
    st.1 <+: (apply st use).1 := by
  cases use with
  | create budget => exact List.prefix_append _ _
  | derive i f => exact List.prefix_append _ _
  | execute i context op => exact List.prefix_rfl

theorem isPrefix_foldl_apply (uses : List (Use κ σ ε)) (st : List (Executor σ ε) × σ) :
    st.1 <+: (uses.foldl apply st).1 := by
  induction uses generalizing st with
  | nil => exact List.prefix_rfl
  | cons use uses ih => exact (isPrefix_apply st use).trans (ih (apply st use))

/-- An executor by its origin: the budget of the first executor of its line, and the observers given on
the way from that one to it. -/
abbrev Line (σ ε : Type) := Int × List (Option (Observer σ ε))

/-- The executor at the end of a line. -/
def ofLine (line : Line σ ε) : Executor σ ε := ⟨line.1, line.2.getLast?.getD none⟩

/-- The lines of all executors after one more use. -/
def trace (lines : List (Line σ ε)) : Use κ σ ε → List (Line σ ε)
  | create budget => lines ++ [(budget, [])]
  | derive i f => lines ++ (lines[i]?.map fun line => (line.1, line.2 ++ [f])).toList
  | execute _ _ _ => lines

theorem apply_map_ofLine (lines : List (Line σ ε)) (s : σ) (use : Use κ σ ε) :
    (apply (lines.map ofLine, s) use).1 = (trace lines use).map ofLine := by
  cases use with
  | create budget => simp [apply, trace, ofLine, Executor.ofBudget]
  | derive i f =>
      have hlast : ∀ line : Line σ ε, (ofLine line).withObserver f =
          ofLine (line.1, line.2 ++ [f]) := by
        intro line
        simp [ofLine, Executor.withObserver]
      cases hi : lines[i]? <;> simp [apply, trace, hi, hlast]
  | execute i context op => rfl

/-- Every executor at hand is that of its line, whatever was done with it and with the others. -/
theorem foldl_apply_map_ofLine (uses : List (Use κ σ ε)) (lines : List (Line σ ε)) (s : σ) :
    (uses.foldl apply (lines.map ofLine, s)).1 = (uses.foldl trace lines).map ofLine := by
  induction uses generalizing lines s with
  | nil => rfl
  | cons use uses ih =>
      have hstep : apply (lines.map ofLine, s) use =
          ((trace lines use).map ofLine, (apply (lines.map ofLine, s) use).2) :=
        Prod.ext (apply_map_ofLine lines s use) rfl
      rw [List.foldl_cons, List.foldl_cons, hstep, ih]

end Use

/-! ## The contract -/

/-- What a run does: its result, the state it leaves, and its calls in their order. -/
structure RunContract [Inhabited α] (context : κ) (budget : Int)
    (observe : Option (Observer σ ε)) (op : Operation κ σ ε α) (s : σ) : Prop where
  /-- Without a positive budget nothing is called. -/
  refused : budget ≤ 0 →
    run context budget (observe.map Observer.recorded) op.recorded (s, []) =
      (⟨default, some .nonPositiveBudget⟩, s, [])
  /-- Otherwise the result is that of the last attempt, and each attempt before it is followed by
  a call of the observer with its number and its error. -/
  ended : 0 < budget →
    let last := lastAttempt (op context) observe s budget.toNat
    let outcome := attempt (op context) observe s last
    run context budget (observe.map Observer.recorded) op.recorded (s, []) =
      (⟨outcome.1.value, outcome.1.error.map .attempt⟩, outcome.2,
        course context (op context) observe s last)
  calls : 0 < budget →
    let last := lastAttempt (op context) observe s budget.toNat
    (course context (op context) observe s last).countP (·.isCall) = last ∧
      (course context (op context) observe s last).countP (!·.isCall) =
        if observe.isSome then last - 1 else 0
  /-- A log changes nothing. -/
  unrecorded :
    let recorded := run context budget (observe.map Observer.recorded) op.recorded (s, [])
    run context budget observe op s = (recorded.1, recorded.2.1)

theorem runContract [Inhabited α] (context : κ) (budget : Int) (observe : Option (Observer σ ε))
    (op : Operation κ σ ε α) (s : σ) : RunContract context budget observe op s where
  refused h := run_of_nonpos context op.recorded (observe.map Observer.recorded) (s, []) h
  ended h := run_recorded context op observe s h
  calls h := by
    refine ⟨countP_called_course context (op context) observe s _, ?_⟩
    cases observe with
    | none => exact countP_told_course_none context (op context) s _
    | some f => exact countP_told_course_some context (op context) s f (by omega)
  unrecorded := by
    intro recorded
    by_cases h : budget ≤ 0
    · rw [run_of_nonpos context op observe s h,
        show recorded = _ from run_of_nonpos context op.recorded _ (s, []) h]
    · rw [run_of_pos context op observe s (Int.not_le.mp h),
        show recorded = _ from run_recorded context op observe s (Int.not_le.mp h)]

/-- Every way to retry an operation keeps the contract of the run: the operation is called up to its
first success and at most as often as the budget says, the observer is told between attempts, and
the last outcome is returned. Executors follow the last observer they were given, and no use of an
executor changes another one. -/
theorem retry_contract [Inhabited α] (context : κ) (budget : Int) (op : Operation κ σ ε α)
    (op' : σ → Outcome ε α × σ) (s : σ) :
    (∀ observe, RunContract context budget observe op s) ∧
    runValueIn context budget op s = run context budget none op s ∧
    runValue budget op' s = run context budget none (fun _ => op') s ∧
    runIn context budget op.errorOnly s =
      ((runValueIn context budget op s).1.error, (runValueIn context budget op s).2) ∧
    runAlone budget (fun s => ((op' s).1.error, (op' s).2)) s =
      ((runValue budget op' s).1.error, (runValue budget op' s).2) ∧
    (∀ fs : List (Option (Observer σ ε)),
      (fs.foldl Executor.withObserver (.ofBudget budget)).execute context op.errorOnly s =
        ((run context budget (fs.getLast?.getD none) op s).1.error,
          (run context budget (fs.getLast?.getD none) op s).2)) ∧
    (∀ (uses : List (Use κ σ ε)) (pool : List (Executor σ ε)),
      pool <+: (uses.foldl Use.apply (pool, s)).1) ∧
    ∀ (uses : List (Use κ σ ε)) (i : Nat) (line : Use.Line σ ε),
      (uses.foldl Use.trace [])[i]? = some line →
        ∃ e, (uses.foldl Use.apply ([], s)).1[i]? = some e ∧
          ∀ context' s', e.execute context' op.errorOnly s' =
            ((run context' line.1 (line.2.getLast?.getD none) op s').1.error,
              (run context' line.1 (line.2.getLast?.getD none) op s').2) := by
  refine ⟨fun observe => runContract context budget observe op s, rfl, rfl, ?_, ?_, ?_, ?_, ?_⟩
  · exact (Executor.ofBudget budget).execute_errorOnly context op s
  · exact (Executor.ofBudget budget).execute_errorOnly () (fun _ => op') s
  · intro fs
    rw [Executor.foldl_withObserver]
    exact Executor.execute_errorOnly ⟨budget, fs.getLast?.getD none⟩ context op s
  · intro uses pool
    exact Use.isPrefix_foldl_apply uses (pool, s)
  · intro uses i line hline
    refine ⟨Use.ofLine line, ?_, fun context' s' => ?_⟩
    · have hpool := Use.foldl_apply_map_ofLine uses [] s
      rw [List.map_nil] at hpool
      rw [hpool, List.getElem?_map, hline, Option.map_some]
    · exact Executor.execute_errorOnly (Use.ofLine line) context' op s'

/-- Succeeds once the state is twenty, and counts. -/
def countingTo20 : Operation Unit Nat Bytes Nat := fun _ n =>
  (⟨n, if n < 20 then some "too early" else none⟩, n + 1)

/-- Adds ten to the state. -/
def addingTen : Observer Nat Bytes := fun _ _ n => n + 10

/-- The executor of a line of two attempts, one derived from it, and a run of the first one. -/
def twoInUse : List (Use Unit Nat Bytes) :=
  [.create 2, .derive 0 (some addingTen), .execute 0 () countingTo20.errorOnly]

/-- The third of five attempts succeeds, as the observer was told twice. Without a budget nothing is
called. Of two executors of one line only the derived one has an observer. -/
theorem retry_contract_third_attempt :
    (0 : Int) < 5 ∧ lastAttempt (countingTo20 ()) (some addingTen) 0 5 = 3 ∧
    run () 5 (some addingTen.recorded) countingTo20.recorded (0, []) = (⟨22, none⟩, 23,
      [.called () ⟨0, some "too early"⟩, .told 1 "too early", .called () ⟨11, some "too early"⟩,
        .told 2 "too early", .called () ⟨22, none⟩]) ∧
    run () 0 (some addingTen.recorded) countingTo20.recorded (0, []) =
      (⟨0, some .nonPositiveBudget⟩, 0, []) ∧
    (∃ e, (twoInUse.foldl Use.apply ([], 0)).1[0]? = some e ∧
      e.execute () countingTo20.errorOnly 0 = (some (.attempt "too early"), 2)) ∧
    ∃ e, (twoInUse.foldl Use.apply ([], 0)).1[1]? = some e ∧
      e.execute () countingTo20.errorOnly 0 = (some (.attempt "too early"), 12) := by
  obtain ⟨hruns, -, -, -, -, -, -, hlines⟩ := retry_contract () 5 countingTo20 (countingTo20 ()) 0
  obtain ⟨hnone, -⟩ := retry_contract () 0 countingTo20 (countingTo20 ()) 0
  obtain ⟨e, he, hexecute⟩ := hlines twoInUse 0 (2, []) rfl
  obtain ⟨e', he', hexecute'⟩ := hlines twoInUse 1 (2, [some addingTen]) rfl
  exact ⟨by decide, rfl, (hruns (some addingTen)).ended (by decide),
    (hnone (some addingTen)).refused (by decide), ⟨e, he, hexecute () 0⟩, e', he', hexecute' () 0⟩

end RetryWeave.Retry
