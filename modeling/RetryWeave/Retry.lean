import RetryWeave.Failure

/-!
Running an operation until it succeeds or its attempts are used up.
-/

namespace RetryWeave.Retry

/-- What one attempt returns: a value, and an error if it failed. -/
structure Outcome (ε α : Type) where
  value : α
  error : Option ε
deriving DecidableEq, Repr

/-- An operation that is given a context and may change a state. -/
abbrev Operation (κ σ ε α : Type) := κ → σ → Outcome ε α × σ

/-- What is told of a failed attempt when another follows: its number, and its error. -/
abbrev Observer (σ ε : Type) := Nat → ε → σ → σ

/-- Why a run failed. -/
inductive RunError (ε : Type) where
  | nonPositiveBudget
  | attempt (error : ε)
deriving DecidableEq, Repr

/-- Attempt number `n`, and at most `more` attempts after it. -/
def attempts {σ ε α : Type} (op : σ → Outcome ε α × σ) (observe : Option (Observer σ ε)) :
    Nat → Nat → σ → Outcome ε α × σ
  | _, 0, s => op s
  | n, more + 1, s =>
    let (outcome, s') := op s
    match outcome.error with
    | none => (outcome, s')
    | some e =>
      let s'' := match observe with
        | some f => f n e s'
        | none => s'
      attempts op observe (n + 1) more s''

/-- Runs an operation at most `budget` times and returns what its last attempt returned. Without a
positive budget the operation is not run. -/
def run {κ σ ε α : Type} [Inhabited α] (context : κ) (budget : Int)
    (observe : Option (Observer σ ε)) (op : Operation κ σ ε α) (s : σ) :
    Outcome (RunError ε) α × σ :=
  if budget ≤ 0 then (⟨default, some .nonPositiveBudget⟩, s)
  else
    let (outcome, s') := attempts (op context) observe 1 (budget.toNat - 1) s
    (⟨outcome.value, outcome.error.map .attempt⟩, s')

/-- A budget with an optional observer. -/
structure Executor (σ ε : Type) where
  budget : Int
  observe : Option (Observer σ ε)

namespace Executor

def ofBudget {σ ε : Type} (budget : Int) : Executor σ ε := ⟨budget, none⟩

/-- The executor with another observer, or with none. -/
def withObserver {σ ε : Type} (e : Executor σ ε) (f : Option (Observer σ ε)) : Executor σ ε :=
  { e with observe := f }

/-- Runs an operation without a value. -/
def execute {κ σ ε : Type} (e : Executor σ ε) (context : κ) (op : κ → σ → Option ε × σ) (s : σ) :
    Option (RunError ε) × σ :=
  let unit : Operation κ σ ε Unit := fun c s =>
    let (error, s') := op c s
    (⟨(), error⟩, s')
  let (outcome, s') := run context e.budget e.observe unit s
  (outcome.error, s')

end Executor

/-! ### Runs without an observer -/

def runIn {κ σ ε : Type} (context : κ) (budget : Int) (op : κ → σ → Option ε × σ) (s : σ) :
    Option (RunError ε) × σ :=
  (Executor.ofBudget budget).execute context op s

def runAlone {σ ε : Type} (budget : Int) (op : σ → Option ε × σ) (s : σ) :
    Option (RunError ε) × σ :=
  (Executor.ofBudget budget).execute () (fun _ => op) s

def runValueIn {κ σ ε α : Type} [Inhabited α] (context : κ) (budget : Int)
    (op : Operation κ σ ε α) (s : σ) : Outcome (RunError ε) α × σ :=
  run context budget none op s

def runValue {σ ε α : Type} [Inhabited α] (budget : Int) (op : σ → Outcome ε α × σ) (s : σ) :
    Outcome (RunError ε) α × σ :=
  run () budget none (fun _ => op) s

end RetryWeave.Retry
