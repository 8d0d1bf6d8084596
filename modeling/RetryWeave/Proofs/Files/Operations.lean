import Mathlib.Data.List.Induction
import RetryWeave.Proofs.Files.Storing

/-! # Operations on a file system in memory

Files are added and written, and an operation that fails changes nothing. Every run of operations
keeps the records under their own paths, and stores the directory of what it stores. -/

namespace RetryWeave.Files.Memory

open RetryWeave.Path

/-- A file to be written. -/
structure Write where
  path : Bytes
  content : Bytes
  perm : Nat
deriving DecidableEq, Repr

/-- A change that is asked for. -/
inductive Operation where
  | add (path content : Bytes)
  | write (w : Write)
deriving DecidableEq, Repr

namespace Operation

def path : Operation → Bytes
  | add path _ => path
  | write w => w.path

def content : Operation → Bytes
  | add _ content => content
  | write w => w.content

def isAdd : Operation → Bool
  | add _ _ => true
  | write _ => false

/-- The permissions that are asked for. -/
def perm : Operation → Nat
  | add _ _ => 0o644
  | write w => w.perm % 0o1000

def perform (m : Memory) : Operation → Except Failure Memory
  | add path content => .ok (m.add path content)
  | write w => m.write w.path w.content w.perm

end Operation

/-- What an operation leaves behind; one that fails changes nothing. -/
def step (m : Memory) (op : Operation) : Memory :=
  match op.perform m with
  | .ok m' => m'
  | .error _ => m

def run (m : Memory) (ops : List Operation) : Memory := ops.foldl step m

/-- The operations of a run that do not fail. -/
def accepted (m : Memory) : List Operation → List Operation
  | [] => []
  | op :: rest =>
    if (op.perform m).isOk then op :: (m.step op).accepted rest else (m.step op).accepted rest

variable {m m' : Memory}

/-! ## Runs -/

theorem run_concat (m : Memory) (ops : List Operation) (op : Operation) :
    m.run (ops ++ [op]) = (m.run ops).step op := by
  simp [run]

theorem accepted_concat (m : Memory) (ops : List Operation) (op : Operation) :
    m.accepted (ops ++ [op]) =
      m.accepted ops ++ if (op.perform (m.run ops)).isOk then [op] else [] := by
  induction ops generalizing m with
  | nil => rfl
  | cons first ops ih =>
      rw [List.cons_append, accepted, accepted, ih]
      split <;> rfl

theorem isClean_resolve (hroot : IsClean m.root) (path : Bytes) : IsClean (m.resolve path) := by
  rw [resolve]
  split
  · exact hroot
  · split
    · exact isClean_clean path
    · rename_i hpath _
      simp only [Bool.or_eq_true, decide_eq_true_eq, not_or] at hpath
      have hpresent : [m.root, path].filter (· ≠ []) = [m.root, path] := by
        simp [hroot.ne_nil, hpath.1]
      rw [join, hpresent]
      exact isClean_clean _

theorem resolve_congr (h : m'.root = m.root) (path : Bytes) : m'.resolve path = m.resolve path := by
  simp only [resolve, h]

/-- The permissions of a file after an operation: one that is there keeps them when it is written. -/
def Operation.permOver (op : Operation) : Option MemoryEntry → Nat
  | some (.file _ old) => if op.isAdd then 0o644 else old
  | _ => op.perm

theorem Operation.permOver_of_isAdd {op : Operation} (h : op.isAdd = true)
    (e? : Option MemoryEntry) : op.permOver e? = 0o644 := by
  cases op with
  | write w => cases h
  | add path content =>
      cases e? with
      | none => rfl
      | some e => cases e <;> rfl

/-- Writing fails on directories only. -/
theorem Operation.perform_eq_error_iff {op : Operation} :
    (∃ f, op.perform m = .error f) ↔
      op.isAdd = false ∧ m.entry? (m.resolve op.path) = some .dir := by
  cases op with
  | add path content => simp [perform, isAdd]
  | write w =>
      simp only [perform, isAdd, Operation.path, Memory.write, true_and]
      split <;> simp_all

theorem Operation.perform_eq_ok {op : Operation} (h : op.perform m = .ok m') :
    m' = m.put (m.resolve op.path) op.content (op.permOver (m.entry? (m.resolve op.path))) := by
  cases op with
  | add path content =>
      cases h
      rw [Operation.permOver_of_isAdd rfl]
      rfl
  | write w =>
      simp only [perform, Memory.write] at h
      split at h
      · cases h
      · rename_i hentry
        cases h
        simp only [Operation.path, Operation.content, hentry]
        rfl
      · rename_i hentry
        cases h
        simp only [Operation.path, Operation.content, hentry]
        rfl

/-- An operation fails on a directory and changes nothing, or puts its file at its path. -/
theorem step_cases (hm : m.Sound) (op : Operation) :
    ((op.perform m).isOk = false ∧ m.step op = m ∧ op.isAdd = false ∧
      m.entry? (m.resolve op.path) = some .dir) ∨
    ((op.perform m).isOk = true ∧
      (op.isAdd = false → m.entry? (m.resolve op.path) ≠ some .dir) ∧
      m.Puts (m.resolve op.path) op.content (op.permOver (m.entry? (m.resolve op.path)))
        (m.step op)) := by
  cases h : op.perform m with
  | error f =>
      obtain ⟨hadd, hdir⟩ := Operation.perform_eq_error_iff.mp ⟨f, h⟩
      exact .inl ⟨rfl, by rw [step, h], hadd, hdir⟩
  | ok m' =>
      refine .inr ⟨rfl, fun hadd hdir => ?_, ?_⟩
      · obtain ⟨f, hf⟩ := Operation.perform_eq_error_iff.mpr ⟨hadd, hdir⟩
        cases h.symm.trans hf
      · rw [step, h, Operation.perform_eq_ok h]
        exact puts_put m (isClean_resolve hm.root_clean _) _ _

theorem Sound.step (hm : m.Sound) (op : Operation) : (m.step op).Sound := by
  rcases step_cases hm op with ⟨-, heq, -⟩ | ⟨-, -, hputs⟩
  · rw [heq]
    exact hm
  · exact hputs.sound hm

theorem root_step (hm : m.Sound) (op : Operation) : (m.step op).root = m.root := by
  rcases step_cases hm op with ⟨-, heq, -⟩ | ⟨-, -, hputs⟩
  · rw [heq]
  · exact hputs.root

theorem Sound.run (hm : m.Sound) (ops : List Operation) : (m.run ops).Sound := by
  induction ops using List.reverseRecOn with
  | nil => exact hm
  | append_singleton ops op ih =>
      rw [run_concat]
      exact ih.step op

theorem root_run (hm : m.Sound) (ops : List Operation) : (m.run ops).root = m.root := by
  induction ops using List.reverseRecOn with
  | nil => rfl
  | append_singleton ops op ih => rw [run_concat, root_step (hm.run ops), ih]

/-! ## Parents -/

/-- The directory of what is stored is stored, as far as paths lead down from the root. -/
def ParentsStored (m : Memory) : Prop :=
  ∀ p, (m.entry? p).isSome → p ≠ m.root → ¬ Topmost p → (m.entry? (dir p)).isSome

theorem parentsStored_ofRoot (root : Bytes) : (ofRoot root).ParentsStored := by
  intro p hp hroot
  have hne : (p == clean root) = false := beq_eq_false_iff_ne.mpr hroot
  simp [ofRoot, entry?, List.lookup_cons, hne] at hp

theorem ParentsStored.step (hm : m.Sound) (h : m.ParentsStored) (op : Operation) :
    (m.step op).ParentsStored := by
  rcases step_cases hm op with ⟨-, heq, -⟩ | ⟨-, -, hputs⟩
  · rw [heq]
    exact h
  · intro q hq hroot htop
    by_cases hnew : m.entry? q = none ∨ q = m.resolve op.path
    · exact hputs.parents q hq hnew htop
    · rw [not_or] at hnew
      rw [hputs.root] at hroot
      exact hputs.isSome (h q (Option.isSome_iff_ne_none.mpr hnew.1) hroot htop)

theorem parentsStored_run (root : Bytes) (ops : List Operation) :
    ((ofRoot root).run ops).ParentsStored := by
  induction ops using List.reverseRecOn with
  | nil => exact parentsStored_ofRoot root
  | append_singleton ops op ih =>
      rw [run_concat]
      exact ih.step ((sound_ofRoot root).run ops) op

end RetryWeave.Files.Memory
