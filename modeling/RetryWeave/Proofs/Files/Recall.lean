import RetryWeave.Proofs.Files.Operations

/-! # What a file system in memory remembers

After a run of operations a file holds the content of the last operation on its path that did not
fail, with the permissions of the first one, or the usual ones if the file was ever added. What was
never written is not there, or it is the root or a directory above something that was written. -/

namespace RetryWeave.Files.Memory

open RetryWeave.Path

variable {m : Memory} {done : List Operation} {p : Bytes} {op : Operation}

/-! ## The history of a path -/

/-- The operations on a stored path. -/
def addressed (m : Memory) (ops : List Operation) (stored : Bytes) : List Operation :=
  ops.filter fun op => m.resolve op.path = stored

/-- The permissions of a file after some operations on it. -/
def permsAfter (ops : List Operation) : Nat :=
  if ops.any Operation.isAdd then 0o644 else (ops.head?.map Operation.perm).getD 0

theorem addressed_concat_self (m : Memory) (ops : List Operation) (op : Operation) :
    m.addressed (ops ++ [op]) (m.resolve op.path) =
      m.addressed ops (m.resolve op.path) ++ [op] := by
  simp [addressed]

theorem addressed_concat_of_ne (ops : List Operation) (h : m.resolve op.path ≠ p) :
    m.addressed (ops ++ [op]) p = m.addressed ops p := by
  simp [addressed, h]

theorem permsAfter_concat_add {ops : List Operation} (h : op.isAdd = true) :
    permsAfter (ops ++ [op]) = 0o644 := by
  simp [permsAfter, h]

theorem permsAfter_concat_write {ops : List Operation} (hne : ops ≠ []) (h : op.isAdd = false) :
    permsAfter (ops ++ [op]) = permsAfter ops := by
  simp [permsAfter, h, List.head?_append_of_ne_nil _ hne]

theorem permsAfter_singleton (op : Operation) : permsAfter [op] = op.perm := by
  cases op <;> rfl

/-- The entries are those that the operations that did not fail speak of. -/
structure Recalls (m : Memory) (done : List Operation) : Prop where
  written : ∀ p op, (m.addressed done p).getLast? = some op →
    m.entry? p = some (.file op.content (permsAfter (m.addressed done p)))
  unwritten : ∀ p, m.addressed done p = [] → m.entry? p = none ∨
    m.entry? p = some .dir ∧ (p = m.root ∨ ∃ op ∈ done, Above p (m.resolve op.path))

theorem recalls_ofRoot (root : Bytes) : (ofRoot root).Recalls [] := by
  refine ⟨nofun, fun p _ => ?_⟩
  by_cases hp : p = clean root
  · exact .inr ⟨by simp [ofRoot, entry?, hp, record], .inl hp⟩
  · have hne : (p == clean root) = false := beq_eq_false_iff_ne.mpr hp
    exact .inl (by simp [ofRoot, entry?, List.lookup_cons, hne])

namespace Recalls

/-- There is a file exactly where something was written. -/
theorem file_iff (h : m.Recalls done) :
    (∃ content perm, m.entry? p = some (.file content perm)) ↔
      ∃ op ∈ done, m.resolve op.path = p := by
  constructor
  · rintro ⟨content, perm, hfile⟩
    by_contra hnone
    have hnil : m.addressed done p = [] := by
      rw [addressed, List.filter_eq_nil_iff]
      exact fun op hop => by simpa using fun heq => hnone ⟨op, hop, heq⟩
    rcases h.unwritten p hnil with hentry | ⟨hentry, -⟩
    · cases hfile.symm.trans hentry
    · cases hfile.symm.trans hentry
  · rintro ⟨op, hop, rfl⟩
    have hmem : op ∈ m.addressed done (m.resolve op.path) := by simpa [addressed] using hop
    exact ⟨_, _, h.written _ _ (List.getLast?_eq_some_getLast (List.ne_nil_of_mem hmem))⟩

theorem permOver_eq (h : m.Recalls done)
    (hdir : op.isAdd = false → m.entry? (m.resolve op.path) ≠ some .dir) :
    op.permOver (m.entry? (m.resolve op.path)) =
      permsAfter (m.addressed done (m.resolve op.path) ++ [op]) := by
  cases hadd : op.isAdd with
  | true => rw [permsAfter_concat_add hadd, Operation.permOver_of_isAdd hadd]
  | false =>
      by_cases hnil : m.addressed done (m.resolve op.path) = []
      · rw [hnil, List.nil_append, permsAfter_singleton]
        rcases h.unwritten _ hnil with hentry | ⟨hentry, -⟩
        · rw [hentry]
          rfl
        · exact absurd hentry (hdir hadd)
      · rw [permsAfter_concat_write hnil hadd]
        rw [h.written _ _ (List.getLast?_eq_some_getLast hnil), Operation.permOver, hadd]
        rfl

/-- One operation adds itself to what is remembered, unless it fails. -/
theorem step (hm : m.Sound) (h : m.Recalls done) (op : Operation) :
    (m.step op).Recalls (done ++ if (op.perform m).isOk then [op] else []) := by
  rcases step_cases hm op with ⟨hfails, heq, -⟩ | ⟨hok, hdir, hputs⟩
  · rw [heq, hfails, if_neg Bool.false_ne_true, List.append_nil]
    exact h
  · rw [if_pos hok]
    have haddressed : ∀ ops p, (m.step op).addressed ops p = m.addressed ops p := by
      intro ops p
      simp only [addressed, resolve_congr hputs.root]
    refine ⟨fun p last hlast => ?_, fun p hnil => ?_⟩
    · rw [haddressed] at hlast ⊢
      by_cases hp : m.resolve op.path = p
      · subst hp
        rw [addressed_concat_self] at hlast ⊢
        rw [List.getLast?_concat, Option.some.injEq] at hlast
        rw [hputs.holds, h.permOver_eq hdir, hlast]
      · rw [addressed_concat_of_ne _ hp] at hlast ⊢
        have hentry := h.written p last hlast
        rcases hputs.others p (Ne.symm hp) with hsame | ⟨hnone, -⟩
        · rw [hsame, hentry]
        · cases hentry.symm.trans hnone
    · rw [haddressed] at hnil
      have hp : m.resolve op.path ≠ p := by
        rintro rfl
        rw [addressed_concat_self] at hnil
        exact List.append_ne_nil_of_right_ne_nil _ (List.cons_ne_nil _ _) hnil
      rw [addressed_concat_of_ne _ hp] at hnil
      rw [hputs.root]
      have hmore : ∀ q, (q = m.root ∨ ∃ op ∈ done, Above q (m.resolve op.path)) →
          q = m.root ∨ ∃ op' ∈ done ++ [op], Above q ((m.step op).resolve op'.path) := by
        rintro q (hroot | ⟨op', hop', habove⟩)
        · exact .inl hroot
        · refine .inr ⟨op', List.mem_append_left _ hop', ?_⟩
          rwa [resolve_congr hputs.root]
      rcases hputs.others p (Ne.symm hp) with hsame | ⟨-, hmade, habove⟩
      · rw [hsame]
        exact (h.unwritten p hnil).imp_right fun ⟨hentry, hwhy⟩ => ⟨hentry, hmore p hwhy⟩
      · refine .inr ⟨hmade, .inr ⟨op, by simp, ?_⟩⟩
        rwa [resolve_congr hputs.root]

end Recalls

theorem recalls_run (root : Bytes) (ops : List Operation) :
    ((ofRoot root).run ops).Recalls ((ofRoot root).accepted ops) := by
  induction ops using List.reverseRecOn with
  | nil => exact recalls_ofRoot root
  | append_singleton ops op ih =>
      rw [run_concat, accepted_concat]
      exact ih.step ((sound_ofRoot root).run ops) op

/-! ## Reading -/

theorem read_of_file {path content : Bytes} {perm : Nat}
    (h : m.entry? (m.resolve path) = some (.file content perm)) : m.read path = .ok content := by
  rw [read, h]

theorem stat_of_some {path : Bytes} {e : MemoryEntry} (h : m.entry? (m.resolve path) = some e) :
    m.stat path = .ok (e.info (m.resolve path)) := by
  rw [stat, h]

theorem stat_of_none {path : Bytes} (h : m.entry? (m.resolve path) = none) :
    m.stat path = .error (missing "path" path) := by
  rw [stat, h]

theorem exists_entry?_of_stat {path : Bytes} {i : Info} (h : m.stat path = .ok i) :
    ∃ e, m.entry? (m.resolve path) = some e ∧ i = e.info (m.resolve path) := by
  cases hentry : m.entry? (m.resolve path) with
  | none =>
      rw [stat_of_none hentry] at h
      cases h
  | some e =>
      rw [stat_of_some hentry] at h
      cases h
      exact ⟨e, rfl, rfl⟩

/-- A path leads to a directory as its entry is one. -/
theorem stat_isDir_iff {path : Bytes} :
    (∃ i, m.stat path = .ok i ∧ i.isDir = true) ↔ m.entry? (m.resolve path) = some .dir := by
  constructor
  · rintro ⟨i, hstat, hdir⟩
    obtain ⟨e, hentry, rfl⟩ := exists_entry?_of_stat hstat
    cases e with
    | file content perm => cases hdir
    | dir => exact hentry
  · exact fun hentry => ⟨_, stat_of_some hentry, rfl⟩

/-- An operation leaves the files at other paths as they are. -/
theorem step_frame (hm : m.Sound) {path : Bytes} {i : Info}
    (hne : m.resolve op.path ≠ m.resolve path)
    (hstat : m.stat path = .ok i) (hfile : i.isDir = false) :
    (m.step op).stat path = .ok i ∧ (m.step op).read path = m.read path := by
  obtain ⟨e, hentry, rfl⟩ := exists_entry?_of_stat hstat
  have hresolve := resolve_congr (root_step hm op) path
  have hsame : Memory.entry? (m.step op) ((m.step op).resolve path) = some e := by
    rw [hresolve]
    rcases step_cases hm op with ⟨-, heq, -⟩ | ⟨-, -, hputs⟩
    · rw [heq, hentry]
    · rcases hputs.others _ (Ne.symm hne) with hsame | ⟨hnone, -⟩
      · rw [hsame, hentry]
      · cases hentry.symm.trans hnone
  refine ⟨?_, ?_⟩
  · rw [stat_of_some hsame, hresolve]
  · cases e with
    | dir => cases hfile
    | file content perm => rw [read_of_file hsame, read_of_file hentry]

/-- What was written is read, with the permissions that its history gives it; a write fails on
directories only, and an operation does not change what is stored at other paths. -/
theorem refines_history (root : Bytes) (ops : List Operation) :
    let m := (ofRoot root).run ops
    let done := (ofRoot root).accepted ops
    (∀ path op, (m.addressed done (m.resolve path)).getLast? = some op →
      m.read path = .ok op.content ∧
      m.stat path = .ok ⟨base (m.resolve path), false, op.content.length,
        permsAfter (m.addressed done (m.resolve path))⟩) ∧
    (∀ path, m.addressed done (m.resolve path) = [] →
      m.stat path = .error (missing "path" path) ∨
      (∃ i, m.stat path = .ok i ∧ i.isDir = true) ∧
        (m.resolve path = m.root ∨
          ∃ op ∈ done, Above (m.resolve path) (m.resolve op.path))) ∧
    (∀ w : Write, ((∃ f, m.write w.path w.content w.perm = .error f) ↔
      ∃ i, m.stat w.path = .ok i ∧ i.isDir = true)) ∧
    (∀ op f, op.perform m = .error f → m.step op = m) ∧
    (∀ op path i, m.resolve op.path ≠ m.resolve path → m.stat path = .ok i → i.isDir = false →
      (m.step op).stat path = .ok i ∧ (m.step op).read path = m.read path) := by
  intro m done
  have hsound : m.Sound := (sound_ofRoot root).run ops
  have hrecalls : m.Recalls done := recalls_run root ops
  refine ⟨fun path op hlast => ?_, fun path hnil => ?_, fun w => ?_, fun op f hfails => ?_,
    fun op path i hne hstat hfile => step_frame hsound hne hstat hfile⟩
  · have hentry := hrecalls.written _ op hlast
    exact ⟨read_of_file hentry, stat_of_some hentry⟩
  · rcases hrecalls.unwritten _ hnil with hnone | ⟨hdir, hwhy⟩
    · exact .inl (stat_of_none hnone)
    · exact .inr ⟨stat_isDir_iff.mpr hdir, hwhy⟩
  · rw [stat_isDir_iff]
    have hfails : (∃ f, (Operation.write w).perform m = .error f) ↔
        (Operation.write w).isAdd = false ∧
          m.entry? (m.resolve (Operation.write w).path) = some .dir :=
      Operation.perform_eq_error_iff
    simpa [Operation.perform, Operation.isAdd, Operation.path] using hfails
  · rw [Memory.step, hfails]

end RetryWeave.Files.Memory
