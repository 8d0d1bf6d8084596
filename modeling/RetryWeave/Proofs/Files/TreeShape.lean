import RetryWeave.Proofs.Files.Recall

/-! # When memory is a tree

Writing files keeps the root a directory and every record under its own clean path, and the directory
of everything that is stored is stored, too. It may be stored as a file: memory is a tree as long as no
file is written above the root or above another file. -/

namespace RetryWeave.Files.Memory

open RetryWeave.Path

variable {m : Memory} {p : Bytes}

/-- What is stored is in a directory, as far as paths lead down from the root, and nothing is below a
file. -/
structure IsTree (m : Memory) : Prop where
  parents : ∀ p, (m.entry? p).isSome → p ≠ m.root → ¬ Topmost p → m.entry? (dir p) = some .dir
  bare : ∀ f content perm p, m.entry? f = some (.file content perm) → (m.entry? p).isSome →
    ¬ Above f p

/-- Writing leaves a directory alone. -/
theorem entry?_step_write_of_dir (hm : m.Sound) (w : Write) (h : m.entry? p = some .dir) :
    Memory.entry? (m.step (.write w)) p = some .dir := by
  rcases step_cases hm (.write w) with ⟨-, heq, -⟩ | ⟨-, hdir, hputs⟩
  · rw [heq, h]
  · have hne : p ≠ m.resolve w.path := by
      rintro rfl
      exact hdir rfl h
    rcases hputs.others p hne with hsame | ⟨hnone, -⟩
    · rw [hsame, h]
    · cases h.symm.trans hnone

theorem entry?_run_writes_of_dir (hm : m.Sound) (writes : List Write) (h : m.entry? p = some .dir) :
    Memory.entry? (m.run (writes.map .write)) p = some .dir := by
  induction writes using List.reverseRecOn with
  | nil => exact h
  | append_singleton writes w ih =>
      rw [List.map_append, List.map_singleton, run_concat]
      exact entry?_step_write_of_dir (hm.run _) w ih

theorem entry?_ofRoot_root (root : Bytes) :
    Memory.entry? (ofRoot root) (clean root) = some .dir := by
  simp [ofRoot, entry?, record]

/-- Nothing is below a file as long as no file is above the root or above another file. -/
theorem Recalls.isTree_iff {done : List Operation} (h : m.Recalls done) (hm : m.Sound)
    (hparents : m.ParentsStored) (hroot : m.entry? m.root = some .dir) :
    m.IsTree ↔ ∀ op ∈ done, ¬ Above (m.resolve op.path) m.root ∧
      ∀ op' ∈ done, ¬ Above (m.resolve op.path) (m.resolve op'.path) := by
  constructor
  · intro htree op hop
    obtain ⟨content, perm, hfile⟩ := h.file_iff.mpr ⟨op, hop, rfl⟩
    refine ⟨htree.bare _ content perm _ hfile (by simp [hroot]), fun op' hop' => ?_⟩
    obtain ⟨content', perm', hfile'⟩ := h.file_iff.mpr ⟨op', hop', rfl⟩
    exact htree.bare _ content perm _ hfile (by simp [hfile'])
  · intro hapart
    have hbare : ∀ f content perm p, m.entry? f = some (.file content perm) →
        (m.entry? p).isSome → ¬ Above f p := by
      intro f content perm p hfile hstored habove
      obtain ⟨op, hop, rfl⟩ := h.file_iff.mp ⟨content, perm, hfile⟩
      obtain ⟨e, he⟩ := Option.isSome_iff_exists.mp hstored
      cases e with
      | file content' perm' =>
          obtain ⟨op', hop', rfl⟩ := h.file_iff.mp ⟨content', perm', he⟩
          exact (hapart op hop).2 op' hop' habove
      | dir =>
          -- a directory is the root or above something that was written
          have hnil : m.addressed done p = [] := by
            rw [addressed, List.filter_eq_nil_iff]
            intro op' hop' heq
            obtain ⟨content', perm', hfile'⟩ := h.file_iff.mpr ⟨op', hop', rfl⟩
            rw [of_decide_eq_true heq, he] at hfile'
            cases hfile'
          rcases h.unwritten p hnil with hnone | ⟨-, rfl | ⟨op', hop', habove'⟩⟩
          · cases he.symm.trans hnone
          · exact (hapart op hop).1 habove
          · exact (hapart op hop).2 op' hop'
              (habove.trans habove' (isClean_resolve hm.root_clean op'.path))
    refine ⟨fun p hstored hne htop => ?_, hbare⟩
    obtain ⟨e, he⟩ := Option.isSome_iff_exists.mp (hparents p hstored hne htop)
    cases e with
    | dir => exact he
    | file content perm =>
        obtain ⟨e', he'⟩ := Option.isSome_iff_exists.mp hstored
        have hclean := hm.isClean_of_entry? he'
        exact absurd (above_dir (dir_ne_self hclean htop)) (hbare _ content perm p he hstored)

/-- What every run of writes keeps, and when it leads to a tree. -/
theorem writes_isTree_iff (root : Bytes) (writes : List Write) :
    let m := (ofRoot root).run (writes.map .write)
    let done := (ofRoot root).accepted (writes.map .write)
    m.root = clean root ∧ m.entry? m.root = some .dir ∧
    (∀ b ∈ m.records, IsClean b.1 ∧ b.2.path = b.1) ∧
    (∀ p, (m.entry? p).isSome → p ≠ m.root → ¬ Topmost p → (m.entry? (dir p)).isSome) ∧
    (m.IsTree ↔ ∀ op ∈ done, ¬ Above (m.resolve op.path) m.root ∧
      ∀ op' ∈ done, ¬ Above (m.resolve op.path) (m.resolve op'.path)) := by
  intro m done
  have hstart := sound_ofRoot root
  have hm : m.Sound := hstart.run _
  have hmroot : m.root = clean root := root_run hstart _
  have hparents : m.ParentsStored := parentsStored_run root _
  have hroot : m.entry? m.root = some .dir := by
    rw [hmroot]
    exact entry?_run_writes_of_dir hstart writes (entry?_ofRoot_root root)
  refine ⟨hmroot, hroot, fun b hb => ⟨hm.clean b hb, ?_⟩, hparents,
    (recalls_run root _).isTree_iff hm hparents hroot⟩
  rw [hm.own b hb]
  rfl

/-! ## A file with something below it -/

/-- A file, and another one whose path leads through it. -/
def throughFile : List Write := [⟨"a", "1", 0o644⟩, ⟨"a/b", "2", 0o644⟩]

/-- Both files are written, and the second one is below the first. -/
theorem file_above_file :
    (ofRoot "/r").accepted (throughFile.map .write) = throughFile.map .write ∧
      ¬ ((ofRoot "/r").run (throughFile.map .write)).IsTree := by
  refine ⟨by decide, fun htree => ?_⟩
  exact htree.bare "/r/a" "1" 0o644 "/r/a/b" (by decide) (by decide) ⟨by decide, 1, by decide⟩

end RetryWeave.Files.Memory
