import RetryWeave.Proofs.Files.Hierarchy
import RetryWeave.Proofs.Files.Places

/-! # Storing files in memory

What storing a file does to the records of a file system in memory. Every record stands under its
own clean path, and the directories above a new file are made as far as there is nothing in their
place. -/

namespace RetryWeave.Files.Memory

open RetryWeave.Path

variable {m m' : Memory} {p q content : Bytes} {perm : Nat} {e : MemoryEntry}

/-! ## One record -/

@[simp] theorem root_set (m : Memory) (p : Bytes) (e : MemoryEntry) : (m.set p e).root = m.root :=
  rfl

theorem entry?_set_self (m : Memory) (p : Bytes) (e : MemoryEntry) :
    Memory.entry? (m.set p e) p = some e := by
  simp [Memory.entry?, set, record]

theorem entry?_set_of_ne (m : Memory) (e : MemoryEntry) (h : q ≠ p) :
    Memory.entry? (m.set p e) q = m.entry? q := by
  have hne : (q == p) = false := beq_eq_false_iff_ne.mpr h
  simp only [Memory.entry?, set, List.lookup_cons, hne]
  rw [Disk.lookup_filter (fun l => decide (l ≠ p)) m.records q]
  simp [h]

theorem entry?_set (m : Memory) (p q : Bytes) (e : MemoryEntry) :
    Memory.entry? (m.set p e) q = if q = p then some e else m.entry? q := by
  split
  · rename_i h
    rw [h, entry?_set_self]
  · rename_i h
    exact entry?_set_of_ne m e h

/-- Every record stands under its own clean path, and no path has two of them. -/
structure Sound (m : Memory) : Prop where
  root_clean : IsClean m.root
  nodup : (m.records.map (·.1)).Nodup
  clean : ∀ b ∈ m.records, IsClean b.1
  own : ∀ b ∈ m.records, b.2 = record m.root b.1 b.2.entry

theorem sound_ofRoot (root : Bytes) : (ofRoot root).Sound := by
  refine ⟨isClean_clean root, by simp [ofRoot], ?_, ?_⟩
  · simpa [ofRoot] using isClean_clean root
  · simp [ofRoot, record]

theorem Sound.set (h : m.Sound) (hp : IsClean p) (e : MemoryEntry) : (m.set p e).Sound := by
  refine ⟨h.root_clean, ?_, ?_, ?_⟩
  · rw [Memory.set, List.map_cons, List.nodup_cons]
    refine ⟨?_, h.nodup.sublist (List.filter_sublist.map _)⟩
    simp
  · simp only [Memory.set, List.forall_mem_cons]
    exact ⟨hp, fun b hb => h.clean b (List.mem_of_mem_filter hb)⟩
  · simp only [Memory.set, List.forall_mem_cons]
    exact ⟨rfl, fun b hb => h.own b (List.mem_of_mem_filter hb)⟩

namespace Sound

theorem mem_records_iff (h : m.Sound) :
    (p, record m.root p e) ∈ m.records ↔ m.entry? p = some e := by
  rw [Memory.entry?, Option.map_eq_some_iff, ← Disk.lookup_eq_some_iff_mem h.nodup]
  constructor
  · exact fun hlookup => ⟨_, hlookup, rfl⟩
  · rintro ⟨r, hlookup, rfl⟩
    have hown := h.own _ ((Disk.lookup_eq_some_iff_mem h.nodup).mp hlookup)
    rw [hlookup, ← hown]

theorem entry?_of_mem (h : m.Sound) {b : Bytes × MemoryRecord} (hb : b ∈ m.records) :
    m.entry? b.1 = some b.2.entry := by
  rw [← h.mem_records_iff, ← h.own b hb]
  exact hb

theorem isClean_of_entry? (h : m.Sound) (hp : m.entry? p = some e) : IsClean p :=
  h.clean _ (h.mem_records_iff.mpr hp)

end Sound

/-! ## The directories above a path -/

theorem exists_iterate_of_mem_ancestorsFrom {fuel : Nat} (h : q ∈ ancestorsFrom fuel p) :
    ∃ n, dir^[n] p = q := by
  induction fuel generalizing p with
  | zero => cases h
  | succ fuel ih =>
      rw [ancestorsFrom] at h
      split at h
      · rw [List.mem_singleton] at h
        exact ⟨1, h.symm⟩
      · rcases List.mem_cons.mp h with rfl | h
        · exact ⟨1, rfl⟩
        · obtain ⟨n, hn⟩ := ih h
          exact ⟨n + 1, hn⟩

/-- The first directories above a path, up to one that is left out: the next one above each of them is
the one that is left out, or one of them. -/
theorem takeWhile_ancestorsFrom (keep : Bytes → Bool) {fuel : Nat} (hp : IsClean p)
    (hfuel : (elements p).length < fuel) :
    (keep (dir p) = true → dir p ∈ (ancestorsFrom fuel p).takeWhile keep) ∧
      ∀ q ∈ (ancestorsFrom fuel p).takeWhile keep, ¬ Topmost q → keep (dir q) = true →
        dir q ∈ (ancestorsFrom fuel p).takeWhile keep := by
  induction fuel generalizing p with
  | zero => omega
  | succ fuel ih =>
      rw [ancestorsFrom]
      by_cases htop : Topmost (dir p)
      · have htest : (decide (dir p = [Ascii.slash]) || decide (dir p = [Ascii.dot])) = true := by
          simpa [Topmost] using htop
        simp only [htest, if_true]
        refine ⟨fun hkeep => by simp [hkeep], fun q hq hnot => ?_⟩
        rw [List.mem_singleton.mp ((List.takeWhile_sublist keep).subset hq)] at hnot
        exact absurd htop hnot
      · have htest : (decide (dir p = [Ascii.slash]) || decide (dir p = [Ascii.dot])) = false := by
          simpa [Topmost] using htop
        simp only [htest, Bool.false_eq_true, if_false]
        have hdir := length_elements_dir hp
        have hne : (elements (dir p)).length ≠ 0 := fun hzero =>
          htop ((topmost_iff (isClean_dir p)).mpr (List.eq_nil_of_length_eq_zero hzero))
        obtain ⟨hfirst, hrest⟩ := ih (isClean_dir p) (by omega)
        cases hkeep : keep (dir p) with
        | false => simp [hkeep]
        | true =>
            rw [List.takeWhile_cons_of_pos hkeep]
            refine ⟨fun _ => List.mem_cons_self, fun q hq hnot hq' => List.mem_cons_of_mem _ ?_⟩
            rcases List.mem_cons.mp hq with rfl | hq
            · exact hfirst hq'
            · exact hrest q hq hnot hq'

/-! ## The directories that are made -/

/-- The directories above a path, nearest first, up to the first entry that is there. -/
def absentAbove (m : Memory) (p : Bytes) : List Bytes :=
  (ancestors p).takeWhile fun d => (Memory.entry? m d).isNone

theorem entry?_of_mem_absentAbove (h : q ∈ m.absentAbove p) : m.entry? q = none := by
  simpa using List.mem_takeWhile_imp h

theorem exists_iterate_of_mem_absentAbove (h : q ∈ m.absentAbove p) : ∃ n, dir^[n] p = q :=
  exists_iterate_of_mem_ancestorsFrom ((List.takeWhile_sublist _).subset h)

theorem isClean_of_mem_absentAbove (hp : IsClean p) (h : q ∈ m.absentAbove p) : IsClean q := by
  obtain ⟨n, rfl⟩ := exists_iterate_of_mem_absentAbove h
  have hiter := dir_iterate_ofElements hp.settled n
  rw [← hp.eq_ofElements] at hiter
  rw [hiter]
  exact isClean_ofElements (hp.settled.take _)

/-- The directory of a path is absent above it unless there is an entry, and so are the directories of
what is absent above it. -/
theorem dir_mem_absentAbove (hp : IsClean p) :
    (m.entry? (dir p) = none → dir p ∈ m.absentAbove p) ∧
      ∀ q ∈ m.absentAbove p, ¬ Topmost q → m.entry? (dir q) = none → dir q ∈ m.absentAbove p := by
  have hfuel : (elements p).length < p.length + 1 := Nat.lt_succ_of_le (length_elements_le hp)
  simpa only [absentAbove, ancestors, Option.isNone_iff_eq_none] using
    takeWhile_ancestorsFrom (fun d => (Memory.entry? m d).isNone) hp hfuel

/-! ## One file -/

/-- A file was put at a path: it is there, directories above it may have been made where there was
nothing, and all other entries are as before. -/
structure Puts (m : Memory) (p content : Bytes) (perm : Nat) (m' : Memory) : Prop where
  root : m'.root = m.root
  holds : m'.entry? p = some (.file content perm)
  others : ∀ q, q ≠ p → m'.entry? q = m.entry? q ∨
    m.entry? q = none ∧ m'.entry? q = some .dir ∧ Above q p
  parents : ∀ q, (m'.entry? q).isSome → m.entry? q = none ∨ q = p → ¬ Topmost q →
    (m'.entry? (dir q)).isSome
  sound : m.Sound → m'.Sound

theorem entry?_foldl_set_dir (dirs : List Bytes) (m : Memory) (q : Bytes) :
    Memory.entry? (dirs.foldl (fun m d => m.set d .dir) m) q =
      if q ∈ dirs then some .dir else m.entry? q := by
  induction dirs generalizing m with
  | nil => simp
  | cons d dirs ih =>
      rw [List.foldl_cons, ih, entry?_set]
      by_cases hq : q ∈ dirs <;> by_cases hd : q = d <;> simp [hq, hd]

theorem sound_foldl_set_dir {dirs : List Bytes} (h : m.Sound) (hdirs : ∀ d ∈ dirs, IsClean d) :
    (dirs.foldl (fun m d => m.set d .dir) m).Sound := by
  induction dirs generalizing m with
  | nil => exact h
  | cons d dirs ih =>
      rw [List.forall_mem_cons] at hdirs
      exact ih (h.set hdirs.1 .dir) hdirs.2

@[simp] theorem root_foldl_set_dir (dirs : List Bytes) (m : Memory) :
    (dirs.foldl (fun m d => m.set d .dir) m).root = m.root := by
  induction dirs generalizing m with
  | nil => rfl
  | cons d dirs ih => rw [List.foldl_cons, ih, root_set]

theorem entry?_put (m : Memory) (p content : Bytes) (perm : Nat) (q : Bytes) :
    Memory.entry? (m.put p content perm) q =
      if q ∈ (m.set p (.file content perm)).absentAbove p then some .dir
      else Memory.entry? (m.set p (.file content perm)) q :=
  entry?_foldl_set_dir _ _ q

theorem puts_put (m : Memory) (hp : IsClean p) (content : Bytes) (perm : Nat) :
    m.Puts p content perm (m.put p content perm) := by
  obtain ⟨hdir, hnext⟩ := dir_mem_absentAbove (m := m.set p (.file content perm)) hp
  have hself : p ∉ (m.set p (.file content perm)).absentAbove p := fun hmem => by
    cases (entry?_set_self m p (.file content perm)).symm.trans (entry?_of_mem_absentAbove hmem)
  -- the directory of what is new is among the new directories, or was there before
  have hstored : ∀ q, (Memory.entry? (m.set p (.file content perm)) q = none →
      q ∈ (m.set p (.file content perm)).absentAbove p) →
      (Memory.entry? (m.put p content perm) q).isSome := by
    intro q hq
    rw [entry?_put]
    split
    · rfl
    · rename_i hmem
      exact Option.isSome_iff_ne_none.mpr fun hnone => hmem (hq hnone)
  refine ⟨?_, ?_, fun q hq => ?_, fun q hsome hq htop => ?_, fun hsound => ?_⟩
  · simp [put]
  · rw [entry?_put, if_neg hself, entry?_set_self]
  · rw [entry?_put]
    split
    · rename_i hmem
      have hnone := entry?_of_mem_absentAbove hmem
      rw [entry?_set_of_ne m _ hq] at hnone
      exact .inr ⟨hnone, rfl, hq, exists_iterate_of_mem_absentAbove hmem⟩
    · exact .inl (entry?_set_of_ne m _ hq)
  · refine hstored (dir q) fun hnil => ?_
    by_cases hself' : q = p
    · rw [hself'] at hnil ⊢
      exact hdir hnil
    · refine hnext q ?_ htop hnil
      by_contra hmem
      rw [entry?_put, if_neg hmem, entry?_set_of_ne m (.file content perm) hself',
        hq.resolve_right hself'] at hsome
      cases hsome
  · exact sound_foldl_set_dir (hsound.set hp _) fun d hd => isClean_of_mem_absentAbove hp hd

theorem Puts.isSome (h : m.Puts p content perm m') (hq : (m.entry? q).isSome) :
    (m'.entry? q).isSome := by
  by_cases hself : q = p
  · rw [hself, h.holds]
    rfl
  · rcases h.others q hself with heq | ⟨-, hdir, -⟩
    · rwa [heq]
    · rw [hdir]
      rfl

end RetryWeave.Files.Memory
