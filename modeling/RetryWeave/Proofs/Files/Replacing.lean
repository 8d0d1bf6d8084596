import Mathlib.Data.List.Nodup
import RetryWeave.Files.AtomicWrite
import RetryWeave.Proofs.Files.Extending
import RetryWeave.Proofs.Files.Paths
import RetryWeave.Proofs.Text.Numeral

/-! # Replacing a file

A write either puts its content at the place that its path leads to, or changes no file at all. All
other places stay as they are, apart from directories that are made, and no temporary file is left. -/

namespace RetryWeave.Files.Disk

variable {d : Disk} {loc : Location}

/-! ## Temporary files -/

theorem tempName_injective (base : Bytes) : Function.Injective (tempName base) := by
  intro m n h
  have := Bytes.ofNat_injective (List.append_cancel_left h)
  omega

theorem tempName_ne (base : Bytes) (n : Nat) : tempName base n ≠ base := by
  intro h
  have := congrArg List.length h
  simp [tempName] at this
  omega

/-- There are more names for a temporary file than places on the disk, so that one of them is
free. -/
theorem exists_free_tempName (d : Disk) (dir : Location) (base : Bytes) :
    ∃ n ∈ List.range (d.nodes.length + 1), (d.node? (dir ++ [tempName base n])).isNone = true := by
  by_contra hall
  have hsub : (List.range (d.nodes.length + 1)).map (fun n => dir ++ [tempName base n]) ⊆
      d.nodes.map (·.1) := by
    intro l hl
    obtain ⟨n, hn, rfl⟩ := List.mem_map.mp hl
    cases hnode : d.node? (dir ++ [tempName base n]) with
    | none => exact absurd ⟨n, hn, by simp [hnode]⟩ hall
    | some node => exact List.mem_map_of_mem (mem_nodes_of_node? (by simp) hnode)
  have hinj : Function.Injective fun n => dir ++ [tempName base n] := fun m n h =>
    tempName_injective base (by simpa using h)
  have hlength := (List.nodup_range.map hinj).length_le_of_subset hsub
  simp only [List.length_map, List.length_range] at hlength
  omega

theorem freeTempName_spec (d : Disk) (dir : Location) (base : Bytes) :
    d.node? (dir ++ [d.freeTempName dir base]) = none ∧
      ∃ n, d.freeTempName dir base = tempName base n := by
  obtain ⟨n, hn, hfree⟩ := exists_free_tempName d dir base
  have hsome : ((List.range (d.nodes.length + 1)).find? fun n =>
      (d.node? (dir ++ [tempName base n])).isNone).isSome := List.find?_isSome.mpr ⟨n, hn, hfree⟩
  obtain ⟨m, hm⟩ := Option.isSome_iff_exists.mp hsome
  rw [freeTempName, hm]
  exact ⟨by simpa using List.find?_some hm, m, rfl⟩

theorem createTemp_eq_ok {faults : Faults} {dir base : Bytes} {temp : Location} {d' : Disk}
    (h : d.createTemp faults dir base = .ok (temp, d')) :
    d.node? temp = none ∧ (∃ n, temp.getLast? = some (tempName base n)) ∧
      d' = d.set temp (.file [] 0o600) := by
  simp only [createTemp] at h
  split at h
  · cases h
  · split at h
    · cases h
    · split at h
      · cases h
      · split at h
        · cases h
        · cases h
          obtain ⟨hfree, n, hn⟩ := freeTempName_spec d _ base
          exact ⟨hfree, ⟨n, by rw [hn]; simp⟩, rfl⟩

/-! ## The rename -/

theorem rename_eq_ok {source : Location} {path : Bytes} {d' : Disk}
    (h : d.rename source path = .ok d') :
    ∃ found n, d.resolve false path = .ok found ∧ found.node? ≠ some .dir ∧
      d.node? source = some n ∧ d' = (d.erase source).set found.location n := by
  unfold rename at h
  split at h
  · cases h
  · cases h
  · rename_i found hdir hresolve
    split at h
    · cases h
    · rename_i n hnode
      cases h
      refine ⟨found, n, hresolve, fun hfound => ?_, hnode, rfl⟩
      cases found with
      | absent dir name => cases hfound
      | present loc node =>
          cases hfound
          exact hdir loc rfl

theorem fillAndRename_eq_ok {faults : Faults} {temp : Location} {path data : Bytes} {perm : Nat}
    {d' : Disk} (h : d.fillAndRename faults temp path data perm = .ok d') :
    (d.set temp (.file data perm)).rename temp path = .ok d' := by
  simp only [fillAndRename] at h
  split at h
  · cases h
  · split at h
    · cases h
    · split at h
      · cases h
      · split at h
        · cases h
        · split at h
          · cases h
          · rename_i hrename
            cases h
            exact hrename

/-! ## The whole write -/

/-- A file was put at the place that a path leads to once its directories are made. -/
structure Replaces (d : Disk) (path data : Bytes) (loc : Location) (d' : Disk) : Prop where
  cwd : d'.cwd = d.cwd
  holds : ∃ perm, d'.node? loc = some (.file data perm)
  others : ∃ d₁, d.Grows d₁ ∧ d₁.LeadsTo path loc ∧ ∀ loc' ≠ loc, d'.node? loc' = d₁.node? loc'

/-- A write keeps what is at other places. -/
theorem Replaces.keeps {path data : Bytes} {d' : Disk} {loc' : Location}
    (h : d.Replaces path data loc d') (hne : loc' ≠ loc) : d.Keeps d' loc' := by
  obtain ⟨d₁, hgrows, -, hothers⟩ := h.others
  rw [Keeps, hothers loc' hne]
  exact hgrows.keeps loc'

/-- A file was put at the place that a path leads to, with some permissions, and nothing else was
changed. -/
structure Renews (d : Disk) (path data : Bytes) (perm : Nat) (loc : Location) (d' : Disk) : Prop where
  cwd : d'.cwd = d.cwd
  leads : d.LeadsTo path loc
  holds : d'.node? loc = some (.file data perm)
  others : ∀ loc' ≠ loc, d'.node? loc' = d.node? loc'

/-- What is left of a write that fails after its temporary file was made. -/
theorem node?_erase_set {temp : Location} (hfree : d.node? temp = none) (n : DiskNode)
    (loc : Location) : ((d.set temp n).erase temp).node? loc = d.node? loc := by
  have htemp : temp ≠ [] := ne_nil_of_node?_ne (d := d) (by simp [hfree])
  by_cases hloc : loc = temp
  · rw [hloc, node?_erase_self _ htemp, hfree]
  · rw [node?_erase_of_ne _ hloc, node?_set_of_ne _ _ hloc]

/-- The rename puts the temporary file where the path leads to, and leaves nothing behind. -/
theorem renews_of_rename {d' : Disk} {temp : Location} {path data base : Bytes} {perm k : Nat}
    (hfree : d.node? temp = none) (htemp : temp.getLast? = some (tempName base k))
    (hbase : base = Path.base path)
    (h : ((d.set temp (.file [] 0o600)).set temp (.file data perm)).rename temp path = .ok d') :
    ∃ loc, d.Renews path data perm loc (d'.erase temp) := by
  have hne : temp ≠ [] := ne_nil_of_node?_ne (d := d) (by simp [hfree])
  obtain ⟨found, n, hresolve, hdir, hnode, rfl⟩ := rename_eq_ok h
  rw [node?_set_self _ _ hne, Option.some.injEq] at hnode
  subst hnode
  obtain ⟨hat, hlast⟩ := resolve_eq_ok hresolve hdir
  have hloc : found.location ≠ [] := ne_nil_of_node?_ne (hat ▸ hdir)
  -- the names of temporary files are longer than the one at the end of the path
  have htempNe : found.location ≠ temp := by
    intro heq
    rw [heq, htemp] at hlast
    have hname := Path.base_eq_of_getLast? hlast.symm (by simp [tempName])
    exact tempName_ne base k (hname.symm.trans hbase.symm)
  have hleads : d.resolve false path = .ok found :=
    resolve_of_set_file (resolve_of_set_file hresolve htempNe) htempNe
  refine ⟨found.location, rfl, ⟨found, hleads, rfl, hdir⟩, ?_, fun loc' hloc' => ?_⟩
  · rw [node?_erase_of_ne _ htempNe, node?_set_self _ _ hloc]
  · by_cases heq : loc' = temp
    · rw [heq, node?_erase_self _ hne, hfree]
    · rw [node?_erase_of_ne _ heq, node?_set_of_ne _ _ hloc', node?_erase_of_ne _ heq,
        node?_set_of_ne _ _ heq, node?_set_of_ne _ _ heq]

/-- The permissions that are known of what a path leads to. If nothing is known, the given ones. -/
def permOr (d : Disk) (faults : Faults) (path : Bytes) (perm : Nat) : Nat :=
  match faults .stat, d.stat path with
  | .none, .ok i => i.perm
  | _, _ => perm % 0o1000

/-- A write changes nothing but directories above the path, or replaces the file once these are
made. -/
theorem replaceFile_spec (d : Disk) (faults : Faults) (path data : Bytes) (perm : Nat) :
    (∃ f, (d.replaceFile faults path data perm).1 = some f ∧
      d.GrowsAt (pathsUp (Path.dir path)) (d.replaceFile faults path data perm).2) ∨
    ((d.replaceFile faults path data perm).1 = none ∧
      ∃ d₁ loc, d.GrowsAt (pathsUp (Path.dir path)) d₁ ∧
        d₁.Renews path data (d₁.permOr faults path perm) loc
          (d.replaceFile faults path data perm).2) := by
  have hmake : d.GrowsAt (pathsUp (Path.dir path)) (d.makeAll (Path.dir path)).2 :=
    growsAt_makeDirs d _
  simp only [replaceFile]
  split
  · rename_i f d₁ heq
    refine .inl ⟨_, rfl, ?_⟩
    split at heq
    · cases heq
      exact .refl d _
    · rw [heq] at hmake
      exact hmake
  · rename_i d₁ heq
    have hgrows : d.GrowsAt (pathsUp (Path.dir path)) d₁ := by
      split at heq
      · cases heq
      · rw [heq] at hmake
        exact hmake
    split
    · exact .inl ⟨_, rfl, hgrows⟩
    · rename_i temp d₂ htemp
      obtain ⟨hfree, ⟨k, hlast⟩, rfl⟩ := createTemp_eq_ok htemp
      split
      · exact .inl ⟨_, rfl, hgrows.trans ⟨rfl, fun loc => .inl (node?_erase_set hfree _ loc)⟩⟩
      · rename_i d₃ hrename
        obtain ⟨loc, hrenews⟩ := renews_of_rename hfree hlast rfl (fillAndRename_eq_ok hrename)
        exact .inr ⟨rfl, d₁, loc, hgrows, hrenews⟩

/-- A write changes nothing but directories, or replaces the file. -/
theorem replaceFile_cases (d : Disk) (faults : Faults) (path data : Bytes) (perm : Nat) :
    (∃ f, (d.replaceFile faults path data perm).1 = some f ∧
      d.Grows (d.replaceFile faults path data perm).2) ∨
    ((d.replaceFile faults path data perm).1 = none ∧
      ∃ loc, d.Replaces path data loc (d.replaceFile faults path data perm).2) := by
  rcases d.replaceFile_spec faults path data perm with ⟨f, hfails, hgrows⟩ |
    ⟨hdone, d₁, loc, hgrows, hrenews⟩
  · exact .inl ⟨f, hfails, hgrows.grows⟩
  · exact .inr ⟨hdone, loc, hrenews.cwd.trans hgrows.cwd, ⟨_, hrenews.holds⟩, d₁, hgrows.grows,
      hrenews.leads, hrenews.others⟩

theorem grows_of_replaceFile_eq_some {faults : Faults} {path data : Bytes} {perm : Nat} {f : Failure}
    {d' : Disk} (h : d.replaceFile faults path data perm = (some f, d')) : d.Grows d' := by
  rcases d.replaceFile_cases faults path data perm with ⟨_, -, hgrows⟩ | ⟨hdone, -⟩
  · rwa [h] at hgrows
  · rw [h] at hdone
    cases hdone

end RetryWeave.Files.Disk
