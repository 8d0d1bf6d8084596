import RetryWeave.Proofs.Files.Places

/-! # Disks with more on them

What a path leads to stays if other things are added to the disk. So directories are made only where
the paths lead that they are made for. -/

namespace RetryWeave.Files.Disk

variable {d d' : Disk} {loc : Location} {followLast : Bool} {names : List Bytes}

/-- All that is on one disk is on the other one. -/
structure Extends (d d' : Disk) : Prop where
  cwd : d'.cwd = d.cwd
  node : ∀ loc n, d.node? loc = some n → d'.node? loc = some n

theorem Grows.extends (h : d.Grows d') : d.Extends d' :=
  ⟨h.cwd, fun loc _ hnode => (h.keeps loc).node?_eq hnode⟩

/-! ## Paths -/

namespace Extends

/-- Names lead to what they led to, and to the links that they led to. -/
theorem advance_eq (h : d.Extends d') {progress : Progress}
    (hprogress : d.advance followLast loc names = progress)
    (hend : (∃ l n, progress = .stopped (.ok (.present l n))) ∨ ∃ l names', progress = .link l names') :
    d'.advance followLast loc names = progress := by
  induction names generalizing loc with
  | nil => exact hprogress
  | cons name rest ih =>
      rcases advance_cons loc name with ⟨next, hpass⟩ | hlong | hlook
      · rw [hpass] at hprogress ⊢
        exact ih hprogress
      · rw [hlong] at hprogress ⊢
        exact hprogress
      · rw [hlook] at hprogress ⊢
        obtain ⟨n, hnode⟩ : ∃ n, d.node? (loc ++ [name]) = some n := by
          rcases hend with ⟨l, n, rfl⟩ | ⟨l, names', rfl⟩
          · rcases meet_eq_ok hprogress with ⟨hdir, -⟩ | ⟨-, ⟨-, habsent⟩ | ⟨n, hnode, -⟩⟩
            · exact ⟨_, hdir⟩
            · cases habsent
            · exact ⟨n, hnode⟩
          · rcases meet_eq_link hprogress with ⟨hdir, -⟩ | ⟨target, hnode, -⟩
            · exact ⟨_, hdir⟩
            · exact ⟨_, hnode⟩
        rw [hnode] at hprogress
        rw [h.node _ _ hnode]
        cases n with
        | dir => exact ih hprogress
        | file content perm => exact hprogress
        | link target => exact hprogress

/-- A directory that was added is found where names led to nothing. -/
theorem advance_dir (h : d.Extends d') {dir : Location} {name : Bytes}
    (habsent : d.advance followLast loc names = .stopped (.ok (.absent dir name)))
    (hdir : d'.node? (dir ++ [name]) = some .dir) :
    d'.advance followLast loc names = .stopped (.ok (.present (dir ++ [name]) .dir)) := by
  induction names generalizing loc with
  | nil => cases habsent
  | cons first rest ih =>
      rcases advance_cons loc first with ⟨next, hpass⟩ | hlong | hlook
      · rw [hpass] at habsent ⊢
        exact ih habsent
      · rw [hlong] at habsent
        cases habsent
      · rw [hlook] at habsent ⊢
        rcases meet_eq_ok habsent with ⟨hnode, hrest⟩ | ⟨rfl, ⟨-, hfound⟩ | ⟨n, -, -, -, hfound⟩⟩
        · rw [h.node _ _ hnode]
          exact ih hrest
        · cases hfound
          rw [hdir]
          rfl
        · cases hfound

theorem follow_eq (h : d.Extends d') {fuel : Nat} {l : Location} {n : DiskNode}
    (hfollow : d.follow followLast fuel loc names = .ok (.present l n)) :
    d'.follow followLast fuel loc names = .ok (.present l n) := by
  induction fuel generalizing loc names with
  | zero => cases hfollow
  | succ fuel ih =>
      rw [follow] at hfollow ⊢
      split at hfollow
      · rename_i hstopped
        subst hfollow
        rw [h.advance_eq hstopped (.inl ⟨l, n, rfl⟩)]
      · rename_i hlink
        rw [h.advance_eq hlink (.inr ⟨_, _, rfl⟩)]
        exact ih hfollow

theorem follow_dir (h : d.Extends d') {fuel : Nat} {dir : Location} {name : Bytes}
    (habsent : d.follow followLast fuel loc names = .ok (.absent dir name))
    (hdir : d'.node? (dir ++ [name]) = some .dir) :
    d'.follow followLast fuel loc names = .ok (.present (dir ++ [name]) .dir) := by
  induction fuel generalizing loc names with
  | zero => cases habsent
  | succ fuel ih =>
      rw [follow] at habsent ⊢
      split at habsent
      · rename_i hstopped
        subst habsent
        rw [h.advance_dir hstopped hdir]
      · rename_i hlink
        rw [h.advance_eq hlink (.inr ⟨_, _, rfl⟩)]
        exact ih habsent

theorem resolve_eq (h : d.Extends d') {path : Bytes} {l : Location} {n : DiskNode}
    (hresolve : d.resolve followLast path = .ok (.present l n)) :
    d'.resolve followLast path = .ok (.present l n) := by
  rw [resolve] at hresolve ⊢
  split at hresolve
  · cases hresolve
  · rename_i hempty
    rw [if_neg hempty]
    split at hresolve
    · cases hresolve
    · rename_i hlong
      rw [if_neg hlong, h.cwd]
      exact h.follow_eq hresolve

theorem resolve_dir (h : d.Extends d') {path : Bytes} {dir : Location} {name : Bytes}
    (habsent : d.resolve followLast path = .ok (.absent dir name))
    (hdir : d'.node? (dir ++ [name]) = some .dir) :
    d'.resolve followLast path = .ok (.present (dir ++ [name]) .dir) := by
  rw [resolve] at habsent ⊢
  split at habsent
  · cases habsent
  · rename_i hempty
    rw [if_neg hempty]
    split at habsent
    · cases habsent
    · rename_i hlong
      rw [if_neg hlong, h.cwd]
      exact h.follow_dir habsent hdir

/-- What is known of a file stays if other things are added. -/
theorem stat_eq (h : d.Extends d') {path : Bytes} {i : Info} (hstat : d.stat path = .ok i) :
    d'.stat path = .ok i := by
  simp only [stat, locate] at hstat ⊢
  cases hresolve : d.resolve true path with
  | error r => simp [hresolve] at hstat
  | ok found =>
      cases found with
      | absent dir name => simp [hresolve] at hstat
      | present l n =>
          rw [h.resolve_eq hresolve]
          rw [hresolve] at hstat
          exact hstat

end Extends

/-! ## Making directories -/

/-- All that is on one disk is on the other one, which may have more directories where some paths
lead. -/
structure GrowsAt (d : Disk) (paths : List Bytes) (d' : Disk) : Prop where
  cwd : d'.cwd = d.cwd
  node : ∀ loc, d'.node? loc = d.node? loc ∨ d.node? loc = none ∧ d'.node? loc = some .dir ∧
    ∃ p ∈ paths, d'.resolve false p = .ok (.present loc .dir)

namespace GrowsAt

variable {paths : List Bytes}

theorem grows (h : d.GrowsAt paths d') : d.Grows d' :=
  ⟨h.cwd, fun loc => (h.node loc).imp_right fun hnew => ⟨hnew.1, hnew.2.1⟩⟩

theorem refl (d : Disk) (paths : List Bytes) : d.GrowsAt paths d := ⟨rfl, fun _ => .inl rfl⟩

theorem trans {d'' : Disk} (h : d.GrowsAt paths d') (h' : d'.GrowsAt paths d'') :
    d.GrowsAt paths d'' := by
  refine ⟨h'.cwd.trans h.cwd, fun loc => ?_⟩
  rcases h.node loc with heq | ⟨hnone, hdir, p, hp, hleads⟩
  · rw [← heq]
    exact h'.node loc
  · have hextends := h'.grows.extends
    exact .inr ⟨hnone, hextends.node _ _ hdir, p, hp, hextends.resolve_eq hleads⟩

theorem mono {paths' : List Bytes} (h : d.GrowsAt paths d') (hpaths : paths ⊆ paths') :
    d.GrowsAt paths' d' :=
  ⟨h.cwd, fun loc => (h.node loc).imp_right fun ⟨hnone, hdir, p, hp, hleads⟩ =>
    ⟨hnone, hdir, p, hpaths hp, hleads⟩⟩

end GrowsAt

theorem growsAt_makeDir (d : Disk) (path : Bytes) : d.GrowsAt [path] (d.makeDir path).2 := by
  unfold makeDir
  split
  · rename_i dir name hresolve
    have hnone : d.node? (dir ++ [name]) = none := (resolve_eq_ok hresolve (by simp [Found.node?])).1
    have hdir : (d.set (dir ++ [name]) .dir).node? (dir ++ [name]) = some .dir :=
      node?_set_self d .dir (by simp)
    have hextends := (Grows.set_dir hnone).extends
    refine ⟨rfl, fun loc => ?_⟩
    by_cases hloc : loc = dir ++ [name]
    · subst hloc
      exact .inr ⟨hnone, hdir, path, List.mem_cons_self, hextends.resolve_dir hresolve hdir⟩
    · exact .inl (node?_set_of_ne d .dir hloc)
  · exact .refl d _
  · exact .refl d _
  · exact .refl d _

theorem growsAt_makeDirs (d : Disk) (paths : List Bytes) :
    d.GrowsAt paths (d.makeDirs paths).2 := by
  induction paths with
  | nil => exact .refl d _
  | cons path above ih =>
      have ih := ih.mono (List.subset_cons_self path above)
      rw [makeDirs]
      split
      · exact .refl d _
      · split
        · rename_i habove
          rw [habove] at ih
          exact ih
        · rename_i habove
          rw [habove] at ih
          exact ih.trans ((growsAt_makeDir _ path).mono (by simp))

end RetryWeave.Files.Disk
