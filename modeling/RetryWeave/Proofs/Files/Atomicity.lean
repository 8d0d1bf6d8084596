import RetryWeave.Proofs.Files.LinkFree

/-! # Writes as a whole

A write that fails leaves all that was on the disk as it was, whatever step of it fails. A write that
succeeds puts a file where its path leads to and changes nothing else. The file is read at the path
unless the path passes through a link that the file has replaced. -/

namespace RetryWeave.Files.Disk

variable {d d' : Disk} {loc spot : Location} {names : List Bytes} {content path : Bytes} {perm : Nat}

/-! ## Paths that pass through a replaced entry -/

section

variable (hspot : d.node? spot ≠ some .dir)

include hspot

theorem advance_erase {found : Found} (h : d.advance false loc names = .stopped (.ok found))
    (hlocation : found.location = spot) (hfound : found.node? ≠ some .dir) :
    ∃ found', (d.erase spot).advance false loc names = .stopped (.ok found') ∧
      found'.location = spot ∧ found'.node? ≠ some .dir := by
  induction names generalizing loc with
  | nil =>
      cases h
      exact absurd rfl hfound
  | cons name rest ih =>
      rcases advance_cons loc name with ⟨next, hpass⟩ | hlong | hlook
      · rw [hpass] at h ⊢
        exact ih h
      · rw [hlong] at h
        cases h
      · rw [hlook] at h ⊢
        have hend : rest = [] → loc ++ [name] = spot → ∃ found', (d.erase spot).meet false loc name
            rest ((d.erase spot).node? (loc ++ [name])) = .stopped (.ok found') ∧
              found'.location = spot ∧ found'.node? ≠ some .dir := by
          rintro rfl rfl
          rw [node?_erase_self d (by simp)]
          exact ⟨.absent loc name, rfl, rfl, nofun⟩
        rcases meet_eq_ok h with ⟨hnode, hrest⟩ | ⟨hnil, ⟨-, rfl⟩ | ⟨n, -, -, -, rfl⟩⟩
        · have hne : loc ++ [name] ≠ spot := by
            rintro rfl
            exact hspot hnode
          rw [node?_erase_of_ne d hne, hnode]
          exact ih hrest
        · exact hend hnil hlocation
        · exact hend hnil hlocation

variable (hfile : d'.node? spot = some (.file content perm))
  (hothers : ∀ loc ≠ spot, d'.node? loc = d.node? loc)

include hfile hothers

/-- The way to a link does not pass through the entry, or ends at what has replaced it. -/
theorem advance_link_cases {loc' : Location} {names' : List Bytes}
    (h : d.advance false loc names = .link loc' names') :
    (d.erase spot).advance false loc names = .link loc' names' ∧
        d'.advance true loc names = .link loc' names' ∨
      (∃ target, d.node? spot = some (.link target)) ∧
        (d.erase spot).advance false loc names = .stopped (.error .noEntry) ∧
        d'.advance true loc names = .stopped (.error .notDirectory) := by
  induction names generalizing loc with
  | nil => cases h
  | cons name rest ih =>
      rcases advance_cons loc name with ⟨next, hpass⟩ | hlong | hlook
      · simp only [hpass] at h ⊢
        exact ih h
      · rw [hlong] at h
        cases h
      · simp only [hlook] at h ⊢
        by_cases heq : loc ++ [name] = spot
        · rcases meet_eq_link h with ⟨hnode, -⟩ | ⟨target, hnode, hend, -⟩
          · exact absurd (heq ▸ hnode) hspot
          · have hrest : rest.isEmpty = false := by simpa using hend
            rw [heq] at hnode ⊢
            rw [node?_erase_self d (heq ▸ by simp), hfile]
            exact .inr ⟨⟨target, hnode⟩, by simp [meet, hrest], by simp [meet, hrest]⟩
        · rw [node?_erase_of_ne d heq, hothers _ heq]
          rcases meet_eq_link h with ⟨hnode, hrest⟩ | ⟨target, hnode, hend, rfl, rfl⟩
          · rw [hnode]
            exact ih hrest
          · rw [hnode] at h ⊢
            have hrest : rest.isEmpty = false := by simpa using hend
            exact .inl ⟨h, by simp [meet, hrest]⟩

theorem follow_cases {fuel : Nat} {found : Found} (h : d.follow false fuel loc names = .ok found)
    (hlocation : found.location = spot) (hfound : found.node? ≠ some .dir) :
    (∃ found', (d.erase spot).follow false fuel loc names = .ok found' ∧ found'.location = spot ∧
        found'.node? ≠ some .dir) ∧
        d'.follow true fuel loc names = .ok (.present spot (.file content perm)) ∨
      (∃ target, d.node? spot = some (.link target)) ∧
        (d.erase spot).follow false fuel loc names = .error .noEntry ∧
        d'.follow true fuel loc names = .error .notDirectory := by
  induction fuel generalizing loc names with
  | zero => cases h
  | succ fuel ih =>
      simp only [follow] at h ⊢
      split at h
      · rename_i hstopped
        subst h
        obtain ⟨found', herased, hlocation', hfound'⟩ :=
          advance_erase hspot hstopped hlocation hfound
        have hdirs : d.KeepsDirs d' := fun loc hdir => by
          rw [hothers loc (by rintro rfl; exact hspot hdir), hdir]
        have hread := advance_of_keepsDirs hdirs hstopped hfound (hlocation ▸ hfile) true
        rw [herased, hread, hlocation]
        exact .inl ⟨⟨found', rfl, hlocation', hfound'⟩, rfl⟩
      · rename_i hlink
        rcases advance_link_cases hspot hfile hothers hlink with ⟨herased, hsame⟩ |
          ⟨htarget, herased, hrefused⟩
        · rw [herased, hsame]
          exact ih h
        · rw [herased, hrefused]
          exact .inr ⟨htarget, rfl, rfl⟩

theorem resolve_cases {found : Found} (hcwd : d'.cwd = d.cwd)
    (h : d.resolve false path = .ok found) (hlocation : found.location = spot)
    (hfound : found.node? ≠ some .dir) :
    (∃ found', (d.erase spot).resolve false path = .ok found' ∧ found'.location = spot ∧
        found'.node? ≠ some .dir) ∧
        d'.resolve true path = .ok (.present spot (.file content perm)) ∨
      (∃ target, d.node? spot = some (.link target)) ∧
        (d.erase spot).resolve false path = .error .noEntry ∧
        d'.resolve true path = .error .notDirectory := by
  simp only [resolve] at h ⊢
  split at h
  · cases h
  · rename_i hempty
    rw [if_neg hempty, if_neg hempty]
    split at h
    · cases h
    · rename_i hlong
      rw [if_neg hlong, if_neg hlong, hcwd, cwd_erase]
      exact follow_cases hspot hfile hothers h hlocation hfound

end

/-- The file is read at its path if the path leads there without the entry that was replaced. Otherwise
that entry was a link. -/
theorem Renews.read_cases (h : d.Renews path content perm spot d') :
    (d.erase spot).LeadsTo path spot ∧ d'.read path = .ok content ∨
      (∃ target, d.node? spot = some (.link target)) ∧ ¬ (d.erase spot).LeadsTo path spot ∧
        d'.read path = .error (.system ("open " ++ path) .notDirectory) := by
  obtain ⟨found, hresolve, hlocation, hfound⟩ := h.leads
  rcases resolve_cases h.leads.node?_ne_dir h.holds h.others h.cwd hresolve hlocation hfound with
    ⟨herased, hread⟩ | ⟨htarget, herased, hread⟩
  · exact .inl ⟨herased, by simp only [read, locate, hread]⟩
  · refine .inr ⟨htarget, ?_, by simp only [read, locate, hread]⟩
    rintro ⟨found', hfound', -⟩
    cases herased.symm.trans hfound'

/-! ## Every write -/

/-- A write that fails leaves every entry as it was, and all that may be new are directories to which the
directory of the path or one above it leads. A write that succeeds makes such directories, puts a file
with its data where the path then leads to, and leaves everything else as it was. So no temporary file is
ever left. The path then leads to the file unless it passes through a link that the file has replaced. -/
theorem replaceFile_atomic (d : Disk) (faults : Faults) (path data : Bytes) (perm : Nat) :
    let d' := (d.replaceFile faults path data perm).2
    (∀ f, (d.replaceFile faults path data perm).1 = some f →
      d.GrowsAt (pathsUp (Path.dir path)) d' ∧
      ∀ loc n, d.resolve false path = .ok (.present loc n) →
        d'.resolve false path = .ok (.present loc n)) ∧
    ((d.replaceFile faults path data perm).1 = none →
      ∃ d₁ loc, d.GrowsAt (pathsUp (Path.dir path)) d₁ ∧
        d₁.Renews path data (d₁.permOr faults path perm) loc d' ∧
        (∀ i, d.stat path = .ok i → d₁.stat path = .ok i) ∧
        (d'.read path = .ok data ↔ (d₁.erase loc).LeadsTo path loc) ∧
        ((∀ target, d₁.node? loc ≠ some (.link target)) → d'.read path = .ok data)) := by
  intro d'
  rcases d.replaceFile_spec faults path data perm with ⟨f, hfails, hgrows⟩ |
    ⟨hdone, d₁, loc, hgrows, hrenews⟩
  · refine ⟨fun _ _ => ⟨hgrows, fun loc n => hgrows.grows.extends.resolve_eq⟩, fun hdone => ?_⟩
    cases hfails.symm.trans hdone
  · refine ⟨fun f hfails => ?_, fun _ => ⟨d₁, loc, hgrows, hrenews,
      fun i => hgrows.grows.extends.stat_eq, ?_, fun hlink => ?_⟩⟩
    · cases hdone.symm.trans hfails
    · rcases hrenews.read_cases with ⟨hleads, hread⟩ | ⟨-, hnot, hread⟩
      · exact iff_of_true hread hleads
      · exact iff_of_false (by rw [hread]; exact nofun) hnot
    · rcases hrenews.read_cases with ⟨-, hread⟩ | ⟨⟨target, htarget⟩, -⟩
      · exact hread
      · exact absurd htarget (hlink target)

/-- The same write with a rename that is refused, and without. -/
theorem replaceFile_atomic_rename :
    let refused : Faults := fun step => if step = .rename then some .isDirectory else none
    (∃ f, ((ofCwd []).replaceFile refused "a/x" "1" 0o644).1 = some f) ∧
    (ofCwd []).GrowsAt (pathsUp "a") ((ofCwd []).replaceFile refused "a/x" "1" 0o644).2 ∧
    ((ofCwd []).replaceFile .none "a/x" "1" 0o644).1 = none ∧
    ∃ loc bits, ((ofCwd []).replaceFile .none "a/x" "1" 0o644).2.node? loc =
      some (.file "1" bits) := by
  intro refused
  obtain ⟨f, hfails⟩ : ∃ f, ((ofCwd []).replaceFile refused "a/x" "1" 0o644).1 = some f := ⟨_, rfl⟩
  have hdone : ((ofCwd []).replaceFile .none "a/x" "1" 0o644).1 = none := rfl
  obtain ⟨d₁, loc, -, hrenews, -⟩ := (replaceFile_atomic (ofCwd []) .none "a/x" "1" 0o644).2 hdone
  have hgrows := ((replaceFile_atomic (ofCwd []) refused "a/x" "1" 0o644).1 f hfails).1
  exact ⟨⟨f, hfails⟩, hgrows, hdone, loc, _, hrenews.holds⟩

/-- A disk with a link to its working directory. -/
def selfLinked : Disk := ⟨[], [([Bytes.ofString "s"], .link ".")]⟩

/-- A write to `x/` fails and leaves a directory at its path. A write through a link to the working
directory replaces the link, and nothing is read at its path any more. -/
theorem replaceFile_disturbs_path :
    (∃ f, ((ofCwd []).replaceFile .none "x/" "1" 0o644).1 = some f) ∧
    (ofCwd []).locate true "x/" = .error .noEntry ∧
    ((ofCwd []).replaceFile .none "x/" "1" 0o644).2.locate true "x/" = .ok (["x"], .dir) ∧
    (selfLinked.replaceFile .none "s/s" "1" 0o644).1 = none ∧
    (selfLinked.replaceFile .none "s/s" "1" 0o644).2.read "s/s" =
      .error (.system "open s/s" .notDirectory) :=
  ⟨⟨_, rfl⟩, rfl, rfl, rfl, rfl⟩

end RetryWeave.Files.Disk
