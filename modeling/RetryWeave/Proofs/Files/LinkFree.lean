import RetryWeave.Proofs.Files.Replacing

/-! # Disks without links

Where there are no links, a path leads where its text says, and writing files does not change where
it leads. -/

namespace RetryWeave.Files.Disk

variable {d d' : Disk} {loc : Location}

/-- There are no links on a disk. -/
def LinkFree (d : Disk) : Prop := ∀ loc target, d.node? loc ≠ some (.link target)

theorem linkFree_of_nodes (h : ∀ entry ∈ d.nodes, ∀ target, entry.2 ≠ .link target) :
    d.LinkFree := by
  intro loc target hlink
  have hloc : loc ≠ [] := ne_nil_of_node?_ne (d := d) (by simp [hlink])
  exact h _ (mem_nodes_of_node? hloc hlink) target rfl

/-! ## Paths by their texts -/

/-- Where a name leads to from a directory if there are no links. -/
def stepName (loc : Location) (name : Bytes) : Location :=
  if name = [] || name = [Ascii.dot] then loc
  else if name = Path.dotDot then loc.dropLast
  else loc ++ [name]

/-- Where a path leads to if there are no links. -/
def lexical (d : Disk) (path : Bytes) : Location :=
  (Path.elements path).foldl stepName (if Path.isAbs path then [] else d.cwd)

theorem foldl_stepName_split (path : Bytes) (loc : Location) :
    (Bytes.split Ascii.slash path).foldl stepName loc =
      (Path.elements path).foldl stepName loc := by
  rw [Path.elements, List.foldl_filter]
  congr 1
  funext l name
  by_cases hskip : name = [] ∨ name = [Ascii.dot]
  · rcases hskip with rfl | rfl <;> rfl
  · rw [not_or] at hskip
    simp [hskip.1, hskip.2]

/-- Names that lead neither nowhere nor upwards are put after a place. -/
theorem foldl_stepName_of_names {names : List Bytes}
    (h : ∀ name ∈ names, Path.IsElement name ∧ name ≠ Path.dotDot) (loc : Location) :
    names.foldl stepName loc = loc ++ names := by
  induction names generalizing loc with
  | nil => simp
  | cons name rest ih =>
      rw [List.forall_mem_cons] at h
      have hstep : stepName loc name = loc ++ [name] := by
        simp [stepName, h.1.1.ne_nil, h.1.1.ne_dot, h.1.2]
      rw [List.foldl_cons, hstep, ih h.2, List.append_assoc, List.singleton_append]

namespace LinkFree

theorem advance_ne_link (hd : d.LinkFree) {followLast : Bool} {names names' : List Bytes}
    {loc' : Location} : d.advance followLast loc names ≠ .link loc' names' := by
  intro h
  induction names generalizing loc with
  | nil => cases h
  | cons name rest ih =>
      rcases advance_cons loc name with ⟨next, hpass⟩ | hlong | hlook
      · rw [hpass] at h
        exact ih h
      · rw [hlong] at h
        cases h
      · rw [hlook] at h
        rcases meet_eq_link h with ⟨-, hrest⟩ | ⟨target, hnode, -⟩
        · exact ih hrest
        · exact hd _ _ hnode

theorem location_of_advance (hd : d.LinkFree) {followLast : Bool} {names : List Bytes}
    {found : Found} (h : d.advance followLast loc names = .stopped (.ok found)) :
    found.location = names.foldl stepName loc := by
  induction names generalizing loc with
  | nil =>
      cases h
      rfl
  | cons name rest ih =>
      rw [List.foldl_cons, stepName]
      rw [advance] at h
      split at h
      · rename_i hskip
        rw [if_pos hskip]
        exact ih h
      · rename_i hskip
        rw [if_neg hskip]
        split at h
        · rename_i hup
          rw [if_pos hup]
          exact ih h
        · rename_i hup
          rw [if_neg hup]
          split at h
          · cases h
          · split at h
            · split at h
              · rename_i hrest
                cases h
                rw [List.isEmpty_iff.mp hrest]
                rfl
              · cases h
            · exact ih h
            · split at h
              · rename_i hrest
                cases h
                rw [List.isEmpty_iff.mp hrest]
                rfl
              · cases h
            · rename_i hnode
              exact absurd hnode (hd _ _)

theorem follow_eq_ok (hd : d.LinkFree) {followLast : Bool} {fuel : Nat} {names : List Bytes}
    {found : Found} :
    d.follow followLast (fuel + 1) loc names = .ok found ↔
      d.advance followLast loc names = .stopped (.ok found) := by
  rw [follow]
  cases hadvance : d.advance followLast loc names with
  | stopped r => simp
  | link loc' names' => exact absurd hadvance hd.advance_ne_link

theorem resolve_eq_ok (hd : d.LinkFree) {followLast : Bool} {path : Bytes} {found : Found} :
    d.resolve followLast path = .ok found ↔ path ≠ [] ∧ path.length ≤ pathLimit ∧
      d.advance followLast (if Path.isAbs path then [] else d.cwd) (Bytes.split Ascii.slash path) =
        .stopped (.ok found) := by
  rw [resolve]
  split
  · rename_i hempty
    simp [List.isEmpty_iff.mp hempty]
  · rename_i hempty
    split
    · rename_i hlong
      simp only [reduceCtorEq, false_iff]
      rintro ⟨-, hshort, -⟩
      omega
    · rename_i hlong
      rw [hd.follow_eq_ok]
      simp only [List.isEmpty_iff] at hempty
      simp [hempty, Nat.not_lt.mp hlong]

/-- A path leads where its text says. -/
theorem leadsTo_lexical (hd : d.LinkFree) {path : Bytes} (h : d.LeadsTo path loc) :
    loc = d.lexical path := by
  obtain ⟨found, hresolve, rfl, -⟩ := h
  obtain ⟨-, -, hadvance⟩ := hd.resolve_eq_ok.mp hresolve
  rw [hd.location_of_advance hadvance, foldl_stepName_split, lexical]

end LinkFree

/-! ## Files that were written -/

/-- Directories stay directories. -/
def KeepsDirs (d d' : Disk) : Prop := ∀ loc, d.node? loc = some .dir → d'.node? loc = some .dir

theorem advance_of_keepsDirs (hdirs : d.KeepsDirs d') {followLast : Bool}
    {names : List Bytes} {found : Found} {content : Bytes} {perm : Nat}
    (h : d.advance followLast loc names = .stopped (.ok found)) (hdir : found.node? ≠ some .dir)
    (hfile : d'.node? found.location = some (.file content perm)) (followLast' : Bool) :
    d'.advance followLast' loc names =
      .stopped (.ok (.present found.location (.file content perm))) := by
  induction names generalizing loc with
  | nil =>
      cases h
      exact absurd rfl hdir
  | cons name rest ih =>
      rcases advance_cons loc name with ⟨next, hpass⟩ | hlong | hlook
      · rw [hpass] at h ⊢
        exact ih h
      · rw [hlong] at h
        cases h
      · rw [hlook] at h ⊢
        rcases meet_eq_ok h with ⟨hnode, hrest⟩ | ⟨rfl, ⟨-, rfl⟩ | ⟨n, -, -, -, rfl⟩⟩
        · rw [hdirs _ hnode]
          exact ih hrest
        · have hnode : d'.node? (loc ++ [name]) = some (.file content perm) := hfile
          rw [hnode]
          rfl
        · have hnode : d'.node? (loc ++ [name]) = some (.file content perm) := hfile
          rw [hnode]
          rfl

/-- A file that was written where a path leads to is read at this path. -/
theorem read_of_keepsDirs (hd : d.LinkFree) (hd' : d'.LinkFree) (hdirs : d.KeepsDirs d')
    (hcwd : d'.cwd = d.cwd) {path content : Bytes} {perm : Nat} (h : d.LeadsTo path loc)
    (hfile : d'.node? loc = some (.file content perm)) : d'.read path = .ok content := by
  obtain ⟨found, hresolve, rfl, hdir⟩ := h
  obtain ⟨hne, hlong, hadvance⟩ := hd.resolve_eq_ok.mp hresolve
  have hresolve' : d'.resolve true path = .ok (.present found.location (.file content perm)) := by
    rw [hd'.resolve_eq_ok, hcwd]
    exact ⟨hne, hlong, advance_of_keepsDirs hdirs hadvance hdir hfile true⟩
  simp only [read, locate, hresolve']

theorem Grows.linkFree (h : d.Grows d') (hd : d.LinkFree) : d'.LinkFree := by
  intro loc target hlink
  rcases h.keeps loc with heq | ⟨-, hdir⟩
  · exact hd loc target (heq ▸ hlink)
  · cases hdir.symm.trans hlink

theorem Grows.keepsDirs (h : d.Grows d') : d.KeepsDirs d' := fun loc hdir =>
  (h.keeps loc).node?_eq hdir

theorem Replaces.linkFree {path data : Bytes} (h : d.Replaces path data loc d')
    (hd : d.LinkFree) : d'.LinkFree := by
  obtain ⟨d₁, hgrows, -, hothers⟩ := h.others
  intro loc' target hlink
  by_cases hloc : loc' = loc
  · obtain ⟨perm, hfile⟩ := h.holds
    cases (hloc ▸ hfile).symm.trans hlink
  · exact hgrows.linkFree hd loc' target ((hothers loc' hloc).symm.trans hlink)

/-- A write keeps the directories that were there when its own ones were made. -/
theorem Replaces.exists_leadsTo {path data : Bytes} (h : d.Replaces path data loc d') :
    ∃ d₁, d.Grows d₁ ∧ d₁.LeadsTo path loc ∧ d₁.KeepsDirs d' := by
  obtain ⟨d₁, hgrows, hleads, hothers⟩ := h.others
  refine ⟨d₁, hgrows, hleads, fun loc' hdir => ?_⟩
  have hne : loc' ≠ loc := by
    rintro rfl
    exact hleads.node?_ne_dir hdir
  rw [hothers loc' hne]
  exact hdir

end RetryWeave.Files.Disk
