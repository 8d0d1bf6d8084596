import Mathlib.Data.List.Basic
import RetryWeave.Files.Disk

/-! # Places on a disk

What is at a place after a disk was changed somewhere, where paths lead, and the disks that making
directories leads to. -/

namespace RetryWeave.Files.Disk

variable {d d' : Disk} {loc loc' : Location} {n : DiskNode}

/-! ## Changes at one place -/

/-- Looking a key up among the bindings whose keys are kept. -/
theorem lookup_filter {κ ν : Type} [BEq κ] [LawfulBEq κ] (keep : κ → Bool)
    (bindings : List (κ × ν)) (k : κ) :
    (bindings.filter fun b => keep b.1).lookup k = if keep k then bindings.lookup k else none := by
  induction bindings with
  | nil => simp
  | cons b bindings ih =>
      obtain ⟨k', v⟩ := b
      by_cases hk : k = k'
      · subst hk
        cases hkeep : keep k <;> simp [hkeep, ih]
      · have hne : (k == k') = false := beq_eq_false_iff_ne.mpr hk
        cases hkeep : keep k' <;> simp [hkeep, List.lookup_cons, hne, ih]

/-- Where no key stands twice, looking a key up finds what is bound to it. -/
theorem lookup_eq_some_iff_mem {κ ν : Type} [BEq κ] [LawfulBEq κ] {bindings : List (κ × ν)} {k : κ}
    {v : ν} (h : (bindings.map (·.1)).Nodup) : bindings.lookup k = some v ↔ (k, v) ∈ bindings := by
  rw [List.lookup_eq_some_iff]
  constructor
  · rintro ⟨before, after, rfl, -⟩
    simp
  · intro hmem
    obtain ⟨before, after, rfl⟩ := List.append_of_mem hmem
    rw [List.map_append, List.nodup_append] at h
    refine ⟨before, after, rfl, fun b hb => bne_iff_ne.mpr ?_⟩
    exact (h.2.2 b.1 (List.mem_map_of_mem hb) k (by simp)).symm

@[simp] theorem node?_nil (d : Disk) : d.node? [] = some .dir := rfl

theorem ne_nil_of_node?_ne (h : d.node? loc ≠ some .dir) : loc ≠ [] := by
  rintro rfl
  exact h rfl

theorem mem_nodes_of_node? (hloc : loc ≠ []) (h : d.node? loc = some n) : (loc, n) ∈ d.nodes := by
  simp only [node?, List.isEmpty_iff, hloc, if_false] at h
  obtain ⟨before, after, hnodes, -⟩ := List.lookup_eq_some_iff.mp h
  simp [hnodes]

theorem node?_set_self (d : Disk) (n : DiskNode) (h : loc ≠ []) :
    (d.set loc n).node? loc = some n := by
  simp [node?, set, h]

theorem node?_erase (d : Disk) (loc loc' : Location) :
    (d.erase loc).node? loc' = if loc' = loc ∧ loc' ≠ [] then none else d.node? loc' := by
  simp only [node?, erase]
  rw [lookup_filter (fun l => decide (l ≠ loc)) d.nodes loc']
  by_cases hnil : loc' = []
  · simp [hnil]
  · by_cases hloc : loc' = loc
    · subst hloc
      simp [hnil]
    · simp [hloc]

theorem node?_erase_self (d : Disk) (h : loc ≠ []) : (d.erase loc).node? loc = none := by
  simp [node?_erase, h]

theorem node?_erase_of_ne (d : Disk) (h : loc' ≠ loc) :
    (d.erase loc).node? loc' = d.node? loc' := by
  simp [node?_erase, h]

/-- A change at a place leaves the others as they are. -/
theorem node?_set_of_ne (d : Disk) (n : DiskNode) (h : loc' ≠ loc) :
    (d.set loc n).node? loc' = d.node? loc' := by
  have hne : (loc' == loc) = false := beq_eq_false_iff_ne.mpr h
  have herase := node?_erase_of_ne d h
  simp only [node?, erase] at herase
  simp only [node?, set, List.lookup_cons, hne, herase]

@[simp] theorem cwd_set (d : Disk) (loc : Location) (n : DiskNode) : (d.set loc n).cwd = d.cwd :=
  rfl

@[simp] theorem cwd_erase (d : Disk) (loc : Location) : (d.erase loc).cwd = d.cwd := rfl

/-! ## Where paths lead -/

/-- What a path was found to lead to, if there is something. -/
def Found.node? : Found → Option DiskNode
  | .present _ n => some n
  | .absent _ _ => none

/-- What comes of a name that is looked up, by what it leads to. -/
def meet (d : Disk) (followLast : Bool) (loc : Location) (name : Bytes) (rest : List Bytes) :
    Option DiskNode → Progress
  | none => .stopped (if rest.isEmpty then .ok (.absent loc name) else .error .noEntry)
  | some .dir => d.advance followLast (loc ++ [name]) rest
  | some (.file content perm) =>
    .stopped (if rest.isEmpty then .ok (.present (loc ++ [name]) (.file content perm))
      else .error .notDirectory)
  | some (.link target) =>
    if rest.isEmpty && !followLast then .stopped (.ok (.present (loc ++ [name]) (.link target)))
    else .link (if Path.isAbs target then [] else loc) (Bytes.split Ascii.slash target ++ rest)

/-- What a name does on every disk: it leads on by itself, is too long, or is looked up. -/
theorem advance_cons (loc : Location) (name : Bytes) :
    (∃ loc', ∀ (d : Disk) (followLast : Bool) (rest : List Bytes),
      d.advance followLast loc (name :: rest) = d.advance followLast loc' rest) ∨
    (∀ (d : Disk) (followLast : Bool) (rest : List Bytes),
      d.advance followLast loc (name :: rest) = .stopped (.error .nameTooLong)) ∨
    ∀ (d : Disk) (followLast : Bool) (rest : List Bytes),
      d.advance followLast loc (name :: rest) =
        d.meet followLast loc name rest (d.node? (loc ++ [name])) := by
  by_cases hskip : (decide (name = []) || decide (name = [Ascii.dot])) = true
  · exact .inl ⟨loc, fun d followLast rest => by rw [advance, if_pos hskip]⟩
  · by_cases hup : name = Path.dotDot
    · exact .inl ⟨loc.dropLast, fun d followLast rest => by rw [advance, if_neg hskip, if_pos hup]⟩
    · by_cases hlong : name.length > nameLimit
      · exact .inr (.inl fun d followLast rest => by
          rw [advance, if_neg hskip, if_neg hup, if_pos hlong])
      · refine .inr (.inr fun d followLast rest => ?_)
        rw [advance, if_neg hskip, if_neg hup, if_neg hlong]
        rfl

section

variable {followLast : Bool} {name : Bytes} {names rest names' : List Bytes} {found : Found}
  {met : Option DiskNode}

/-- The names end where the last one is looked up. -/
theorem meet_eq_ok (h : d.meet followLast loc name rest met = .stopped (.ok found)) :
    met = some .dir ∧ d.advance followLast (loc ++ [name]) rest = .stopped (.ok found) ∨
    rest = [] ∧ (met = none ∧ found = .absent loc name ∨
      ∃ n, met = some n ∧ n ≠ .dir ∧ (∀ target, n = .link target → followLast = false) ∧
        found = .present (loc ++ [name]) n) := by
  cases met with
  | none =>
      simp only [meet, Progress.stopped.injEq] at h
      split at h
      · rename_i hrest
        cases h
        exact .inr ⟨List.isEmpty_iff.mp hrest, .inl ⟨rfl, rfl⟩⟩
      · cases h
  | some n =>
      cases n with
      | dir => exact .inl ⟨rfl, h⟩
      | file content perm =>
          simp only [meet, Progress.stopped.injEq] at h
          split at h
          · rename_i hrest
            cases h
            exact .inr ⟨List.isEmpty_iff.mp hrest, .inr ⟨_, rfl, nofun, nofun, rfl⟩⟩
          · cases h
      | link target =>
          simp only [meet] at h
          split at h
          · rename_i hrest
            obtain ⟨hrest, hfollow⟩ := Bool.and_eq_true_iff.mp hrest
            cases h
            refine .inr ⟨List.isEmpty_iff.mp hrest, .inr ⟨_, rfl, nofun, fun _ _ => ?_, rfl⟩⟩
            simpa using hfollow
          · cases h

/-- A link is met unless the names are to end at it. -/
theorem meet_eq_link (h : d.meet followLast loc name rest met = .link loc' names') :
    met = some .dir ∧ d.advance followLast (loc ++ [name]) rest = .link loc' names' ∨
    ∃ target, met = some (.link target) ∧ (rest.isEmpty && !followLast) = false ∧
      loc' = (if Path.isAbs target then [] else loc) ∧
      names' = Bytes.split Ascii.slash target ++ rest := by
  cases met with
  | none => cases h
  | some n =>
      cases n with
      | dir => exact .inl ⟨rfl, h⟩
      | file content perm => cases h
      | link target =>
          simp only [meet] at h
          split at h
          · cases h
          · rename_i hrest
            cases h
            exact .inr ⟨target, rfl, Bool.not_eq_true _ ▸ hrest, rfl, rfl⟩

end

/-- Names that end at something other than a directory, or at a free name, end at a place with the
last of the names. -/
theorem advance_stopped {followLast : Bool} {names : List Bytes} {found : Found}
    (h : d.advance followLast loc names = .stopped (.ok found)) (hdir : found.node? ≠ some .dir) :
    d.node? found.location = found.node? ∧ found.location.getLast? = names.getLast? := by
  induction names generalizing loc with
  | nil =>
      cases h
      exact absurd rfl hdir
  | cons name rest ih =>
      -- the names before the last one are passed, so that the last one stays the same
      have hlast : ∀ {l : Location}, d.advance followLast l rest = .stopped (.ok found) →
          d.node? found.location = found.node? ∧
            found.location.getLast? = (name :: rest).getLast? := by
        intro l hl
        cases rest with
        | nil =>
            cases hl
            exact absurd rfl hdir
        | cons next rest => exact ih hl
      rcases advance_cons loc name with ⟨next, hpass⟩ | hlong | hlook
      · rw [hpass] at h
        exact hlast h
      · rw [hlong] at h
        cases h
      · rw [hlook] at h
        rcases meet_eq_ok h with ⟨-, hrest⟩ | ⟨rfl, ⟨hnode, rfl⟩ | ⟨n, hnode, -, -, rfl⟩⟩
        · exact hlast hrest
        · exact ⟨hnode, by simp [Found.location]⟩
        · exact ⟨hnode, by simp [Found.location]⟩

/-- A link that is followed on the way leaves the last name as it is. -/
theorem getLast?_of_advance_link {names names' : List Bytes}
    (h : d.advance false loc names = .link loc' names') : names'.getLast? = names.getLast? := by
  induction names generalizing loc with
  | nil => cases h
  | cons name rest ih =>
      have hlast : ∀ {l : Location}, d.advance false l rest = .link loc' names' →
          names'.getLast? = (name :: rest).getLast? := by
        intro l hl
        cases rest with
        | nil => cases hl
        | cons next rest => exact ih hl
      rcases advance_cons loc name with ⟨next, hpass⟩ | hlong | hlook
      · rw [hpass] at h
        exact hlast h
      · rw [hlong] at h
        cases h
      · rw [hlook] at h
        rcases meet_eq_link h with ⟨-, hrest⟩ | ⟨target, -, hend, -, rfl⟩
        · exact hlast hrest
        · cases rest with
          | nil => cases hend
          | cons next rest =>
              rw [List.getLast?_append_of_ne_nil _ (List.cons_ne_nil _ _), List.getLast?_cons_cons]

theorem follow_eq_ok {fuel : Nat} {names : List Bytes} {found : Found}
    (h : d.follow false fuel loc names = .ok found) (hdir : found.node? ≠ some .dir) :
    d.node? found.location = found.node? ∧ found.location.getLast? = names.getLast? := by
  induction fuel generalizing loc names with
  | zero => cases h
  | succ fuel ih =>
      rw [follow] at h
      split at h
      · rename_i hstopped
        subst h
        exact advance_stopped hstopped hdir
      · rename_i hlink
        obtain ⟨hnode, hlast⟩ := ih h
        exact ⟨hnode, hlast.trans (getLast?_of_advance_link hlink)⟩

theorem resolve_eq_ok {path : Bytes} {found : Found} (h : d.resolve false path = .ok found)
    (hdir : found.node? ≠ some .dir) :
    d.node? found.location = found.node? ∧
      found.location.getLast? = (Bytes.split Ascii.slash path).getLast? := by
  rw [resolve] at h
  split at h
  · cases h
  · split at h
    · cases h
    · exact follow_eq_ok h hdir

/-- A path leads to a place, where there may be nothing but is no directory. A link at its end is not
followed. -/
def LeadsTo (d : Disk) (path : Bytes) (loc : Location) : Prop :=
  ∃ found, d.resolve false path = .ok found ∧ found.location = loc ∧ found.node? ≠ some .dir

theorem LeadsTo.node?_ne_dir {path : Bytes} (h : d.LeadsTo path loc) :
    d.node? loc ≠ some .dir := by
  obtain ⟨found, hresolve, rfl, hdir⟩ := h
  rw [(resolve_eq_ok hresolve hdir).1]
  exact hdir

/-! ### Files off the way -/

section

variable {temp : Location} {content : Bytes} {perm : Nat} {followLast : Bool}

/-- A file that is not where the names end is not on their way. -/
theorem advance_of_set_file {names : List Bytes} {progress : Progress}
    (h : (d.set temp (.file content perm)).advance followLast loc names = progress)
    (hend : (∃ found : Found, progress = .stopped (.ok found) ∧ found.location ≠ temp) ∨
      ∃ loc' names', progress = .link loc' names') :
    d.advance followLast loc names = progress := by
  induction names generalizing loc with
  | nil => exact h
  | cons name rest ih =>
      rcases advance_cons loc name with ⟨next, hpass⟩ | hlong | hlook
      · rw [hpass] at h ⊢
        exact ih h
      · rw [hlong] at h ⊢
        exact h
      · rw [hlook] at h ⊢
        by_cases heq : loc ++ [name] = temp
        · -- the names would end at the file, or not be found
          rw [heq, node?_set_self d _ (heq ▸ by simp)] at h
          subst h
          rcases hend with ⟨found, hstop, hne⟩ | ⟨loc', names', hlink⟩
          · rcases meet_eq_ok hstop with ⟨hdir, -⟩ | ⟨-, ⟨hnone, -⟩ | ⟨n, -, -, -, rfl⟩⟩
            · cases hdir
            · cases hnone
            · exact absurd heq hne
          · rcases meet_eq_link hlink with ⟨hdir, -⟩ | ⟨target, hmet, -⟩
            · cases hdir
            · cases hmet
        · rw [node?_set_of_ne d _ heq] at h
          cases hnode : d.node? (loc ++ [name]) with
          | none =>
              rw [hnode] at h
              exact h
          | some n =>
              rw [hnode] at h
              cases n with
              | dir => exact ih h
              | file content perm => exact h
              | link target => exact h

theorem follow_of_set_file {fuel : Nat} {names : List Bytes} {found : Found}
    (h : (d.set temp (.file content perm)).follow followLast fuel loc names = .ok found)
    (hne : found.location ≠ temp) : d.follow followLast fuel loc names = .ok found := by
  induction fuel generalizing loc names with
  | zero => cases h
  | succ fuel ih =>
      rw [follow] at h ⊢
      split at h
      · rename_i hstopped
        subst h
        rw [advance_of_set_file hstopped (.inl ⟨found, rfl, hne⟩)]
      · rename_i hlink
        rw [advance_of_set_file hlink (.inr ⟨_, _, rfl⟩)]
        exact ih h

theorem resolve_of_set_file {path : Bytes} {found : Found}
    (h : (d.set temp (.file content perm)).resolve followLast path = .ok found)
    (hne : found.location ≠ temp) : d.resolve followLast path = .ok found := by
  rw [resolve] at h ⊢
  split at h
  · cases h
  · rename_i hempty
    rw [if_neg hempty]
    split at h
    · cases h
    · rename_i hlong
      rw [if_neg hlong]
      exact follow_of_set_file h hne

end

/-! ## New directories -/

/-- What is at a place stays, unless there is nothing: then a directory may be made. -/
def Keeps (d d' : Disk) (loc : Location) : Prop :=
  d'.node? loc = d.node? loc ∨ d.node? loc = none ∧ d'.node? loc = some .dir

theorem Keeps.trans {d'' : Disk} (h : d.Keeps d' loc) (h' : d'.Keeps d'' loc) : d.Keeps d'' loc := by
  rcases h with heq | ⟨hnone, hdir⟩
  · rw [Keeps, ← heq]
    exact h'
  · rcases h' with heq' | ⟨hnone', -⟩
    · exact .inr ⟨hnone, heq'.trans hdir⟩
    · cases hdir.symm.trans hnone'

theorem Keeps.node?_eq (h : d.Keeps d' loc) (hnode : d.node? loc = some n) :
    d'.node? loc = some n := by
  rcases h with heq | ⟨hnone, -⟩
  · exact heq.trans hnode
  · cases hnode.symm.trans hnone

/-- All that is on one disk is on the other one, which may have more directories. -/
structure Grows (d d' : Disk) : Prop where
  cwd : d'.cwd = d.cwd
  keeps : ∀ loc, d.Keeps d' loc

namespace Grows

theorem refl (d : Disk) : d.Grows d := ⟨rfl, fun _ => .inl rfl⟩

theorem trans {d'' : Disk} (h : d.Grows d') (h' : d'.Grows d'') : d.Grows d'' :=
  ⟨h'.cwd.trans h.cwd, fun loc => (h.keeps loc).trans (h'.keeps loc)⟩

theorem set_dir (h : d.node? loc = none) : d.Grows (d.set loc .dir) := by
  refine ⟨rfl, fun loc' => ?_⟩
  by_cases hloc : loc' = loc
  · subst hloc
    exact .inr ⟨h, node?_set_self d .dir (ne_nil_of_node?_ne (d := d) (by simp [h]))⟩
  · exact .inl (node?_set_of_ne d .dir hloc)

end Grows

end RetryWeave.Files.Disk
