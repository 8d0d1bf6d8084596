import RetryWeave.Proofs.Files.Listing
import RetryWeave.Proofs.Text.Order

/-! # Walks that skip directories

A visitor that skips directories by their relative paths alone. The walk of a listing reaches what
no skipped directory hides by its text. The walk of a disk reaches what is not below a skipped
directory. -/

namespace RetryWeave.Files

open RetryWeave.Path

/-- Skips directories by their relative paths, and keeps what it was called for. -/
def chooser (skip : Bytes → Bool) : Visitor (List (Bytes × Bool))
  | .ok v => fun seen =>
    (if v.info.isDir && skip v.rel then .skipDir else .proceed, seen ++ [(v.rel, v.info.isDir)])
  | .error f => fun seen => (.stop f, seen)

/-- The relative paths and kinds of the entries that a walk reaches, in order. -/
def Directory.calls (skip : Bytes → Bool) (dir : Directory) : List (Bytes × Bool) :=
  (dir.walk (chooser skip) []).2

/-- What a visitor is told of a place. -/
def call (x : Location × Bool) : Bytes × Bool := (ofElements false x.1, x.2)

variable {skip : Bytes → Bool}

/-! ## Listings -/

theorem Memory.pairwise_listing {m : Memory} (hm : m.Sound) (top : Bytes) :
    (m.listing top).Pairwise (·.path < ·.path) := by
  refine Bytes.pairwise_lt_mergeSort Visit.path ?_
  have hnodup := nodup_map_path_listing hm top
  rw [listing, ((List.mergeSort_perm _ _).map _).nodup_iff] at hnodup
  exact hnodup

/-- A directory is skipped, and the path of an entry begins with the text of the directory. -/
def Hides (skip : Bytes → Bool) (u : Visit) (path : Bytes) : Prop :=
  (u.info.isDir && skip u.rel) = true ∧ Bytes.startsWith (u.path ++ [Ascii.slash]) path = true

instance (skip : Bytes → Bool) (u : Visit) (path : Bytes) : Decidable (Hides skip u path) :=
  inferInstanceAs (Decidable (_ ∧ _))

theorem Hides.trans {u v : Visit} {path : Bytes} (h : Hides skip u v.path)
    (h' : Bytes.startsWith (v.path ++ [Ascii.slash]) path = true) : Hides skip u path := by
  refine ⟨h.1, Bytes.startsWith_iff.mpr ?_⟩
  exact (Bytes.startsWith_iff.mp h.2).trans
    ((List.prefix_append _ _).trans (Bytes.startsWith_iff.mp h'))

theorem Hides.path_lt {u : Visit} {path : Bytes} (h : Hides skip u path) : u.path < path := by
  obtain ⟨rest, rfl⟩ := Bytes.startsWith_iff.mp h.2
  rw [List.append_assoc, List.singleton_append]
  exact Bytes.lt_append_cons _ _ _

theorem isBelowAny_concat (dirs : List Bytes) (d path : Bytes) :
    isBelowAny (dirs ++ [d]) path = true ↔
      isBelowAny dirs path = true ∨ Bytes.startsWith (d ++ [Ascii.slash]) path = true := by
  simp [isBelowAny]

section

variable {α : Type} {visit : Visitor (List α)} {kept : Visit → List α} {visits : List Visit}

/-- A visitor skips directories by their relative paths, and keeps something of every entry. -/
def Gathers (visit : Visitor (List α)) (skip : Bytes → Bool) (kept : Visit → List α)
    (visits : List Visit) : Prop :=
  ∀ v ∈ visits, ∀ seen, visit (.ok v) seen =
    (if v.info.isDir && skip v.rel then .skipDir else .proceed, seen ++ kept v)

/-- The walk of a listing from some place on. The directories skipped so far hide the same entries as
all directories before that place that are to be skipped. -/
theorem walkListing_of_gathers (hvisit : Gathers visit skip kept visits) {before rest : List Visit}
    {skipped : List Bytes} (hvisits : visits = before ++ rest)
    (horder : visits.Pairwise (·.path < ·.path))
    (hskipped : ∀ path, isBelowAny skipped path = true ↔ ∃ u ∈ before, Hides skip u path)
    (seen : List α) :
    walkListing visit skipped rest seen = (none, seen ++
      (rest.filter fun v => decide (¬ ∃ u ∈ visits, Hides skip u v.path)).flatMap kept) := by
  induction rest generalizing before skipped seen with
  | nil => simp [walkListing]
  | cons v rest ih =>
      have hvisits' : visits = (before ++ [v]) ++ rest := by simp [hvisits]
      -- what hides an entry stands before it
      have hhidden : (∃ u ∈ visits, Hides skip u v.path) ↔ isBelowAny skipped v.path = true := by
        rw [hskipped]
        constructor
        · rintro ⟨u, hu, hhides⟩
          rw [hvisits, List.mem_append, List.mem_cons] at hu
          rcases hu with hu | rfl | hu
          · exact ⟨u, hu, hhides⟩
          · exact absurd hhides.path_lt (List.lt_irrefl _)
          · rw [hvisits, List.pairwise_append, List.pairwise_cons] at horder
            exact absurd hhides.path_lt (List.lt_asymm (horder.2.1.1 u hu))
        · rintro ⟨u, hu, hhides⟩
          exact ⟨u, by simp [hvisits, hu], hhides⟩
      have hmore : ∀ path, (∃ u ∈ before ++ [v], Hides skip u path) ↔
          isBelowAny skipped path = true ∨ Hides skip v path := by
        intro path
        simp [hskipped, or_and_right, exists_or]
      rw [walkListing]
      by_cases hbelow : isBelowAny skipped v.path = true
      · rw [if_pos hbelow, List.filter_cons_of_neg (by simpa using hhidden.mpr hbelow)]
        refine ih hvisits' (fun path => ?_) seen
        rw [hmore]
        refine ⟨.inl, fun hor => hor.elim id fun hhides => ?_⟩
        obtain ⟨u, hu, hu'⟩ := (hskipped v.path).mp hbelow
        exact (hskipped path).mpr ⟨u, hu, hu'.trans hhides.2⟩
      · have hseen : ¬ ∃ u ∈ visits, Hides skip u v.path := fun h => hbelow (hhidden.mp h)
        rw [if_neg hbelow, List.filter_cons_of_pos (by simpa using hseen), List.flatMap_cons,
          hvisit v (by simp [hvisits])]
        cases hanswer : v.info.isDir && skip v.rel with
        | true =>
            have hdir : v.info.isDir = true := (Bool.and_eq_true_iff.mp hanswer).1
            simp only [if_true, Answer.skips_skipDir, hdir, Bool.true_and]
            rw [ih hvisits' (fun path => ?_) _, List.append_assoc]
            rw [hmore, isBelowAny_concat, Hides, hanswer]
            simp
        | false =>
            simp only [Bool.false_eq_true, if_false, Answer.skips_proceed, Bool.false_and,
              Answer.failure?_proceed]
            rw [ih hvisits' (fun path => ?_) _, List.append_assoc]
            rw [hmore, Hides, hanswer]
            simp

/-- The walk of a listing keeps what it keeps of the entries that no skipped directory hides. -/
theorem walk_listing_of_gathers (hvisit : Gathers visit skip kept visits) (d : Bytes)
    (horder : visits.Pairwise (·.path < ·.path)) :
    (Directory.listing d visits).walk visit [] = (none,
      (visits.filter fun v => decide (¬ ∃ u ∈ visits, Hides skip u v.path)).flatMap kept) :=
  walkListing_of_gathers hvisit (List.nil_append visits).symm horder (by simp [isBelowAny]) []

end

theorem walk_listing_chooser (d : Bytes) {visits : List Visit}
    (horder : visits.Pairwise (·.path < ·.path)) :
    (Directory.listing d visits).walk (chooser skip) [] = (none,
      (visits.filter fun v => decide (¬ ∃ u ∈ visits, Hides skip u v.path)).map
        fun v => (v.rel, v.info.isDir)) := by
  have hgathers : Gathers (chooser skip) skip (fun v => [(v.rel, v.info.isDir)]) visits :=
    fun _ _ _ => rfl
  rw [walk_listing_of_gathers hgathers d horder, List.map_eq_flatMap]

/-! ## Disks -/

theorem joinRel_ofElements {l : Location} (h : ∀ name ∈ l, IsElement name) (name : Bytes) :
    FileTree.joinRel (ofElements false l) name = ofElements false (l ++ [name]) := by
  rcases eq_or_ne l [] with rfl | hne
  · rfl
  · rw [FileTree.joinRel, if_neg ((ofElements_eq_dot_iff h).not.mpr hne)]
    simp [ofElements, hne, Bytes.join_concat]

namespace Disk

variable {d : Disk} {loc l : Location} {n : DiskNode} {x : Location × Bool}

/-- The places that a walk reaches from a place below a directory on, with whether there are
directories. -/
def shown (d : Disk) (skip : Bytes → Bool) (loc : Location) :
    Nat → Location → DiskNode → List (Location × Bool)
  | fuel + 1, l, .dir => (l, true) ::
    if skip (ofElements false l) then []
    else (d.children (loc ++ l)).flatMap fun b => d.shown skip loc fuel (l ++ [b.1]) b.2
  | _, l, n => [(l, decide (n = .dir))]

/-- How the walk from a place ends. -/
def ending (skip : Bytes → Bool) (l : Location) (n : DiskNode) : FileTree.Ending :=
  if decide (n = .dir) && skip (ofElements false l) then .skipped else .done

@[simp] theorem isDir_info (name : Bytes) (n : DiskNode) :
    (info name n).isDir = decide (n = .dir) := by
  cases n <;> rfl

theorem treeFrom_dir (d : Disk) (fuel : Nat) (loc l : Location) (name : Bytes) :
    d.treeFrom (fuel + 1) (loc ++ l) name .dir = .node (info name .dir)
      ((d.children (loc ++ l)).map fun b => d.treeFrom fuel (loc ++ (l ++ [b.1])) b.1 b.2) := by
  simp only [treeFrom, List.append_assoc]

/-- The walk from a place, which is called for with the calls so far. -/
def WalksShown (d : Disk) (skip : Bytes → Bool) (loc : Location) (fuel : Nat) (l : Location)
    (name : Bytes) (n : DiskNode) : Prop :=
  ∀ path seen, FileTree.walkFrom (chooser skip) path (ofElements false l)
    (d.treeFrom fuel (loc ++ l) name n) seen =
      (ending skip l n, seen ++ (d.shown skip loc fuel l n).map call)

theorem walkChildren_chooser {fuel : Nat} (hl : ∀ name ∈ l, IsElement name)
    {found : List (Bytes × DiskNode)}
    (hwalk : ∀ b ∈ found, d.WalksShown skip loc fuel (l ++ [b.1]) b.1 b.2) (path : Bytes)
    (seen : List (Bytes × Bool)) :
    FileTree.walkChildren (chooser skip) path (ofElements false l)
      (found.map fun b => d.treeFrom fuel (loc ++ (l ++ [b.1])) b.1 b.2) seen =
      (.done, seen ++ (found.flatMap fun b => d.shown skip loc fuel (l ++ [b.1]) b.2).map call) := by
  induction found generalizing seen with
  | nil => simp [FileTree.walkChildren]
  | cons b found ih =>
      rw [List.forall_mem_cons] at hwalk
      obtain ⟨hfirst, hrest⟩ := hwalk
      have ih := ih hrest
      obtain ⟨more, hnode⟩ := d.treeFrom_eq_node fuel (loc ++ (l ++ [b.1])) b.1 b.2
      rw [WalksShown, hnode] at hfirst
      rw [List.map_cons, List.flatMap_cons, List.map_append, hnode]
      simp only [FileTree.walkChildren, name_info, joinRel_ofElements hl, hfirst,
        FileTree.isSkippable, isDir_info]
      cases hskip : decide (b.2 = .dir) && skip (ofElements false (l ++ [b.1])) with
      | true =>
          have hdir : decide (b.2 = .dir) = true := (Bool.and_eq_true_iff.mp hskip).1
          simp only [ending, hskip, if_true]
          rw [if_pos hdir, ih, List.append_assoc]
      | false =>
          simp only [ending, hskip, Bool.false_eq_true, if_false]
          rw [ih, List.append_assoc]

theorem walksShown_of_bare {fuel : Nat} {name : Bytes}
    (htree : d.treeFrom fuel (loc ++ l) name n = .node (info name n) [])
    (hshown : d.shown skip loc fuel l n = [(l, decide (n = .dir))]) :
    d.WalksShown skip loc fuel l name n := by
  intro path seen
  rw [htree, hshown, ending]
  cases hskip : decide (n = .dir) && skip (ofElements false l) <;>
    simp [FileTree.walkFrom, FileTree.walkChildren, chooser, call, hskip]

theorem walksShown (hnames : ∀ l, ∀ b ∈ d.children (loc ++ l), IsElement b.1)
    (fuel : Nat) (hl : ∀ name ∈ l, IsElement name) (name : Bytes) (n : DiskNode) :
    d.WalksShown skip loc fuel l name n := by
  induction fuel generalizing l name n with
  | zero => exact walksShown_of_bare rfl rfl
  | succ fuel ih =>
      cases n with
      | file content perm => exact walksShown_of_bare rfl rfl
      | link target => exact walksShown_of_bare rfl rfl
      | dir =>
          intro path seen
          have hbelow : ∀ b ∈ d.children (loc ++ l),
              d.WalksShown skip loc fuel (l ++ [b.1]) b.1 b.2 := fun b hb =>
            ih (by simpa [or_imp, forall_and] using ⟨hl, hnames l b hb⟩) b.1 b.2
          have hchildren := walkChildren_chooser hl hbelow path
            (seen ++ [(ofElements false l, true)])
          have hanswer : chooser skip (.ok ⟨path, ofElements false l, info name .dir⟩) seen =
              (if skip (ofElements false l) then .skipDir else .proceed,
                seen ++ [(ofElements false l, true)]) := rfl
          rw [treeFrom_dir, shown, FileTree.walkFrom, hanswer, ending]
          cases hskip : skip (ofElements false l) with
          | true => simp [call]
          | false =>
              simp only [decide_true, Bool.true_and, Bool.false_eq_true, if_false,
                FileTree.ofAnswer_proceed, hchildren, List.map_cons, List.append_assoc,
                List.singleton_append, call]

end Disk

end RetryWeave.Files
