import Mathlib.Data.List.Basic
import RetryWeave.Files.Disk
import RetryWeave.Files.Scan
import RetryWeave.Proofs.Files.Paths

/-! # Relative paths of files that are found

A walk gives every entry a path relative to its root that leads down by the names of directories, and
so every file that is found has such a path. -/

namespace RetryWeave.Path

/-- What an entry of a directory can be called. -/
structure IsName (name : Bytes) : Prop extends IsElement name where
  ne_dotDot : name ≠ dotDot

instance (name : Bytes) : Decidable (IsName name) :=
  decidable_of_iff (IsElement name ∧ name ≠ dotDot)
    ⟨fun h => ⟨h.1, h.2⟩, fun h => ⟨h.toIsElement, h.ne_dotDot⟩⟩

/-- A path in its shortest form that leads down, or nowhere. -/
structure Descends (rel : Bytes) : Prop where
  eq_ofElements : rel = ofElements false (elements rel)
  dotDot_notMem : dotDot ∉ elements rel

theorem descends_dot : Descends [Ascii.dot] := ⟨rfl, List.not_mem_nil⟩

theorem IsName.descends {name : Bytes} (h : IsName name) : Descends name := by
  refine ⟨?_, ?_⟩
  · rw [h.elements_eq]
    rfl
  · rw [h.elements_eq, List.mem_singleton]
    exact Ne.symm h.ne_dotDot

theorem Descends.ne_nil {rel : Bytes} (h : Descends rel) : rel ≠ [] := by
  rintro rfl
  cases h.eq_ofElements

/-- Paths that lead down by the same names are the same. -/
theorem Descends.eq_of_elements_eq {rel rel' : Bytes} (h : Descends rel) (h' : Descends rel')
    (heq : elements rel = elements rel') : rel = rel' := by
  rw [h.eq_ofElements, heq, ← h'.eq_ofElements]

theorem Descends.joinRel {rel name : Bytes} (h : Descends rel) (hname : IsName name) :
    Descends (Files.FileTree.joinRel rel name) := by
  rw [Files.FileTree.joinRel]
  split
  · exact hname.descends
  · rename_i hdot
    have helements : elements (rel ++ Ascii.slash :: name) = elements rel ++ [name] := by
      rw [elements_append_slash, hname.elements_eq]
    have hne : elements rel ≠ [] := fun hnil => hdot (h.eq_ofElements.trans (by rw [hnil]; rfl))
    refine ⟨?_, ?_⟩
    · rw [helements, ofElements, if_neg (by decide), if_neg (by simp),
        Bytes.join_concat hne]
      nth_rewrite 1 [h.eq_ofElements]
      simp [ofElements, hne]
    · rw [helements, List.mem_append, List.mem_singleton, not_or]
      exact ⟨h.dotDot_notMem, Ne.symm hname.ne_dotDot⟩

end RetryWeave.Path

namespace RetryWeave.Files

open RetryWeave.Path

/-! ## Walking -/

namespace FileTree

/-- All entries below the top of a tree have names. -/
inductive Named : FileTree → Prop
  | unknown (f : Failure) : Named (.unknown f)
  | node (info : Info) {children : List FileTree}
      (names : ∀ t ∈ children, ∃ i more, t = .node i more ∧ IsName i.name)
      (below : ∀ t ∈ children, Named t) : Named (.node info children)

section

variable {σ : Type} {visit : Visitor σ} {P : σ → Prop}

mutual

/-- What every visit of an entry with a path that leads down keeps, a walk keeps. -/
theorem walkFrom_keeps (hvisit : ∀ v s, Descends v.rel → P s → P (visit (.ok v) s).2)
    (hnone : ∀ f s, P s → P (visit (.error f) s).2) (path rel : Bytes) (hrel : Descends rel) :
    ∀ (t : FileTree) (s : σ), t.Named → P s → P (walkFrom visit path rel t s).2
  | .unknown f, s, _, hs => hnone f s hs
  | .node info children, s, hnamed, hs => by
      have hfirst := hvisit ⟨path, rel, info⟩ s hrel hs
      rcases hanswer : visit (.ok ⟨path, rel, info⟩) s with ⟨a, s'⟩
      rw [hanswer] at hfirst
      simp only [walkFrom, hanswer]
      split
      · cases hnamed with
        | node _ names below =>
            exact walkChildren_keeps hvisit hnone path rel hrel children _ names below hfirst
      · exact hfirst
termination_by structural t => t

theorem walkChildren_keeps (hvisit : ∀ v s, Descends v.rel → P s → P (visit (.ok v) s).2)
    (hnone : ∀ f s, P s → P (visit (.error f) s).2) (path rel : Bytes) (hrel : Descends rel) :
    ∀ (ts : List FileTree) (s : σ), (∀ t ∈ ts, ∃ i more, t = .node i more ∧ IsName i.name) →
      (∀ t ∈ ts, t.Named) → P s → P (walkChildren visit path rel ts s).2
  | [], s, _, _, hs => hs
  | t :: rest, s, hnames, hnamed, hs => by
      rw [List.forall_mem_cons] at hnames hnamed
      obtain ⟨i, more, ht, hname⟩ := hnames.1
      have hfirst := walkFrom_keeps hvisit hnone (joinPath path i.name) (joinRel rel i.name)
        (hrel.joinRel hname) t s hnamed.1 hs
      have hrest := fun s' => walkChildren_keeps hvisit hnone path rel hrel rest s' hnames.2 hnamed.2
      subst ht
      rcases hwalk : walkFrom visit (joinPath path i.name) (joinRel rel i.name) (.node i more) s
        with ⟨e, s'⟩
      rw [hwalk] at hfirst
      simp only [walkChildren, hwalk]
      split
      · exact hrest s' hfirst
      · split
        · exact hrest s' hfirst
        · exact hfirst
      · exact hfirst
termination_by structural ts => ts

end

theorem walk_keeps (hvisit : ∀ v s, Descends v.rel → P s → P (visit (.ok v) s).2)
    (hnone : ∀ f s, P s → P (visit (.error f) s).2) (path : Bytes) {t : FileTree} (ht : t.Named)
    (s : σ) (hs : P s) : P (walk visit path t s).2 := by
  have hkeeps := walkFrom_keeps hvisit hnone path [Ascii.dot] descends_dot t s ht hs
  rw [walk]
  split
  · rename_i hwalk
    rw [hwalk] at hkeeps
    exact hkeeps
  · rename_i hwalk
    rw [hwalk] at hkeeps
    exact hkeeps

end

end FileTree

namespace Disk

/-- All places on a disk are made of names. -/
def WellNamed (d : Disk) : Prop := ∀ entry ∈ d.nodes, ∀ name ∈ entry.1, IsName name

variable {d : Disk}

theorem isName_of_mem_children (hd : d.WellNamed) {loc : Location} {entry : Bytes × DiskNode}
    (h : entry ∈ d.children loc) : IsName entry.1 := by
  rw [children, List.mem_mergeSort, List.mem_filterMap] at h
  obtain ⟨⟨l, n⟩, hmem, hentry⟩ := h
  cases hlast : l.getLast? with
  | none => simp [hlast] at hentry
  | some name =>
      simp only [hlast, Option.ite_none_right_eq_some, Option.some.injEq] at hentry
      rw [← hentry.2]
      exact hd (l, n) hmem name (List.mem_of_getLast? hlast)

@[simp] theorem name_info (name : Bytes) (n : DiskNode) : (info name n).name = name := by
  cases n <;> rfl

theorem treeFrom_eq_node (d : Disk) (fuel : Nat) (loc : Location) (name : Bytes) (n : DiskNode) :
    ∃ children, d.treeFrom fuel loc name n = .node (info name n) children := by
  cases fuel with
  | zero => exact ⟨_, rfl⟩
  | succ fuel => cases n <;> exact ⟨_, rfl⟩

theorem named_treeFrom (hd : d.WellNamed) (fuel : Nat) (loc : Location) (name : Bytes)
    (n : DiskNode) : (d.treeFrom fuel loc name n).Named := by
  induction fuel generalizing loc name n with
  | zero => exact .node _ (by simp) (by simp)
  | succ fuel ih =>
      cases n with
      | file content perm => exact .node _ (by simp) (by simp)
      | link target => exact .node _ (by simp) (by simp)
      | dir =>
          refine .node _ ?_ ?_
          · intro t ht
            obtain ⟨⟨c, m⟩, hmem, rfl⟩ := List.mem_map.mp ht
            obtain ⟨more, hnode⟩ := d.treeFrom_eq_node fuel (loc ++ [c]) c m
            exact ⟨info c m, more, hnode, by simpa using isName_of_mem_children hd hmem⟩
          · intro t ht
            obtain ⟨⟨c, m⟩, hmem, rfl⟩ := List.mem_map.mp ht
            exact ih (loc ++ [c]) c m

theorem exists_info_of_stat {path : Bytes} {i : Info} (h : d.stat path = .ok i) :
    ∃ n, i = info (base path) n := by
  rw [stat] at h
  split at h
  · cases h
    exact ⟨_, rfl⟩
  · cases h

theorem exists_tree_of_openDir {path : Bytes} {dir : Directory} (h : d.openDir path = .ok dir) :
    ∃ top, dir = .tree top (d.tree top) := by
  rw [openDir] at h
  split at h
  · cases h
  · split at h
    · cases h
    · cases h
      exact ⟨_, rfl⟩

theorem named_tree (hd : d.WellNamed) (path : Bytes) : (d.tree path).Named := by
  rw [tree]
  split
  · exact named_treeFrom hd _ _ _ _
  · exact .unknown _

end Disk

/-! ## Scanning -/

namespace Scan

variable {d : Disk}

theorem isName_base {p : Bytes} (h : isSourceName (base p) = true) : IsName (base p) := by
  -- none of the odd names ends like a source file
  have hodd : ∀ name, isSourceName name = false → base p ≠ name := by
    rintro name hname rfl
    cases h.symm.trans hname
  exact ⟨⟨hodd [] rfl, hodd [Ascii.dot] rfl, slash_notMem_base (hodd [Ascii.slash] rfl)⟩,
    hodd dotDot rfl⟩

theorem descends_collector (exclude : List Bytes) (root : Bytes) (v : Visit)
    (found : List SourceFile) (hrel : Descends v.rel) (hfound : ∀ f ∈ found, Descends f.rel) :
    ∀ f ∈ (collector exclude root (.ok v) found).2, Descends f.rel := by
  simp only [collector]
  split
  · split
    · exact hfound
    · exact hfound
  · split
    · exact hfound
    · intro f hf
      rcases List.mem_append.mp hf with hf | hf
      · exact hfound f hf
      · rw [List.mem_singleton.mp hf]
        exact hrel

theorem descends_scanOne (hd : d.WellNamed) {exclude : List Bytes} {arg : Bytes}
    {found : List SourceFile} (h : (scanOne d.reader exclude arg).run = .ok found) :
    ∀ f ∈ found, Descends f.rel := by
  simp only [scanOne, Id.run, bind, pure, Disk.reader] at h
  split at h
  · cases h
  · rename_i i hstat
    split at h
    · split at h
      · rename_i hsource
        cases h
        obtain ⟨n, rfl⟩ := Disk.exists_info_of_stat hstat
        rw [Disk.name_info] at hsource
        intro f hf
        rw [List.mem_singleton.mp hf]
        simpa using (isName_base hsource).descends
      · cases h
    · split at h
      · cases h
      · rename_i dir hdir
        obtain ⟨path, rfl⟩ := Disk.exists_tree_of_openDir hdir
        split at h
        · cases h
        · rename_i found' hwalk
          cases h
          have hvisit : ∀ v found, Descends v.rel → (∀ f ∈ found, Descends f.rel) →
              ∀ f ∈ (collector exclude (rootOf arg) (.ok v) found).2, Descends f.rel :=
            fun v found => descends_collector exclude (rootOf arg) v found
          have hkeeps := FileTree.walk_keeps
            (P := fun found : List SourceFile => ∀ f ∈ found, Descends f.rel)
            hvisit (fun _ _ hs => hs) path (Disk.named_tree hd path) [] (by simp)
          rw [← Directory.walk, hwalk] at hkeeps
          exact hkeeps

theorem descends_scanAll (hd : d.WellNamed) {exclude args : List Bytes} {found : List SourceFile}
    (h : (scanAll d.reader exclude args).run = .ok found) : ∀ f ∈ found, Descends f.rel := by
  induction args generalizing found with
  | nil =>
      cases h
      simp
  | cons arg rest ih =>
      simp only [scanAll, Id.run, bind, pure] at h
      split at h
      · cases h
      · rename_i first hfirst
        split at h
        · cases h
        · rename_i more hmore
          cases h
          intro f hf
          rcases List.mem_append.mp hf with hf | hf
          · exact descends_scanOne hd hfirst f hf
          · exact ih hmore f hf

theorem dropRepeated_sublist (seen : List Bytes) (found : List SourceFile) :
    (dropRepeated seen found).Sublist found := by
  induction found generalizing seen with
  | nil => exact .refl _
  | cons f rest ih =>
      rw [dropRepeated]
      split
      · exact .cons f (ih seen)
      · exact .cons_cons f (ih _)

/-- Files that are in the order of their paths stay so. -/
theorem scan_of_pairwise {exclude args : List Bytes} {all : List SourceFile}
    (h : (scanAll d.reader exclude args).run = .ok all)
    (hsorted : (dropRepeated [] all).Pairwise fun f g => inOrder f g = true) :
    (scan d.reader exclude args).run = .ok (dropRepeated [] all) := by
  change scanAll d.reader exclude args = .ok all at h
  simp only [scan, Id.run, bind, pure, h, List.mergeSort_of_pairwise hsorted]

/-- Every file that is found has a relative path that leads down from the root. -/
theorem descends_scan (hd : d.WellNamed) {exclude args : List Bytes} {found : List SourceFile}
    (h : (scan d.reader exclude args).run = .ok found) : ∀ f ∈ found, Descends f.rel := by
  simp only [scan, Id.run, bind, pure] at h
  split at h
  · cases h
  · rename_i all hall
    cases h
    intro f hf
    rw [List.mem_mergeSort] at hf
    exact descends_scanAll hd hall f ((dropRepeated_sublist [] all).subset hf)

end Scan

end RetryWeave.Files
