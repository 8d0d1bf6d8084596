import RetryWeave.Proofs.Files.Layouts

/-! # Walks in memory and on a disk

A walk in memory and a walk of a disk reach the same entries of a tree, but in two orders: the one
sorts the texts of the paths, the other one the names in each directory. The orders differ where a
name goes on with a byte before the slash. -/

namespace RetryWeave.Files

open RetryWeave.Path

variable {skip : Bytes → Bool} {l : Location}

/-! ## Both orders -/

/-- Two places that a walk reaches stand in different orders by their texts and by their names. -/
def Layout.Crosses (t : Layout) (skip : Bytes → Bool) : Prop :=
  ∃ x ∈ t.places, ∃ y ∈ t.places, Exposed skip [] x.1 ∧ Exposed skip [] y.1 ∧ Crossing x.1 y.1

theorem nodup_of_pairwise {α : Type} {R : α → α → Prop} {l : List α} (h : l.Pairwise R)
    (hirrefl : ∀ x, ¬ R x x) : l.Nodup := by
  refine h.imp ?_
  rintro x _ hxx rfl
  exact hirrefl x hxx

/-- Two orders in which a list stands agree on its elements. -/
theorem rel_of_pairwise {α : Type} {R S : α → α → Prop} (hasymm : ∀ x y, R x y → ¬ R y x)
    {l : List α} (hR : l.Pairwise R) (hS : l.Pairwise S) {x y : α} (hx : x ∈ l) (hy : y ∈ l)
    (h : R x y) : S x y := by
  induction l with
  | nil => cases hx
  | cons z l ih =>
      rw [List.pairwise_cons] at hR hS
      rcases List.mem_cons.mp hx with hxz | hx
      · rcases List.mem_cons.mp hy with hyz | hy
        · rw [hxz, hyz] at h
          exact absurd h (hasymm _ _ h)
        · rw [hxz]
          exact hS.1 y hy
      · rcases List.mem_cons.mp hy with hyz | hy
        · rw [hyz] at h
          exact absurd h (hasymm _ _ (hR.1 x hx))
        · exact ih hR.2 hS.2 hx hy

section

variable {top : Bytes} {listed reached : List (Location × Bool)}

/-- Two lists of the same places, one in the order of the texts and one in that of the places. -/
theorem eq_iff_not_crossing (hnames : ∀ x ∈ reached, ∀ name ∈ x.1, IsName name)
    (hlisted : listed.Pairwise fun x y => place top x.1 < place top y.1)
    (hreached : reached.Pairwise fun x y => x.1 < y.1) (hperm : listed.Perm reached) :
    listed = reached ↔ ∀ x ∈ reached, ∀ y ∈ reached, ¬ Crossing x.1 y.1 := by
  constructor
  · rintro rfl x hx y hy hcrossing
    have hlt := rel_of_pairwise (fun _ _ => List.lt_asymm) hreached hlisted hx hy hcrossing.lt
    exact List.lt_asymm hlt (place_lt_of_crossing hcrossing)
  · intro hnone
    have hplaces : reached.Pairwise fun x y => place top x.1 < place top y.1 :=
      hreached.imp_of_mem fun hx hy hlt =>
        place_lt_place (fun name hname => (hnames _ hy name hname).toIsElement) hlt (hnone _ hx _ hy)
    exact List.Perm.eq_of_pairwise (fun x y _ _ hlt hgt => absurd hgt (List.lt_asymm hlt)) hlisted
      hplaces hperm

theorem map_call_inj (hlisted : ∀ x ∈ listed, ∀ name ∈ x.1, IsName name)
    (hreached : ∀ x ∈ reached, ∀ name ∈ x.1, IsName name) :
    listed.map call = reached.map call ↔ listed = reached := by
  -- the elements of a relative path are the place
  have hback : ∀ l : List (Location × Bool), (∀ x ∈ l, ∀ name ∈ x.1, IsName name) →
      (l.map call).map (fun c => (elements c.1, c.2)) = l := by
    intro l hl
    rw [List.map_map]
    refine (List.map_congr_left fun x hx => ?_).trans (List.map_id l)
    rw [Function.comp_apply, call,
      elements_ofElements fun name hname => (hl x hx name hname).toIsElement]
    rfl
  refine ⟨fun heq => ?_, fun heq => heq ▸ rfl⟩
  rw [← hback listed hlisted, heq, hback reached hreached]

end

/-- If the directory that is walked is the topmost one and is to be skipped, there is nothing below
it. -/
def Layout.TopHeeded (t : Layout) (skip : Bytes → Bool) (top : Bytes) : Prop :=
  top = [Ascii.slash] → skip [Ascii.dot] = true → ∀ x ∈ t.places, x.1 = []

theorem exposed_heeded_iff {top : Bytes}
    (h : top = [Ascii.slash] → skip [Ascii.dot] = true → l = []) :
    Exposed (Memory.heeded skip top) [] l ↔ Exposed skip [] l := by
  refine forall_congr' fun between => forall₂_congr fun _ hto => forall_congr' fun hne => ?_
  rw [Memory.heeded]
  by_cases htop : top = [Ascii.slash] ∧ ofElements false between = [Ascii.dot]
  · have hskip : skip (ofElements false between) = false := by
      rw [htop.2]
      cases hskip : skip [Ascii.dot] with
      | false => rfl
      | true =>
          have hnil := h htop.1 hskip
          rw [hnil, List.prefix_nil] at hto
          exact absurd (hto.trans hnil.symm) hne
    simp [hskip]
  · simp [htop]

section

variable {t : Layout} {top : Bytes} {listed reached : List (Location × Bool)}
  (hlisted : listed.Pairwise fun x y => place top x.1 < place top y.1)
  (hreached : reached.Pairwise fun x y => x.1 < y.1)
  (hmem : ∀ x, x ∈ listed ↔ x ∈ t.places ∧ Exposed (Memory.heeded skip top) [] x.1)
  (hmem' : ∀ x, x ∈ reached ↔ x ∈ t.places ∧ Exposed skip [] x.1)

include hmem hmem'

theorem topHeeded_of_eq (h : listed = reached) : t.TopHeeded skip top := by
  rintro htop hskip ⟨l, kind⟩ hx
  -- the first name on the way to a place would be listed
  cases l with
  | nil => rfl
  | cons name more =>
      obtain ⟨kind', hname⟩ := t.exists_mem_of_append (l := [name]) hx
      have hexposed : Exposed (Memory.heeded skip top) [] ([] ++ [name]) := by
        refine exposed_append_cons.mpr ⟨?_, exposed_self _ _⟩
        simp [Memory.heeded, htop, ofElements]
      have hreach := ((hmem' _).mp (h ▸ (hmem _).mpr ⟨hname, hexposed⟩)).2
      have hnot := (exposed_append_cons (l := []).mp hreach).1
      cases hskip.symm.trans hnot

include hlisted hreached

theorem perm_of_topHeeded (h : t.TopHeeded skip top) : listed.Perm reached := by
  have hnodup := nodup_of_pairwise hlisted fun _ => List.lt_irrefl _
  have hnodup' := nodup_of_pairwise hreached fun _ => List.lt_irrefl _
  refine (List.perm_ext_iff_of_nodup hnodup hnodup').mpr fun x => ?_
  rw [hmem, hmem']
  exact and_congr_right fun hx => exposed_heeded_iff fun htop hskip => h htop hskip x hx

theorem eq_iff_not_crosses : listed = reached ↔ ¬ t.Crosses skip ∧ t.TopHeeded skip top := by
  have hnames : ∀ x ∈ reached, ∀ name ∈ x.1, IsName name :=
    fun x hx => t.isName x ((hmem' x).mp hx).1
  have hcross : (∀ x ∈ reached, ∀ y ∈ reached, ¬ Crossing x.1 y.1) ↔ ¬ t.Crosses skip := by
    constructor
    · rintro hnone ⟨x, hx, y, hy, hexposed, hexposed', hcrossing⟩
      exact hnone x ((hmem' x).mpr ⟨hx, hexposed⟩) y ((hmem' y).mpr ⟨hy, hexposed'⟩) hcrossing
    · intro hnone x hx y hy hcrossing
      obtain ⟨hx, hexposed⟩ := (hmem' x).mp hx
      obtain ⟨hy, hexposed'⟩ := (hmem' y).mp hy
      exact hnone ⟨x, hx, y, hy, hexposed, hexposed', hcrossing⟩
  have hiff := fun h => eq_iff_not_crossing hnames hlisted hreached
    (perm_of_topHeeded hlisted hreached hmem hmem' h)
  constructor
  · intro heq
    have htop := topHeeded_of_eq hmem hmem' heq
    exact ⟨hcross.mp ((hiff htop).mp heq), htop⟩
  · rintro ⟨hnone, htop⟩
    exact (hiff htop).mpr (hcross.mpr hnone)

end

namespace Memory

section

variable {m : Memory} {top path : Bytes} {d : Disk} {loc : Location} {t : Layout}
  (hsound : m.Sound) (hclean : IsClean top) (habs : isAbs top = true) (hm : m.Holds top t)
  (hloc : d.locate false path = .ok (loc, .dir)) (hd : d.Holds loc t)

include hsound hclean habs hm hloc hd

theorem calls_perm (htop : t.TopHeeded skip top) :
    ((Directory.listing top (m.listing top)).calls skip).Perm
      ((Directory.tree path (d.tree path)).calls skip) := by
  rw [Directory.calls, Directory.calls, hm.walk_listing hsound hclean habs, hd.walk_tree hloc]
  exact (perm_of_topHeeded (hm.pairwise_shown hsound hclean habs)
    (Disk.pairwise_shown hd.nodup _ _ _) (fun _ => hm.mem_shown_iff hsound hclean habs) (fun _ => hd.mem_shown_top_iff) htop).map call

theorem calls_eq_iff : (Directory.listing top (m.listing top)).calls skip =
    (Directory.tree path (d.tree path)).calls skip ↔ ¬ t.Crosses skip ∧ t.TopHeeded skip top := by
  have hmem : ∀ x, x ∈ m.shown skip top ↔ x ∈ t.places ∧ Exposed (heeded skip top) [] x.1 :=
    fun _ => hm.mem_shown_iff hsound hclean habs
  have hmem' : ∀ x, x ∈ d.shown skip loc (d.depth + 1) [] .dir ↔
      x ∈ t.places ∧ Exposed skip [] x.1 := fun _ => hd.mem_shown_top_iff
  rw [Directory.calls, Directory.calls, hm.walk_listing hsound hclean habs, hd.walk_tree hloc,
    map_call_inj (fun x hx => t.isName x ((hmem x).mp hx).1)
      fun x hx => t.isName x ((hmem' x).mp hx).1]
  exact eq_iff_not_crosses (hm.pairwise_shown hsound hclean habs)
    (Disk.pairwise_shown hd.nodup _ _ _) hmem hmem'

end

/-- The walks of a tree in memory and on a disk reach the same entries, unless the topmost directory is
to be skipped, and they reach them in the same order if and only if none of the entries cross. -/
theorem walks_agree_iff {root path path' : Bytes} {ops : List Operation} {d : Disk} {loc : Location}
    {t : Layout} {dm dd : Directory} (skip : Bytes → Bool)
    (hdm : ((ofRoot root).run ops).openDir path = .ok dm) (habs : isAbs dm.path = true)
    (hm : ((ofRoot root).run ops).Holds dm.path t) (hdd : d.openDir path' = .ok dd)
    (hloc : d.locate false dd.path = .ok (loc, .dir)) (hd : d.Holds loc t) :
    (dm.walk (chooser skip) []).1 = none ∧ (dd.walk (chooser skip) []).1 = none ∧
    (t.TopHeeded skip dm.path → (dm.calls skip).Perm (dd.calls skip)) ∧
    (dm.calls skip = dd.calls skip ↔ ¬ t.Crosses skip ∧ t.TopHeeded skip dm.path) := by
  have hsound : ((ofRoot root).run ops).Sound := (sound_ofRoot root).run ops
  obtain ⟨-, rfl⟩ := openDir_eq_ok hdm
  obtain ⟨top, rfl⟩ := Disk.exists_tree_of_openDir hdd
  have hclean := isClean_resolve hsound.root_clean path
  refine ⟨?_, ?_, calls_perm hsound hclean habs hm hloc hd,
    calls_eq_iff hsound hclean habs hm hloc hd⟩
  · rw [hm.walk_listing hsound hclean habs]
  · have hloc : d.locate false top = .ok (loc, .dir) := hloc
    rw [hd.walk_tree hloc]

/-! ## A name that goes on -/

/-- The same entries as in `besideDirectory`, on a disk. -/
def besideDisk : Disk :=
  ⟨[], [(["r"], .dir), (["r", "a"], .dir), (["r", "a", "x"], .file "1" 0o644),
    (["r", "a.b"], .file "2" 0o644)]⟩

/-- A directory with a file in it, and a file whose name goes on from that of the directory. -/
def beside : Layout where
  places := [([], true), (["a"], true), (["a", "x"], false), (["a.b"], false)]
  nodup := by decide
  isName := by decide
  top := by decide
  parent := by decide

theorem holds_beside : ((ofRoot "/r").run besideDirectory).Holds "/r" beside := by
  have hall : ∀ b ∈ ((ofRoot "/r").run besideDirectory).records,
      ∃ x ∈ beside.places, b.1 = place "/r" x.1 := by decide
  exact ⟨by decide, fun b hb _ => hall b hb⟩

theorem besideDisk_holds : besideDisk.Holds ["r"] beside := ⟨by decide, by decide, by decide⟩

theorem walks_agree_iff_beside :
    ∃ dm dd, ((ofRoot "/r").run besideDirectory).openDir "." = .ok dm ∧
      besideDisk.openDir "/r" = .ok dd ∧
      dm.calls (fun rel => rel = Bytes.ofString "a") =
        dd.calls (fun rel => rel = Bytes.ofString "a") := by
  have hdm : ((ofRoot "/r").run besideDirectory).openDir "." =
      .ok (.listing "/r" (((ofRoot "/r").run besideDirectory).listing "/r")) := rfl
  have hdd : besideDisk.openDir "/r" = .ok (.tree "/r" (besideDisk.tree "/r")) := rfl
  have hloc : besideDisk.locate false "/r" = .ok (["r"], .dir) := rfl
  obtain ⟨-, -, -, hiff⟩ := walks_agree_iff (fun rel => rel = Bytes.ofString "a") hdm rfl holds_beside
    hdd hloc besideDisk_holds
  refine ⟨_, _, hdm, hdd, hiff.mpr ⟨?_, fun htop => absurd htop (by decide)⟩⟩
  -- the only entry in a directory is hidden
  rintro ⟨x, hx, -, -, hexposed, -, common, name, b, rest, inner, more, more', hxl, -, -⟩
  have hlength : 2 ≤ x.1.length := by
    rw [hxl]
    simp only [List.length_append, List.length_cons]
    omega
  have hinner : ∀ x ∈ beside.places, 2 ≤ x.1.length → x.1 = ["a", "x"] := by decide
  rw [hinner x hx hlength] at hexposed
  exact absurd (hexposed ["a"] List.nil_prefix (by decide) (by decide)) (by decide)

/-- The file beside the directory comes before what is in the directory in one walk, and after it in the
other one. -/
theorem walks_cross :
    ∃ dm dd, ((ofRoot "/r").run besideDirectory).openDir "." = .ok dm ∧
      besideDisk.openDir "/r" = .ok dd ∧
      dm.calls (fun _ => false) ≠ dd.calls (fun _ => false) := by
  refine ⟨.listing "/r" (((ofRoot "/r").run besideDirectory).listing "/r"),
    .tree "/r" (besideDisk.tree "/r"), rfl, rfl, fun heq => ?_⟩
  have hsound := (sound_ofRoot "/r").run besideDirectory
  have hloc : besideDisk.locate false "/r" = .ok (["r"], .dir) := rfl
  refine ((calls_eq_iff hsound (by decide) rfl holds_beside hloc besideDisk_holds).mp heq).1 ?_
  refine ⟨(["a", "x"], false), by decide, (["a.b"], false), by decide, fun _ _ _ _ => rfl,
    fun _ _ _ _ => rfl, ?_⟩
  exact ⟨[], "a", Ascii.dot, "b", "x", [], [], rfl, rfl, by decide⟩

end Memory

end RetryWeave.Files
