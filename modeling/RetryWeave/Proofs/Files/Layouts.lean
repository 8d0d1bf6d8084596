import Mathlib.Data.List.Pairwise
import RetryWeave.Proofs.Files.PathOrder
import RetryWeave.Proofs.Files.Skipping

/-! # One tree in memory and on a disk

A tree of files and directories that is stored below a directory in memory or on a disk. A walk that
skips directories reaches the places of the tree that are not below a skipped directory: in memory in
the order of the texts of their paths, on a disk in the order of the places. -/

namespace RetryWeave.Files

open RetryWeave.Path

variable {skip : Bytes → Bool} {l : Location} {x : Location × Bool}

/-! ## Trees -/

/-- A finite tree of files and directories: its places, with whether there are directories. -/
structure Layout where
  places : List (Location × Bool)
  nodup : (places.map (·.1)).Nodup
  isName : ∀ x ∈ places, ∀ name ∈ x.1, IsName name
  top : ([], true) ∈ places
  parent : ∀ x ∈ places, x.1 ≠ [] → (x.1.dropLast, true) ∈ places

/-- No directory on the way from one place down to another one is skipped. -/
def Exposed (skip : Bytes → Bool) (l l' : Location) : Prop :=
  ∀ between, l <+: between → between <+: l' → between ≠ l' → skip (ofElements false between) = false

theorem exposed_self (skip : Bytes → Bool) (l : Location) : Exposed skip l l :=
  fun _ h h' hne => absurd (h'.eq_of_length_le h.length_le) hne

theorem exposed_append_cons {name : Bytes} {more : Location} : Exposed skip l (l ++ name :: more) ↔
    skip (ofElements false l) = false ∧ Exposed skip (l ++ [name]) (l ++ name :: more) := by
  have hnext : l ++ [name] <+: l ++ name :: more := ⟨more, by simp⟩
  constructor
  · refine fun h => ⟨h l (List.prefix_refl l) (List.prefix_append _ _) (by simp), ?_⟩
    exact fun between hl => h between ((List.prefix_append _ _).trans hl)
  · rintro ⟨hskip, h⟩ between hl hto hne
    by_cases heq : between = l
    · rw [heq]
      exact hskip
    · refine h between (List.prefix_of_prefix_length_le hnext hto ?_) hto hne
      have hlength := hl.length_le
      have hlonger : l.length ≠ between.length := fun h => heq (hl.eq_of_length h).symm
      rw [List.length_append, List.length_singleton]
      omega

namespace Layout

variable {t : Layout}

theorem kind_unique {kind kind' : Bool} (h : (l, kind) ∈ t.places) (h' : (l, kind') ∈ t.places) :
    kind = kind' := by
  rw [← Disk.lookup_eq_some_iff_mem t.nodup] at h h'
  exact Option.some_inj.mp (h.symm.trans h')

/-- On the way to a place there are only directories. -/
theorem mem_of_append {more : Location} {kind : Bool} (h : (l ++ more, kind) ∈ t.places)
    (hmore : more ≠ []) : (l, true) ∈ t.places := by
  induction more using List.reverseRecOn generalizing kind with
  | nil => exact absurd rfl hmore
  | append_singleton before last ih =>
      have hparent := t.parent _ h (by simp)
      rw [← List.append_assoc, List.dropLast_concat] at hparent
      by_cases hbefore : before = []
      · rw [hbefore, List.append_nil] at hparent
        exact hparent
      · exact ih hparent hbefore

theorem exists_mem_of_append {more : Location} {kind : Bool} (h : (l ++ more, kind) ∈ t.places) :
    ∃ kind', (l, kind') ∈ t.places := by
  by_cases hmore : more = []
  · rw [hmore, List.append_nil] at h
    exact ⟨kind, h⟩
  · exact ⟨true, t.mem_of_append h hmore⟩

end Layout

/-! ## On a disk -/

/-- Whether something is a directory; nothing for a link. -/
def DiskNode.isDir? : DiskNode → Option Bool
  | file _ _ => some false
  | dir => some true
  | link _ => none

namespace Disk

variable {d : Disk} {loc : Location} {n : DiskNode} {t : Layout} {fuel : Nat}

/-- From a place on there is just a tree. -/
structure Holds (d : Disk) (loc : Location) (t : Layout) : Prop where
  nodup : (d.nodes.map (·.1)).Nodup
  kinds : ∀ x ∈ t.places, (d.node? (loc ++ x.1)).bind (·.isDir?) = some x.2
  complete : ∀ b ∈ d.nodes, loc <+: b.1 → ∃ x ∈ t.places, b.1 = loc ++ x.1

theorem mem_children_iff {b : Bytes × DiskNode} :
    b ∈ d.children loc ↔ (loc ++ [b.1], b.2) ∈ d.nodes := by
  simp only [children, List.mem_mergeSort, List.mem_filterMap]
  constructor
  · rintro ⟨⟨l, m⟩, hmem, hentry⟩
    rcases List.eq_nil_or_concat l with rfl | ⟨before, last, rfl⟩
    · simp at hentry
    · rw [List.concat_eq_append] at hmem hentry
      simp only [List.getLast?_concat, List.dropLast_concat, Option.ite_none_right_eq_some,
        Option.some.injEq] at hentry
      obtain ⟨rfl, rfl⟩ := hentry
      exact hmem
  · exact fun hmem => ⟨_, hmem, by simp⟩

/-- The entries of a directory stand in the order of their names. -/
theorem pairwise_children (h : (d.nodes.map (·.1)).Nodup) (loc : Location) :
    (d.children loc).Pairwise fun b b' => b.1 < b'.1 := by
  refine Bytes.pairwise_lt_mergeSort Prod.fst ?_
  rw [List.Nodup, List.pairwise_map, List.pairwise_filterMap]
  refine (List.pairwise_map.mp h).imp ?_
  rintro ⟨l, n⟩ ⟨l', n'⟩ hne b hb b' hb' heq
  -- the entries have the same directory, so two of one name stand at the same place
  rcases List.eq_nil_or_concat l with rfl | ⟨before, last, rfl⟩
  · simp at hb
  rcases List.eq_nil_or_concat l' with rfl | ⟨before', last', rfl⟩
  · simp at hb'
  simp only [List.concat_eq_append, List.getLast?_concat, List.dropLast_concat,
    Option.ite_none_right_eq_some, Option.some.injEq] at hb hb' hne
  obtain ⟨hbefore, rfl⟩ := hb
  obtain ⟨hbefore', rfl⟩ := hb'
  rw [hbefore, hbefore'] at hne
  exact hne (congrArg (loc ++ [·]) heq)

theorem length_le_depth {b : Location × DiskNode} (h : b ∈ d.nodes) : b.1.length ≤ d.depth := by
  have hfold : ∀ (ns : List Nat) (a : Nat), a ≤ ns.foldl max a ∧ ∀ n ∈ ns, n ≤ ns.foldl max a := by
    intro ns
    induction ns with
    | nil => simp
    | cons n ns ih =>
        intro a
        obtain ⟨hacc, hmem⟩ := ih (max a n)
        rw [List.foldl_cons, List.forall_mem_cons]
        exact ⟨by omega, by omega, hmem⟩
  exact (hfold _ 0).2 _ (List.mem_map_of_mem (f := (·.1.length)) h)

theorem prefix_of_mem_shown (h : x ∈ d.shown skip loc fuel l n) : l <+: x.1 := by
  fun_induction shown d skip loc fuel l n with
  | case1 fuel l ih =>
      rcases List.mem_cons.mp h with rfl | h
      · exact List.prefix_refl l
      · split at h
        · cases h
        · obtain ⟨b, -, hb⟩ := List.mem_flatMap.mp h
          exact (List.prefix_append l [b.1]).trans (ih b hb)
  | case2 fuel l n hbare =>
      rw [List.mem_singleton.mp h]

/-- A walk of a disk reaches the places in their order. -/
theorem pairwise_shown (h : (d.nodes.map (·.1)).Nodup) (fuel : Nat) (l : Location) (n : DiskNode) :
    (d.shown skip loc fuel l n).Pairwise fun x y => x.1 < y.1 := by
  fun_induction shown d skip loc fuel l n with
  | case1 fuel l ih =>
      split
      · exact List.pairwise_singleton _ _
      · rw [List.pairwise_cons, List.pairwise_flatMap]
        refine ⟨fun x hx => ?_, fun b _ => ih b, (pairwise_children h _).imp ?_⟩
        · obtain ⟨b, -, hb⟩ := List.mem_flatMap.mp hx
          obtain ⟨more, hmore⟩ := prefix_of_mem_shown hb
          rw [← hmore, List.append_assoc, List.singleton_append]
          exact Bytes.lt_append_cons l b.1 more
        · intro b b' hlt x hx y hy
          obtain ⟨more, hmore⟩ := prefix_of_mem_shown hx
          obtain ⟨more', hmore'⟩ := prefix_of_mem_shown hy
          rw [← hmore, ← hmore', List.append_assoc, List.append_assoc]
          exact List.append_left_lt (List.cons_lt_cons_iff.mpr (.inl hlt))
  | case2 fuel l n hbare => exact List.pairwise_singleton _ _

namespace Holds

/-- What a tree has at a place below a directory, the disk has there. -/
theorem mem_nodes (h : d.Holds loc t) (hx : x ∈ t.places) (hne : x.1 ≠ []) :
    ∃ n, (loc ++ x.1, n) ∈ d.nodes ∧ x.2 = decide (n = .dir) := by
  obtain ⟨l, kind⟩ := x
  obtain ⟨n, hnode, hkind⟩ := Option.bind_eq_some_iff.mp (h.kinds _ hx)
  refine ⟨n, mem_nodes_of_node? (List.append_ne_nil_of_right_ne_nil _ hne) hnode, ?_⟩
  cases n <;> cases hkind <;> rfl

theorem mem_places (h : d.Holds loc t) (hl : l ≠ []) (hn : (loc ++ l, n) ∈ d.nodes) :
    (l, decide (n = .dir)) ∈ t.places := by
  obtain ⟨⟨l', kind⟩, hx, heq⟩ := h.complete _ hn (List.prefix_append _ _)
  obtain rfl : l = l' := List.append_cancel_left heq
  obtain ⟨n', hn', rfl⟩ := h.mem_nodes hx hl
  rw [← lookup_eq_some_iff_mem h.nodup] at hn hn'
  rw [Option.some_inj.mp (hn.symm.trans hn')]
  exact hx

/-- There is nothing below a place that is no directory, or that is too deep. -/
theorem eq_nil_of_bare {more : Location} {kind : Bool} (h : d.Holds loc t)
    (hmem : (l, decide (n = .dir)) ∈ t.places) (hfuel : d.depth < fuel + (loc ++ l).length)
    (hbare : fuel ≠ 0 → n ≠ .dir) (hx : (l ++ more, kind) ∈ t.places) : more = [] := by
  by_contra hmore
  have hdir := t.kind_unique hmem (t.mem_of_append hx hmore)
  have hzero : fuel = 0 := by_contra fun hne => hbare hne (of_decide_eq_true hdir)
  obtain ⟨m, hm, -⟩ := h.mem_nodes hx (by simp [hmore])
  have hdepth := length_le_depth hm
  simp only [List.length_append] at hdepth hfuel
  omega

theorem mem_shown_iff (h : d.Holds loc t) (hmem : (l, decide (n = .dir)) ∈ t.places)
    (hfuel : d.depth < fuel + (loc ++ l).length) :
    x ∈ d.shown skip loc fuel l n ↔ x ∈ t.places ∧ l <+: x.1 ∧ Exposed skip l x.1 := by
  obtain ⟨lx, kind⟩ := x
  fun_induction shown d skip loc fuel l n with
  | case1 fuel l ih =>
      have hbelow : ∀ name : Bytes, d.depth < fuel + (loc ++ (l ++ [name])).length := by
        intro name
        simp only [List.length_append, List.length_singleton] at hfuel ⊢
        omega
      rw [List.mem_cons]
      constructor
      · rintro (heq | hx)
        · cases heq
          exact ⟨hmem, List.prefix_refl _, exposed_self skip _⟩
        · split at hx
          · cases hx
          · rename_i hskip
            obtain ⟨b, hb, hx⟩ := List.mem_flatMap.mp hx
            rw [mem_children_iff, List.append_assoc] at hb
            obtain ⟨hplace, ⟨more, rfl⟩, hexposed⟩ :=
              (ih b (h.mem_places (by simp) hb) (hbelow b.1)).mp hx
            rw [List.append_assoc, List.singleton_append] at hplace hexposed ⊢
            refine ⟨hplace, List.prefix_append _ _, exposed_append_cons.mpr ⟨?_, hexposed⟩⟩
            exact Bool.not_eq_true _ |>.mp hskip
      · rintro ⟨hplace, ⟨more, rfl⟩, hexposed⟩
        cases more with
        | nil =>
            rw [List.append_nil] at hplace ⊢
            exact .inl (by rw [t.kind_unique hplace hmem]; rfl)
        | cons name more =>
            rw [exposed_append_cons] at hexposed
            have happend : l ++ name :: more = (l ++ [name]) ++ more := by simp
            obtain ⟨kind', hplace'⟩ := t.exists_mem_of_append (happend ▸ hplace)
            obtain ⟨m, hm, rfl⟩ := h.mem_nodes hplace' (by simp)
            refine .inr ?_
            rw [hexposed.1, if_neg Bool.false_ne_true, List.mem_flatMap]
            refine ⟨(name, m), mem_children_iff.mpr (by rwa [List.append_assoc]), ?_⟩
            exact (ih (name, m) hplace' (hbelow name)).mpr ⟨hplace, ⟨more, happend.symm⟩, hexposed.2⟩
  | case2 fuel l n hbare =>
      rw [List.mem_singleton]
      constructor
      · intro heq
        cases heq
        exact ⟨hmem, List.prefix_refl _, exposed_self skip _⟩
      · rintro ⟨hplace, ⟨more, rfl⟩, -⟩
        have hnodir : fuel ≠ 0 → n ≠ .dir := fun hne =>
          hbare (fuel - 1) (Nat.succ_pred_eq_of_ne_zero hne).symm
        obtain rfl : more = [] := h.eq_nil_of_bare hmem hfuel hnodir hplace
        rw [List.append_nil] at hplace ⊢
        rw [t.kind_unique hplace hmem]

/-- The places of the tree that the walk of a directory reaches. -/
theorem mem_shown_top_iff (h : d.Holds loc t) :
    x ∈ d.shown skip loc (d.depth + 1) [] .dir ↔ x ∈ t.places ∧ Exposed skip [] x.1 := by
  rw [h.mem_shown_iff t.top (by omega)]
  simp

theorem walk_tree (h : d.Holds loc t) {path : Bytes} (hloc : d.locate false path = .ok (loc, .dir)) :
    (Directory.tree path (d.tree path)).walk (chooser skip) [] =
      (none, (d.shown skip loc (d.depth + 1) [] .dir).map call) := by
  have hnames : ∀ l, ∀ b ∈ d.children (loc ++ l), IsElement b.1 := by
    intro l b hb
    rw [mem_children_iff, List.append_assoc] at hb
    have hplace := h.mem_places (by simp) hb
    exact (t.isName _ hplace b.1 (by simp)).toIsElement
  have hshown : d.WalksShown skip loc (d.depth + 1) [] (base path) .dir :=
    walksShown hnames _ (by simp) _ _
  have hwalk := hshown path []
  rw [List.append_nil] at hwalk
  have hdot : ofElements false [] = [Ascii.dot] := rfl
  rw [Directory.walk, FileTree.walk, tree, hloc, ← hdot]
  simp only [hwalk, List.nil_append, ending]
  split
  · rename_i hfailed
    split at hfailed <;> cases hfailed
  · rename_i hended
    rw [(Prod.mk.inj hended).2]

end Holds

end Disk

/-! ## In memory -/

@[simp] theorem MemoryEntry.isDir_info (p : Bytes) (e : MemoryEntry) :
    (e.info p).isDir = e.isDir := by
  cases e <;> rfl

namespace Memory

variable {m : Memory} {top : Bytes} {t : Layout}

/-- Below a path there is just a tree. -/
structure Holds (m : Memory) (top : Bytes) (t : Layout) : Prop where
  kinds : ∀ x ∈ t.places, (m.entry? (place top x.1)).map (·.isDir) = some x.2
  complete : ∀ b ∈ m.records, Below top b.1 → ∃ x ∈ t.places, b.1 = place top x.1

/-- The place of an entry below the directory that is walked, with whether it is a directory. -/
def placeOf (v : Visit) : Location × Bool := (elements v.rel, v.info.isDir)

/-- The places that the walk of a listing reaches. -/
def shown (m : Memory) (skip : Bytes → Bool) (top : Bytes) : List (Location × Bool) :=
  ((m.listing top).filter fun v => decide (¬ ∃ u ∈ m.listing top, Hides skip u v.path)).map placeOf

/-- The wishes to skip a directory that the walk of a listing heeds: nothing is below the text of the
topmost directory and a slash. -/
def heeded (skip : Bytes → Bool) (top rel : Bytes) : Bool :=
  skip rel && !decide (top = [Ascii.slash] ∧ rel = [Ascii.dot])

theorem placeOf_place (top : Bytes) {l : Location} (hl : ∀ name ∈ l, IsName name) (e : MemoryEntry) :
    placeOf ⟨place top l, ofElements false l, e.info (place top l)⟩ = (l, e.isDir) := by
  rw [placeOf, elements_ofElements fun name hname => (hl name hname).toIsElement,
    MemoryEntry.isDir_info]

/-- What is said of an entry that is listed. -/
structure Listed (top : Bytes) (t : Layout) (v : Visit) : Prop where
  mem_places : placeOf v ∈ t.places
  path_eq : v.path = place top (placeOf v).1
  rel_eq : v.rel = ofElements false (placeOf v).1

section

variable (hm : m.Sound) (hclean : IsClean top) (habs : isAbs top = true)

include hm hclean habs

/-- A listing of an absolute directory tells of all entries that names lead down to. -/
theorem mem_listing_place_iff {v : Visit} : v ∈ m.listing top ↔
    ∃ l e, (∀ name ∈ l, IsName name) ∧ m.entry? (place top l) = some e ∧
      v = ⟨place top l, ofElements false l, e.info (place top l)⟩ := by
  rw [mem_listing_iff hm]
  constructor
  · rintro ⟨p, e, hentry, hunder, rfl⟩
    have hp := hm.isClean_of_entry? hentry
    obtain ⟨hsame, l, hl⟩ := exists_more_of_isUnder hclean hp hunder
    have hnames := hp.isName_of_isAbs (hsame.trans habs)
    rw [hl] at hnames
    have hplace : p = place top l := by
      rw [place, ← hl, ← habs, ← hsame]
      exact hp.eq_ofElements
    refine ⟨l, e, fun name hname => hnames name (List.mem_append_right _ hname), hplace ▸ hentry, ?_⟩
    rw [visit, relative?_eq_some hclean hp hsame hl, Option.getD_some, ← hplace]
    rfl
  · rintro ⟨l, e, hl, hentry, rfl⟩
    have hp := isClean_place hclean habs hl
    have hsame : isAbs (place top l) = isAbs top := (isAbs_place hclean habs hl).trans habs.symm
    have hunder : isUnder top (place top l) = true := by
      rw [isUnder_iff hclean hp]
      by_cases hnil : l = []
      · exact .inl (hnil ▸ place_nil hclean habs)
      · refine .inr ⟨fun hdot => ?_, .inl ((below_iff hclean).mpr ⟨l, hnil, hl, ?_⟩)⟩
        · rw [hdot] at habs
          cases habs
        · rw [habs]
          rfl
    refine ⟨place top l, e, hentry, hunder, ?_⟩
    rw [visit, relative?_eq_some hclean hp hsame (elements_place hclean habs hl), Option.getD_some]
    rfl

theorem Holds.listed (h : m.Holds top t) {v : Visit} (hv : v ∈ m.listing top) : Listed top t v := by
  obtain ⟨l, e, hl, hentry, rfl⟩ := (mem_listing_place_iff hm hclean habs).mp hv
  have hplace : ∃ x ∈ t.places, place top l = place top x.1 := by
    by_cases hnil : l = []
    · exact ⟨_, t.top, by rw [hnil]⟩
    · refine h.complete _ (hm.mem_records_iff.mpr hentry) ((below_iff hclean).mpr ⟨l, hnil, hl, ?_⟩)
      rw [habs]
      rfl
  obtain ⟨x, hx, heq⟩ := hplace
  obtain rfl := (place_inj hclean habs hl (t.isName x hx)).mp heq
  have hkind := h.kinds x hx
  rw [hentry, Option.map_some, Option.some_inj] at hkind
  have hplaceOf := placeOf_place top hl e
  rw [hkind] at hplaceOf
  refine ⟨?_, ?_, ?_⟩
  · rw [hplaceOf]
    exact hx
  · rw [hplaceOf]
  · rw [hplaceOf]

theorem Holds.exists_mem_listing (h : m.Holds top t) (hx : x ∈ t.places) :
    ∃ v ∈ m.listing top, placeOf v = x := by
  obtain ⟨l, kind⟩ := x
  have hl := t.isName _ hx
  obtain ⟨e, hentry, rfl⟩ := Option.map_eq_some_iff.mp (h.kinds _ hx)
  have hmem := (mem_listing_place_iff hm hclean habs).mpr ⟨l, e, hl, hentry, rfl⟩
  exact ⟨_, hmem, placeOf_place top hl e⟩

theorem Holds.hides_iff (h : m.Holds top t) {u v : Visit} (hu : u ∈ m.listing top)
    (hv : v ∈ m.listing top) : Hides skip u v.path ↔
      ((placeOf u).2 = true ∧ heeded skip top (ofElements false (placeOf u).1) = true) ∧
        (placeOf u).1 <+: (placeOf v).1 ∧ (placeOf u).1 ≠ (placeOf v).1 := by
  have hu := h.listed hm hclean habs hu
  have hv := h.listed hm hclean habs hv
  have hlu := t.isName _ hu.mem_places
  have hlv := t.isName _ hv.mem_places
  have hdot := ofElements_eq_dot_iff fun name hname => (hlu name hname).toIsElement
  rw [Hides, hv.path_eq, hu.path_eq, hu.rel_eq,
    startsWith_append_slash_iff (isClean_place hclean habs hlu) (isClean_place hclean habs hlv),
    topmost_place_iff hclean habs hlu, above_place_iff hclean habs hlu hlv, heeded]
  simp only [hdot, Bool.and_eq_true, Bool.not_eq_true', decide_eq_false_iff_not]
  constructor
  · rintro ⟨⟨hdir, hskip⟩, htop, habove⟩
    exact ⟨⟨hdir, hskip, htop⟩, habove⟩
  · rintro ⟨⟨hdir, hskip, htop⟩, habove⟩
    exact ⟨⟨hdir, hskip⟩, htop, habove⟩

/-- An entry of a listing is hidden if a directory above it is skipped. -/
theorem Holds.hidden_iff (h : m.Holds top t) {v : Visit} (hv : v ∈ m.listing top) :
    (¬ ∃ u ∈ m.listing top, Hides skip u v.path) ↔ Exposed (heeded skip top) [] (placeOf v).1 := by
  constructor
  · intro hnone between _ hto hne
    obtain ⟨more, hmore⟩ := hto
    have hplace : (between ++ more, (placeOf v).2) ∈ t.places := by
      rw [hmore]
      exact (h.listed hm hclean habs hv).mem_places
    have hbetween : (between, true) ∈ t.places := by
      refine t.mem_of_append hplace ?_
      rintro rfl
      exact hne (by rw [← hmore, List.append_nil])
    obtain ⟨u, hu, hplaceOf⟩ := h.exists_mem_listing hm hclean habs hbetween
    by_contra hheeded
    refine hnone ⟨u, hu, (h.hides_iff hm hclean habs hu hv).mpr ?_⟩
    rw [hplaceOf]
    exact ⟨⟨rfl, Bool.not_eq_false _ |>.mp hheeded⟩, ⟨more, hmore⟩, hne⟩
  · rintro hexposed ⟨u, hu, hhides⟩
    obtain ⟨⟨-, hheeded⟩, hstart, hne⟩ := (h.hides_iff hm hclean habs hu hv).mp hhides
    rw [hexposed _ List.nil_prefix hstart hne] at hheeded
    cases hheeded

theorem Holds.mem_shown_iff (h : m.Holds top t) :
    x ∈ m.shown skip top ↔ x ∈ t.places ∧ Exposed (heeded skip top) [] x.1 := by
  simp only [shown, List.mem_map, List.mem_filter, decide_eq_true_eq]
  constructor
  · rintro ⟨v, ⟨hv, hnone⟩, rfl⟩
    exact ⟨(h.listed hm hclean habs hv).mem_places, (h.hidden_iff hm hclean habs hv).mp hnone⟩
  · rintro ⟨hx, hexposed⟩
    obtain ⟨v, hv, rfl⟩ := h.exists_mem_listing hm hclean habs hx
    exact ⟨v, ⟨hv, (h.hidden_iff hm hclean habs hv).mpr hexposed⟩, rfl⟩

theorem Holds.pairwise_shown (h : m.Holds top t) :
    (m.shown skip top).Pairwise fun x y => place top x.1 < place top y.1 := by
  rw [shown, List.pairwise_map]
  refine List.Pairwise.imp_of_mem (fun {u v} hu hv hlt => ?_)
    ((pairwise_listing hm top).sublist List.filter_sublist)
  rw [← (h.listed hm hclean habs (List.mem_of_mem_filter hu)).path_eq,
    ← (h.listed hm hclean habs (List.mem_of_mem_filter hv)).path_eq]
  exact hlt

theorem Holds.walk_listing (h : m.Holds top t) :
    (Directory.listing top (m.listing top)).walk (chooser skip) [] =
      (none, (m.shown skip top).map call) := by
  rw [walk_listing_chooser top (pairwise_listing hm top), shown, List.map_map]
  refine congrArg (Prod.mk none) (List.map_congr_left fun v hv => ?_)
  rw [Function.comp_apply, call, ← (h.listed hm hclean habs (List.mem_of_mem_filter hv)).rel_eq]
  rfl

end

end Memory

end RetryWeave.Files
