import Mathlib.Data.List.Perm.Basic
import RetryWeave.Proofs.Files.Recall

/-! # Listing a directory in memory

A walk visits every record under its directory once, with its way from the directory. What is under
a directory is found by the texts of the paths: this misses everything below `.`, and below `..` it
takes in what leads further upwards. Everywhere else it is exactly what lies below the directory. -/

namespace RetryWeave.Files

open RetryWeave.Path

/-! ## Walks that go through -/

/-- Keeps the entries that a walk reaches, in order. -/
def recorder : Visitor (List Visit)
  | .ok v => fun seen => (.proceed, seen ++ [v])
  | .error f => fun seen => (.stop f, seen)

/-- The entries that a walk reaches if nothing is skipped. -/
def Directory.visited (dir : Directory) : List Visit := (dir.walk recorder []).2

theorem walkListing_of_proceeds {σ : Type} {visit : Visitor σ}
    (hvisit : ∀ v s, (visit (.ok v) s).1 = .proceed) (visits : List Visit) (s : σ) :
    walkListing visit [] visits s = (none, visits.foldl (fun s v => (visit (.ok v) s).2) s) := by
  induction visits generalizing s with
  | nil => rfl
  | cons v rest ih =>
      have hanswer := hvisit v s
      rcases hs : visit (.ok v) s with ⟨a, s'⟩
      rw [hs] at hanswer
      subst hanswer
      rw [walkListing, if_neg (by simp [isBelowAny]), hs, List.foldl_cons, hs]
      exact ih s'

theorem foldl_recorder (visits seen : List Visit) :
    visits.foldl (fun s v => (recorder (.ok v) s).2) seen = seen ++ visits := by
  induction visits generalizing seen with
  | nil => simp
  | cons v rest ih => rw [List.foldl_cons, ih, recorder, List.append_assoc, List.singleton_append]

theorem visited_listing (d : Bytes) (visits : List Visit) :
    (Directory.listing d visits).visited = visits := by
  rw [Directory.visited, Directory.walk, walkListing_of_proceeds fun _ _ => rfl, foldl_recorder,
    List.nil_append]

namespace Memory

variable {m : Memory} {d p : Bytes} {v : Visit}

/-! ## What is under a directory -/

/-- What a directory's own text followed by a slash begins. -/
theorem stripEnd?_append_slash (hd : IsClean d) (hdot : d ≠ [Ascii.dot]) :
    (Bytes.stripEnd? "/" d).getD d ++ [Ascii.slash] = lead (isAbs d) (elements d) := by
  have hslash : Bytes.ofString "/" = [Ascii.slash] := rfl
  rw [hslash]
  have htext := hd.eq_ofElements
  have helement := hd.settled.isElement
  generalize hrooted : isAbs d = rooted at htext helement ⊢
  generalize hes : elements d = es at htext helement ⊢
  subst htext
  rcases List.eq_nil_or_concat es with rfl | ⟨before, last, rfl⟩
  · cases rooted with
    | true => rfl
    | false => exact absurd rfl hdot
  · rw [List.concat_eq_append] at helement ⊢
    rw [ofElements_concat, lead_concat]
    have hlast := helement last (by simp)
    obtain ⟨front, b, rfl⟩ := List.eq_nil_or_concat last |>.resolve_left hlast.ne_nil
    rw [List.concat_eq_append] at hlast ⊢
    -- the last element does not end with a slash
    have hnone : Bytes.stripEnd? [Ascii.slash] (lead rooted before ++ (front ++ [b])) = none := by
      cases h : Bytes.stripEnd? [Ascii.slash] (lead rooted before ++ (front ++ [b])) with
      | none => rfl
      | some rest =>
          have heq := Bytes.stripEnd?_eq_some_iff.mp h
          rw [← List.append_assoc] at heq
          have hb : b = Ascii.slash := by simpa using List.append_inj_right' heq rfl
          exact absurd (hb ▸ by simp) hlast.slash_notMem
    rw [hnone, Option.getD_none, List.append_assoc]

theorem lead_prefix (hd : IsClean d) (hp : IsClean p) (habs : isAbs p = isAbs d)
    (hstart : elements d <+: elements p) (hne : p ≠ d) :
    lead (isAbs d) (elements d) <+: p := by
  obtain ⟨more, hmore⟩ := hstart
  rcases List.eq_nil_or_concat more with rfl | ⟨before, last, rfl⟩
  · exact absurd (hp.ext hd habs (by rw [← hmore, List.append_nil])) hne
  · rw [List.concat_eq_append, ← List.append_assoc] at hmore
    have htext := hp.eq_ofElements
    rw [← hmore, ofElements_concat, habs, lead, List.flatMap_append, ← List.append_assoc,
      List.append_assoc] at htext
    exact ⟨_, htext.symm⟩

theorem not_startsWith_dot (hp : IsClean p) :
    Bytes.startsWith [Ascii.dot, Ascii.slash] p = false := by
  cases h : Bytes.startsWith [Ascii.dot, Ascii.slash] p with
  | false => rfl
  | true =>
      obtain ⟨rest, hrest⟩ := Bytes.startsWith_iff.mp h
      have habs : isAbs p = false := by
        rw [← hrest]
        rfl
      have htext := hp.eq_ofElements
      rw [habs, ofElements, if_neg Bool.false_ne_true] at htext
      have hne : (elements p).isEmpty ≠ true := fun hempty => by
        rw [if_pos hempty] at htext
        cases hrest.trans htext
      rw [if_neg hne] at htext
      have hdot : IsElement [Ascii.dot] := isElement_of_join_eq hp.settled.isElement
        (by decide) (htext.symm.trans hrest.symm)
      exact absurd rfl hdot.ne_dot

/-- What is taken to be under a directory. -/
theorem isUnder_iff (hd : IsClean d) (hp : IsClean p) :
    isUnder d p = true ↔ p = d ∨ d ≠ [Ascii.dot] ∧ (Below d p ∨ ClimbsFrom d p) := by
  rw [isUnder, Bool.or_eq_true, decide_eq_true_eq]
  by_cases hdot : d = [Ascii.dot]
  · subst hdot
    have htext : (Bytes.stripEnd? "/" [Ascii.dot]).getD [Ascii.dot] ++ [Ascii.slash] =
        [Ascii.dot, Ascii.slash] := rfl
    simp [htext, not_startsWith_dot hp]
  · rw [stripEnd?_append_slash hd hdot, Bytes.startsWith_iff]
    have hlead : isAbs d = true ∨ elements d ≠ [] := by
      by_contra hnot
      rw [not_or, not_not, Bool.not_eq_true] at hnot
      refine hdot (hd.eq_ofElements.trans ?_)
      rw [hnot.1, hnot.2]
      rfl
    constructor
    · rintro (heq | ⟨rest, hrest⟩)
      · exact .inl heq
      · have helements := elements_lead_append (isAbs d) hd.settled.isElement rest
        have habs := isAbs_lead_append hd.settled.isElement hlead rest
        rw [hrest] at helements habs
        rcases eq_or_below_or_climbs hd hp habs ⟨_, helements.symm⟩ with heq | hmore
        · exact .inl heq
        · exact .inr ⟨hdot, hmore⟩
    · rintro (heq | ⟨-, hmore⟩)
      · exact .inl heq
      · by_cases heq : p = d
        · exact .inl heq
        · refine .inr ?_
          rcases hmore with hbelow | ⟨habs, hstart⟩
          · obtain ⟨habs, names, -, -, helements⟩ := hbelow.spec hd
            exact lead_prefix hd hp habs ⟨names, helements.symm⟩ heq
          · exact lead_prefix hd hp habs ((List.prefix_append _ _).trans hstart) heq

theorem not_startsWith_slash (hp : IsClean p) :
    Bytes.startsWith [Ascii.slash, Ascii.slash] p = false := by
  cases h : Bytes.startsWith [Ascii.slash, Ascii.slash] p with
  | false => rfl
  | true =>
      obtain ⟨rest, hrest⟩ := Bytes.startsWith_iff.mp h
      have habs : isAbs p = true := by
        rw [← hrest]
        rfl
      have htext := hp.eq_ofElements
      rw [habs] at htext
      have hjoin : Bytes.join [Ascii.slash] (elements p) = [] ++ Ascii.slash :: rest :=
        (List.cons.inj (hrest.trans htext)).2.symm
      exact absurd rfl (isElement_of_join_eq hp.settled.isElement List.not_mem_nil hjoin).ne_nil

theorem append_slash (hd : IsClean d) (htop : ¬ Topmost d) :
    d ++ [Ascii.slash] = lead (isAbs d) (elements d) := by
  have hne : elements d ≠ [] := fun hnil => htop ((topmost_iff hd).mpr hnil)
  obtain ⟨before, last, hes⟩ := (List.eq_nil_or_concat (elements d)).resolve_left hne
  rw [List.concat_eq_append] at hes
  have htext := hd.eq_ofElements
  rw [hes, ofElements_concat] at htext
  rw [hes, lead_concat, ← htext]

/-- The text of a directory and a slash after it begin the paths of what the directory is above, unless
the directory is a top. -/
theorem startsWith_append_slash_iff (hd : IsClean d) (hp : IsClean p) :
    Bytes.startsWith (d ++ [Ascii.slash]) p = true ↔ ¬ Topmost d ∧ Above d p := by
  by_cases htop : Topmost d
  · have hfalse : Bytes.startsWith (d ++ [Ascii.slash]) p = false := by
      rcases htop with rfl | rfl
      · exact not_startsWith_slash hp
      · exact not_startsWith_dot hp
    simp [hfalse, htop]
  · have hlead : isAbs d = true ∨ elements d ≠ [] :=
      .inr fun hnil => htop ((topmost_iff hd).mpr hnil)
    rw [above_iff hp, Bytes.startsWith_iff]
    constructor
    · rintro ⟨rest, hrest⟩
      have hne : d ≠ p := fun heq => by
        have hlength := congrArg List.length (hrest.trans heq.symm)
        simp only [List.length_append, List.length_cons, List.length_nil] at hlength
        omega
      rw [append_slash hd htop] at hrest
      have helements := elements_lead_append (isAbs d) hd.settled.isElement rest
      have habs := isAbs_lead_append hd.settled.isElement hlead rest
      rw [hrest] at helements habs
      exact ⟨htop, hd, habs.symm, ⟨_, helements.symm⟩, hne⟩
    · rintro ⟨-, -, habs, hstart, hne⟩
      rw [append_slash hd htop]
      exact lead_prefix hd hp habs.symm hstart hne.symm

/-- The elements of what is under a directory come after those of the directory. -/
theorem exists_more_of_isUnder (hd : IsClean d) (hp : IsClean p) (h : isUnder d p = true) :
    isAbs p = isAbs d ∧ ∃ more, elements p = elements d ++ more := by
  rcases (isUnder_iff hd hp).mp h with rfl | ⟨-, hbelow | ⟨habs, rest, hrest⟩⟩
  · exact ⟨rfl, [], (List.append_nil _).symm⟩
  · obtain ⟨habs, names, -, -, helements⟩ := hbelow.spec hd
    exact ⟨habs, names, helements⟩
  · exact ⟨habs, dotDot :: rest, by rw [← hrest, List.append_assoc, List.singleton_append]⟩

/-! ## The listing -/

theorem mem_listing_iff (hm : m.Sound) : v ∈ m.listing d ↔
    ∃ p e, m.entry? p = some e ∧ isUnder d p = true ∧ v = visit d p (record m.root p e) := by
  simp only [listing, List.mem_mergeSort, List.mem_map, List.mem_filter, Prod.exists]
  constructor
  · rintro ⟨p, r, ⟨hmem, hunder⟩, rfl⟩
    exact ⟨p, r.entry, hm.entry?_of_mem hmem, hunder, by rw [← hm.own _ hmem]⟩
  · rintro ⟨p, e, hentry, hunder, rfl⟩
    exact ⟨p, record m.root p e, ⟨hm.mem_records_iff.mpr hentry, hunder⟩, rfl⟩

theorem mem_map_path_listing_iff (hm : m.Sound) :
    p ∈ (m.listing d).map (·.path) ↔ (m.entry? p).isSome ∧ isUnder d p = true := by
  simp only [List.mem_map, mem_listing_iff hm]
  constructor
  · rintro ⟨v, ⟨q, e, hentry, hunder, rfl⟩, rfl⟩
    exact ⟨Option.isSome_iff_exists.mpr ⟨e, hentry⟩, hunder⟩
  · rintro ⟨hsome, hunder⟩
    obtain ⟨e, hentry⟩ := Option.isSome_iff_exists.mp hsome
    exact ⟨_, ⟨p, e, hentry, hunder, rfl⟩, rfl⟩

theorem nodup_map_path_listing (hm : m.Sound) (d : Bytes) :
    ((m.listing d).map (·.path)).Nodup := by
  have hperm : ((m.listing d).map (·.path)).Perm
      ((m.records.filter fun b => isUnder d b.1).map fun b => b.2.path) := by
    rw [listing]
    refine ((List.mergeSort_perm _ _).map _).trans ?_
    rw [List.map_map]
    exact .refl _
  have hpaths : ((m.records.filter fun b => isUnder d b.1).map fun b => b.2.path) =
      (m.records.filter fun b => isUnder d b.1).map (·.1) :=
    List.map_congr_left fun b hb => by rw [hm.own b (List.mem_of_mem_filter hb), record]
  rw [hperm.nodup_iff, hpaths]
  exact hm.nodup.sublist (List.filter_sublist.map _)

/-- The way that a walk reports, put after the directory, leads to the entry. -/
theorem visit_spec (hd : IsClean d) (hp : IsClean p) (hunder : isUnder d p = true)
    (r : MemoryRecord) : ∃ more, elements p = elements d ++ more ∧
      (visit d p r).rel = ofElements false more ∧ join [d, (visit d p r).rel] = p ∧
      ((visit d p r).rel = [Ascii.dot] ↔ p = d) := by
  obtain ⟨habs, more, hmore⟩ := exists_more_of_isUnder hd hp hunder
  have hrel : (visit d p r).rel = ofElements false more := by
    rw [visit, relative?_eq_some hd hp habs hmore, Option.getD_some]
  refine ⟨more, hmore, hrel, by rw [hrel, join_relative hd hp habs hmore], ?_⟩
  rw [hrel]
  have helement : ∀ e ∈ more, IsElement e := fun e he =>
    hp.settled.isElement e (hmore ▸ List.mem_append_right _ he)
  constructor
  · intro heq
    have helements := congrArg elements heq
    rw [elements_ofElements helement] at helements
    refine hp.ext hd habs ?_
    rw [hmore, helements]
    exact List.append_nil _
  · rintro rfl
    rw [List.self_eq_append_right.mp hmore]
    rfl

theorem openDir_eq_ok {path : Bytes} {dir : Directory} (h : m.openDir path = .ok dir) :
    m.entry? (m.resolve path) = some .dir ∧
      dir = .listing (m.resolve path) (m.listing (m.resolve path)) := by
  simp only [openDir] at h
  split at h
  · rename_i hentry
    cases h
    exact ⟨hentry, rfl⟩
  · cases h
  · cases h

/-! ## Complete walks -/

/-- A walk of a directory visits it and what lies below it, and nothing else. -/
def WalksWhole (m : Memory) (dir : Directory) : Prop :=
  ∀ p, p ∈ dir.visited.map (·.path) ↔ (m.entry? p).isSome ∧ (p = dir.path ∨ Below dir.path p)

theorem walksWhole_iff (hm : m.Sound) (hd : IsClean d) :
    m.WalksWhole (.listing d (m.listing d)) ↔
      (d = [Ascii.dot] → ∀ p, (m.entry? p).isSome → ¬ Below d p) ∧
      (d ≠ [Ascii.dot] → ∀ p, (m.entry? p).isSome → ¬ ClimbsFrom d p) := by
  have hclean : ∀ {p}, (m.entry? p).isSome → IsClean p := fun hsome => by
    obtain ⟨e, he⟩ := Option.isSome_iff_exists.mp hsome
    exact hm.isClean_of_entry? he
  have hself : ∀ more, more ≠ [] → elements d ≠ elements d ++ more := fun more hne heq =>
    hne (List.self_eq_append_right.mp heq)
  simp only [WalksWhole, visited_listing, mem_map_path_listing_iff hm, Directory.path]
  constructor
  · refine fun hwhole => ⟨fun hdot p hstored hbelow => ?_, fun hdot p hstored hclimbs => ?_⟩
    · have hunder := ((hwhole p).mpr ⟨hstored, .inr hbelow⟩).2
      rcases (isUnder_iff hd (hclean hstored)).mp hunder with rfl | ⟨hnot, -⟩
      · obtain ⟨-, names, hne, -, helements⟩ := hbelow.spec hd
        exact hself names hne helements
      · exact hnot hdot
    · have hunder := (isUnder_iff hd (hclean hstored)).mpr (.inr ⟨hdot, .inr hclimbs⟩)
      rcases ((hwhole p).mp ⟨hstored, hunder⟩).2 with rfl | hbelow
      · obtain ⟨-, rest, hrest⟩ := hclimbs
        rw [List.append_assoc] at hrest
        exact hself _ (List.cons_ne_nil _ _) hrest.symm
      · exact hbelow.not_climbsFrom hd hclimbs
  · rintro ⟨hnone, hclimb⟩ p
    refine and_congr_right fun hstored => ?_
    rw [isUnder_iff hd (hclean hstored)]
    constructor
    · rintro (heq | ⟨hdot, hbelow | hclimbs⟩)
      · exact .inl heq
      · exact .inr hbelow
      · exact absurd hclimbs (hclimb hdot p hstored)
    · rintro (heq | hbelow)
      · exact .inl heq
      · exact .inr ⟨fun hdot => hnone hdot p hstored hbelow, .inl hbelow⟩

/-- What a walk of a directory visits, once each and with the way from the directory, and when this is
all that lies below the directory: always if the directory has an absolute path. -/
theorem walk_whole_iff {root path : Bytes} {ops : List Operation} {dir : Directory}
    (h : ((ofRoot root).run ops).openDir path = .ok dir) :
    let m := (ofRoot root).run ops
    m.entry? dir.path = some .dir ∧ dir.path = m.resolve path ∧
    (∀ (σ : Type) (visit : Visitor σ) (s : σ), (∀ v s, (visit (.ok v) s).1 = .proceed) →
      dir.walk visit s = (none, dir.visited.foldl (fun s v => (visit (.ok v) s).2) s)) ∧
    (dir.visited.map (·.path)).Nodup ∧
    (∀ v ∈ dir.visited, (∃ e, m.entry? v.path = some e ∧ v.info = e.info v.path) ∧
      join [dir.path, v.rel] = v.path ∧ (v.rel = [Ascii.dot] ↔ v.path = dir.path)) ∧
    (isAbs dir.path = true → m.WalksWhole dir) ∧
    (m.WalksWhole dir ↔
      (dir.path = [Ascii.dot] → ∀ p, (m.entry? p).isSome → ¬ Below dir.path p) ∧
      (dir.path ≠ [Ascii.dot] → ∀ p, (m.entry? p).isSome → ¬ ClimbsFrom dir.path p)) := by
  intro m
  have hm : m.Sound := (sound_ofRoot root).run ops
  obtain ⟨hentry, rfl⟩ := openDir_eq_ok h
  have hd : IsClean (m.resolve path) := isClean_resolve hm.root_clean path
  have hiff := walksWhole_iff hm hd
  refine ⟨hentry, rfl, fun σ visit s hvisit => ?_, ?_, fun v hv => ?_, fun habs => hiff.mpr ?_, hiff⟩
  · rw [visited_listing]
    exact walkListing_of_proceeds hvisit _ s
  · rw [visited_listing]
    exact nodup_map_path_listing hm _
  · rw [visited_listing, mem_listing_iff hm] at hv
    obtain ⟨p, e, he, hunder, rfl⟩ := hv
    obtain ⟨-, -, -, hjoin, hself⟩ := visit_spec hd (hm.isClean_of_entry? he) hunder
      (record m.root p e)
    exact ⟨⟨e, he, rfl⟩, hjoin, hself⟩
  · refine ⟨fun hdot => ?_, fun _ p hstored => ?_⟩
    · have hrelative : isAbs [Ascii.dot] = true := hdot ▸ habs
      cases hrelative
    · obtain ⟨e, he⟩ := Option.isSome_iff_exists.mp hstored
      exact not_climbsFrom_of_isAbs (hm.isClean_of_entry? he) habs

/-! ## Two directories -/

/-- A file in a directory, and another one whose path begins with the same text. -/
def besideDirectory : List Operation := [.add "a/x" "1", .add "a.b" "2"]

theorem walk_whole_iff_beside :
    ∃ dir, ((ofRoot "/r").run besideDirectory).openDir "a" = .ok dir ∧
      ((ofRoot "/r").run besideDirectory).WalksWhole dir ∧
      Bytes.ofString "/r/a/x" ∈ dir.visited.map (·.path) := by
  have hopen : ((ofRoot "/r").run besideDirectory).openDir "a" =
      .ok (.listing "/r/a" (((ofRoot "/r").run besideDirectory).listing "/r/a")) := rfl
  obtain ⟨-, -, -, -, -, hwhole, -⟩ := walk_whole_iff hopen
  refine ⟨_, hopen, hwhole rfl, (hwhole rfl _).mpr ⟨by decide, .inr ?_⟩⟩
  exact ⟨["x"], by decide, by decide, by decide⟩

/-- A file in the working directory. -/
def inWorkingDirectory : List Operation := [.add "x" "1"]

/-- The walk of `.` does not come to what is below it. -/
theorem walk_misses_working_directory :
    ∃ dir, ((ofRoot ".").run inWorkingDirectory).openDir "" = .ok dir ∧
      (Memory.entry? ((ofRoot ".").run inWorkingDirectory) "x").isSome ∧ Below dir.path "x" ∧
      Bytes.ofString "x" ∉ dir.visited.map (·.path) := by
  refine ⟨.listing "." (((ofRoot ".").run inWorkingDirectory).listing "."), rfl, by decide,
    ⟨["x"], by decide, by decide, by decide⟩, fun hmem => ?_⟩
  rw [visited_listing, mem_map_path_listing_iff ((sound_ofRoot _).run _)] at hmem
  exact absurd hmem.2 (by decide)

end Memory

end RetryWeave.Files
