import RetryWeave.Proofs.Command.Prepared
import RetryWeave.Proofs.Files.LinkFree

/-! # Expanded copies below a directory

A copy goes to the relative path of its file. Copies of files with the same relative path, which
files of different roots can have, go to the same place, and the last one stays. -/

namespace RetryWeave.Command

open Files

/-! ## Targets -/

/-- Where the copy of a file goes. -/
def FileResult.target (flags : ExpandFlags) (r : FileResult) : Bytes :=
  Path.join [flags.output, r.file.rel]

section

variable {flags : ExpandFlags} {r r' : FileResult}

theorem elements_target (houtput : flags.output ≠ []) (hr : Path.Descends r.file.rel) :
    Path.elements (r.target flags) = Path.cleaned flags.output ++ Path.elements r.file.rel :=
  Path.elements_join_pair houtput hr.ne_nil hr.dotDot_notMem

theorem target_eq_iff (houtput : flags.output ≠ []) (hr : Path.Descends r.file.rel)
    (hr' : Path.Descends r'.file.rel) :
    r.target flags = r'.target flags ↔ r.file.rel = r'.file.rel := by
  constructor
  · intro heq
    have helements := congrArg Path.elements heq
    rw [elements_target houtput hr, elements_target houtput hr'] at helements
    exact hr.eq_of_elements_eq hr' (List.append_cancel_left helements)
  · intro heq
    rw [FileResult.target, heq, FileResult.target]

/-- The place of a copy if there are no links: its relative path below that of the directory. -/
theorem lexical_target (d : Disk) (houtput : flags.output ≠ []) (hr : Path.Descends r.file.rel) :
    d.lexical (r.target flags) = d.lexical (Path.clean flags.output) ++ Path.elements r.file.rel := by
  have hbase : d.lexical (Path.clean flags.output) =
      (Path.cleaned flags.output).foldl Disk.stepName
        (if Path.isAbs flags.output then [] else d.cwd) := by
    have helements : ∀ e ∈ Path.cleanElements (Path.isAbs flags.output)
        (Path.elements flags.output), Path.IsElement e :=
      fun _ => Path.isElement_of_mem_cleanElements
    rw [Disk.lexical, Path.clean, Path.elements_ofElements helements,
      Path.isAbs_ofElements helements]
    rfl
  rw [Disk.lexical, elements_target houtput hr, List.foldl_append, FileResult.target,
    Path.isAbs_join_pair houtput hr.ne_nil hr.dotDot_notMem, hbase]
  refine Disk.foldl_stepName_of_names (fun name hname => ?_) _
  exact ⟨Path.isElement_of_mem_elements hname, fun hup => hr.dotDot_notMem (hup ▸ hname)⟩

theorem lexical_target_inj (d : Disk) (houtput : flags.output ≠ []) (hr : Path.Descends r.file.rel)
    (hr' : Path.Descends r'.file.rel) :
    d.lexical (r.target flags) = d.lexical (r'.target flags) ↔ r.file.rel = r'.file.rel := by
  rw [lexical_target d houtput hr, lexical_target d houtput hr', List.append_cancel_left_eq]
  exact ⟨hr.eq_of_elements_eq hr', fun heq => by rw [heq]⟩

end

/-! ## Writes on disks without links -/

namespace Written

variable {d d' : Disk} {ws : List FileWrite} {w : FileWrite}

theorem linkFree (h : Written d ws d') (hd : d.LinkFree) : d'.LinkFree := by
  induction h with
  | nil => exact hd
  | cons first _ ih => exact ih (first.linkFree hd)

theorem keepsDirs (h : Written d ws d') : d.KeepsDirs d' := by
  induction h with
  | nil => exact fun _ hdir => hdir
  | cons first _ ih =>
      obtain ⟨d₁, hgrows, -, hdirs⟩ := first.exists_leadsTo
      exact fun loc hdir => ih loc (hdirs loc (hgrows.keepsDirs loc hdir))

/-- Every write goes where its path leads to by its text, and what is there at the end is read at
this path. -/
theorem lexical_and_read (h : Written d ws d') (hd : d.LinkFree) (hw : w ∈ ws) :
    w.loc = d.lexical w.path ∧ ∀ content perm,
      d'.node? w.loc = some (.file content perm) → d'.read w.path = .ok content := by
  induction h with
  | nil => cases hw
  | cons first rest ih =>
      have hcwd := first.cwd
      rcases List.mem_cons.mp hw with rfl | hw
      · obtain ⟨d₁, hgrows, hleads, hdirs⟩ := first.exists_leadsTo
        have hd₁ := hgrows.linkFree hd
        refine ⟨?_, fun content perm hfile => ?_⟩
        · rw [hd₁.leadsTo_lexical hleads, Disk.lexical, Disk.lexical, hgrows.cwd]
        · refine Disk.read_of_keepsDirs hd₁ (rest.linkFree (first.linkFree hd)) ?_ ?_ hleads hfile
          · exact fun loc hdir => rest.keepsDirs loc (hdirs loc hdir)
          · rw [rest.cwd_eq, hcwd, hgrows.cwd]
      · obtain ⟨hloc, hread⟩ := ih (first.linkFree hd) hw
        refine ⟨?_, hread⟩
        rw [hloc, Disk.lexical, Disk.lexical, hcwd]

end Written

/-! ## What the tree holds -/

/-- The output of the last file with a relative path. -/
def lastOutput? : List FileResult → Bytes → Option Bytes :=
  lastValue? (fun r => r.file.rel) (fun r => r.expanded.output)

section

variable {d : Disk} {around : Surroundings} {common : Common} {flags : ExpandFlags}
  {paths : List Bytes} {s : Session} {results : List FileResult}

/-- A run that does not fail has accepted all files and written all copies. -/
theorem written_of_failure_eq_none (m : Mishaps) (hwrite : flags.write = false)
    (houtput : flags.output ≠ []) (h : Prepared d around common flags paths s results)
    (hdone : ((expand d.reader around common flags paths).run.run m d).failure = none) :
    (∀ r ∈ results, r.expanded.diagnostics = []) ∧ ∃ ws : List FileWrite,
      ws.map (fun w => (w.path, w.content)) =
        results.map (fun r => (r.target flags, r.expanded.output)) ∧
      Written d ws ((expand d.reader around common flags paths).run.run m d).disk := by
  obtain ⟨-, hfinished | hinterrupted⟩ := run_expand_of_prepared h m
  · have hclean : ∀ r ∈ results, r.expanded.diagnostics = [] := by
      by_contra hrejected
      push Not at hrejected
      obtain ⟨f, hfailure, -⟩ := hfinished.rejects hrejected
      cases hdone.symm.trans hfailure
    obtain ⟨ws, hws, hwritten⟩ := Outcome.exists_written hfinished.disk
    have haccepted : accepted results = results :=
      List.filter_eq_self.mpr fun r hr => by rw [hclean r hr]; rfl
    refine ⟨hclean, ws, ?_, hwritten⟩
    rw [hws, requested, hwrite, haccepted, if_neg Bool.false_ne_true, if_neg houtput]
    rfl
  · obtain ⟨text, f, hfailure, -⟩ := hinterrupted.fails
    cases hdone.symm.trans hfailure

theorem descends_rel (hnames : d.WellNamed) (h : Prepared d around common flags paths s results) :
    ∀ r ∈ results, Path.Descends r.file.rel := fun r hr =>
  Scan.descends_scan hnames h.found r.file (List.mem_map_of_mem hr)

/-- On a disk without links, the last write to the place of a copy is that of the last file with the
same relative path. -/
theorem lastContent?_eq_lastOutput? {ws : List FileWrite} {r : FileResult}
    (houtput : flags.output ≠ []) (hrel : ∀ r ∈ results, Path.Descends r.file.rel)
    (hws : ws.map (fun w => (w.path, w.content)) =
      results.map (fun r => (r.target flags, r.expanded.output)))
    (hloc : ∀ w ∈ ws, w.loc = d.lexical w.path) (hr : r ∈ results) :
    lastContent? ws (d.lexical (r.target flags)) = lastOutput? results r.file.rel := by
  calc lastContent? ws (d.lexical (r.target flags))
      = lastValue? (fun w => d.lexical w.path) FileWrite.content ws (d.lexical (r.target flags)) :=
        lastValue?_congr fun w hw => by rw [hloc w hw]
    _ = lastValue? (fun p => d.lexical p.1) Prod.snd (ws.map fun w => (w.path, w.content))
          (d.lexical (r.target flags)) := by rw [lastValue?_map]
    _ = lastValue? (fun r => d.lexical (r.target flags)) (fun r => r.expanded.output) results
          (d.lexical (r.target flags)) := by rw [hws, lastValue?_map]
    _ = lastOutput? results r.file.rel :=
        lastValue?_congr fun r' hr' => lexical_target_inj d houtput (hrel r' hr') (hrel r hr)

/-- On a disk without links, what is read at a target is the output of the last file with the same
relative path. -/
theorem read_target {ws : List FileWrite} {d' : Disk} {r : FileResult} (hd : d.LinkFree)
    (houtput : flags.output ≠ []) (hrel : ∀ r ∈ results, Path.Descends r.file.rel)
    (hwritten : Written d ws d') (hws : ws.map (fun w => (w.path, w.content)) =
      results.map (fun r => (r.target flags, r.expanded.output))) (hr : r ∈ results) :
    ∃ content, lastOutput? results r.file.rel = some content ∧
      d'.read (r.target flags) = .ok content := by
  have hloc : ∀ w ∈ ws, w.loc = d.lexical w.path := fun w hw => (hwritten.lexical_and_read hd hw).1
  obtain ⟨w, hw, hpair⟩ : ∃ w ∈ ws, (w.path, w.content) = (r.target flags, r.expanded.output) :=
    List.mem_map.mp (hws ▸ List.mem_map_of_mem hr)
  obtain ⟨content, hlast⟩ := exists_lastContent? hw
  obtain ⟨perm, hnode⟩ := hwritten.holds hlast
  have hpath : w.path = r.target flags := congrArg Prod.fst hpair
  refine ⟨content, ?_, hpath ▸ (hwritten.lexical_and_read hd hw).2 content perm hnode⟩
  rw [← lastContent?_eq_lastOutput? houtput hrel hws hloc hr, ← hpath, ← hloc w hw]
  exact hlast

/-- Copies lie below the directory, and two of them go to the same target exactly if their files have
the same relative path. A target holds its own output exactly if that is what was written there last:
on a disk without links, if the last file with the same relative path has the same output. -/
theorem output_tree_kept_iff (m : Mishaps) (hnames : d.WellNamed) (hwrite : flags.write = false)
    (houtput : flags.output ≠ []) (hprepared : Prepared d around common flags paths s results)
    (hdone : ((expand d.reader around common flags paths).run.run m d).failure = none) :
    let seen := (expand d.reader around common flags paths).run.run m d
    (∀ r ∈ results, r.expanded.diagnostics = [] ∧ Path.dotDot ∉ Path.elements r.file.rel ∧
      Path.elements (r.target flags) = Path.cleaned flags.output ++ Path.elements r.file.rel) ∧
    (∀ r ∈ results, ∀ r' ∈ results, r.target flags = r'.target flags ↔ r.file.rel = r'.file.rel) ∧
    (∃ ws : List FileWrite, Written d ws seen.disk ∧ ws.map (fun w => (w.path, w.content)) =
        results.map (fun r => (r.target flags, r.expanded.output)) ∧
      ∀ w ∈ ws, (∃ perm, seen.disk.node? w.loc = some (.file w.content perm)) ↔
        lastContent? ws w.loc = some w.content) ∧
    (d.LinkFree → ∀ r ∈ results, seen.disk.read (r.target flags) = .ok r.expanded.output ↔
      lastOutput? results r.file.rel = some r.expanded.output) := by
  intro seen
  have hrel := descends_rel hnames hprepared
  obtain ⟨hclean, ws, hws, hwritten⟩ :=
    written_of_failure_eq_none m hwrite houtput hprepared hdone
  have hheld : ∀ w ∈ ws, ∃ content perm, lastContent? ws w.loc = some content ∧
      seen.disk.node? w.loc = some (.file content perm) := by
    intro w hw
    obtain ⟨content, hlast⟩ := exists_lastContent? hw
    obtain ⟨perm, hnode⟩ := hwritten.holds hlast
    exact ⟨content, perm, hlast, hnode⟩
  refine ⟨fun r hr => ⟨hclean r hr, (hrel r hr).dotDot_notMem, elements_target houtput (hrel r hr)⟩,
    fun r hr r' hr' => target_eq_iff houtput (hrel r hr) (hrel r' hr'), ⟨ws, hwritten, hws, ?_⟩, ?_⟩
  · intro w hw
    obtain ⟨content, perm, hlast, hnode⟩ := hheld w hw
    rw [hlast, hnode]
    simp
  · intro hd r hr
    obtain ⟨content, hlast, hread⟩ := read_target hd houtput hrel hwritten hws hr
    rw [hlast, hread]
    simp

end

/-! ## Files of two roots -/

/-- Files of the same name in two directories. -/
def twoRoots : Disk :=
  ⟨["w"], [(["w"], .dir), (["w", "a"], .dir), (["w", "b"], .dir),
    (["w", "a", "x.go"], .file "package a\n" 0o644),
    (["w", "b", "x.go"], .file "package b\n" 0o644)]⟩

def twoRootsFlags : ExpandFlags := ⟨false, false, "out", 0⟩

def twoRootsSession : Session := ⟨.default, .standard, .console false, false⟩

def twoRootsResults : List FileResult :=
  [⟨⟨"a/x.go", "a", "x.go"⟩, "package a\n", ⟨"package a\n", [], 0, [], []⟩⟩,
    ⟨⟨"b/x.go", "b", "x.go"⟩, "package b\n", ⟨"package b\n", [], 0, [], []⟩⟩]

theorem wellNamed_twoRoots : twoRoots.WellNamed := by
  have hname : ∀ name, name = Bytes.ofString "w" ∨ name = Bytes.ofString "a" ∨
      name = Bytes.ofString "b" ∨ name = Bytes.ofString "x.go" → Path.IsName name := by
    rintro name (rfl | rfl | rfl | rfl) <;>
      exact ⟨⟨by decide, by decide, by decide⟩, by decide⟩
  intro entry hentry name hmem
  refine hname name ?_
  simp only [twoRoots, List.mem_cons, List.not_mem_nil, or_false] at hentry
  rcases hentry with rfl | rfl | rfl | rfl | rfl <;> simp at hmem <;> tauto

theorem linkFree_twoRoots : twoRoots.LinkFree := by
  refine Disk.linkFree_of_nodes fun entry hentry target => ?_
  simp only [twoRoots, List.mem_cons, List.not_mem_nil, or_false] at hentry
  rcases hentry with rfl | rfl | rfl | rfl | rfl <;> simp

theorem prepared_twoRoots : Prepared twoRoots ⟨[], false⟩ ⟨false, []⟩ twoRootsFlags
    ["a/x.go", "b/x.go"] twoRootsSession twoRootsResults := by
  refine ⟨by decide, rfl, ?_, ?_⟩
  · have hfound : (Scan.scanAll twoRoots.reader twoRootsSession.config.exclude
        (pathsOrAll ["a/x.go", "b/x.go"])).run =
          .ok [⟨"a/x.go", "a", "x.go"⟩, ⟨"b/x.go", "b", "x.go"⟩] := rfl
    exact Scan.scan_of_pairwise hfound (by decide)
  · simp only [twoRootsResults, List.forall_mem_cons, List.not_mem_nil, false_implies, implies_true,
      and_true]
    exact ⟨⟨rfl, rfl⟩, rfl, rfl⟩

/-- Neither of the two writes fails. -/
theorem failure_twoRoots : ((expand twoRoots.reader ⟨[], false⟩ ⟨false, []⟩ twoRootsFlags
    ["a/x.go", "b/x.go"]).run.run .none twoRoots).failure = none := by
  rcases expand_cases twoRoots ⟨[], false⟩ ⟨false, []⟩ twoRootsFlags ["a/x.go", "b/x.go"] with
    ⟨hun, -⟩ | ⟨s, results, told, hprepared, heq⟩
  · exact absurd hun prepared_twoRoots.not_unprepared
  · obtain ⟨rfl, rfl⟩ := prepared_twoRoots.unique hprepared
    have hdone : ((expandOutcome twoRootsSession false twoRootsFlags twoRootsResults).run .none
        twoRoots).failure.isNone = true := by
      decide
    rw [heq, Outcome.run, Outcome.perform, Outcome.failure_perform_messages]
    exact Option.isNone_iff_eq_none.mp hdone

/-- The copy of the second file is kept. -/
theorem output_tree_kept_iff_twoRoots :
    twoRoots.WellNamed ∧ twoRootsFlags.write = false ∧ twoRootsFlags.output ≠ [] ∧
    Prepared twoRoots ⟨[], false⟩ ⟨false, []⟩ twoRootsFlags ["a/x.go", "b/x.go"] twoRootsSession
      twoRootsResults ∧
    let seen := (expand twoRoots.reader ⟨[], false⟩ ⟨false, []⟩ twoRootsFlags
      ["a/x.go", "b/x.go"]).run.run .none twoRoots
    seen.failure = none ∧ twoRoots.LinkFree ∧
      ∃ r ∈ twoRootsResults, seen.disk.read (r.target twoRootsFlags) = .ok r.expanded.output := by
  obtain ⟨-, -, -, hread⟩ := output_tree_kept_iff .none wellNamed_twoRoots rfl (by decide)
    prepared_twoRoots failure_twoRoots
  refine ⟨wellNamed_twoRoots, rfl, by decide, prepared_twoRoots, failure_twoRoots,
    linkFree_twoRoots, _, List.mem_cons_of_mem _ List.mem_cons_self, ?_⟩
  exact (hread linkFree_twoRoots _ (List.mem_cons_of_mem _ List.mem_cons_self)).mpr (by decide)

/-- Two files have the same target, and the output of the first one is lost. -/
theorem output_tree_overwrites :
    ∃ s results, Prepared twoRoots ⟨[], false⟩ ⟨false, []⟩ twoRootsFlags ["a/x.go", "b/x.go"] s results ∧
      let seen := (expand twoRoots.reader ⟨[], false⟩ ⟨false, []⟩ twoRootsFlags
        ["a/x.go", "b/x.go"]).run.run .none twoRoots
      seen.failure = none ∧ ∃ r ∈ results, ∃ r' ∈ results, r.file.path ≠ r'.file.path ∧
        r.target twoRootsFlags = r'.target twoRootsFlags ∧
        seen.disk.read (r.target twoRootsFlags) ≠ .ok r.expanded.output := by
  have hrel := descends_rel wellNamed_twoRoots prepared_twoRoots
  obtain ⟨-, ws, hws, hwritten⟩ := written_of_failure_eq_none .none rfl (by decide)
    prepared_twoRoots failure_twoRoots
  obtain ⟨content, hlast, hread⟩ := read_target linkFree_twoRoots (by decide) hrel hwritten hws
    (r := twoRootsResults.get ⟨0, by decide⟩) (List.get_mem _ _)
  have hcontent : content = Bytes.ofString "package b\n" := by
    have heval : lastOutput? twoRootsResults (twoRootsResults.get ⟨0, by decide⟩).file.rel =
        some (Bytes.ofString "package b\n") := by
      decide
    exact Option.some.inj (hlast.symm.trans heval)
  refine ⟨twoRootsSession, twoRootsResults, prepared_twoRoots, failure_twoRoots,
    twoRootsResults.get ⟨0, by decide⟩, List.get_mem _ _,
    twoRootsResults.get ⟨1, by decide⟩, List.get_mem _ _, by decide, rfl, ?_⟩
  rw [hread, hcontent]
  exact fun heq => absurd (Except.ok.inj heq) (by decide)

end RetryWeave.Command
