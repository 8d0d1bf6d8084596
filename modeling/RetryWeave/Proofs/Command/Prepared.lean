import RetryWeave.Proofs.Command.Processing
import RetryWeave.Proofs.Command.Requests
import RetryWeave.Proofs.Files.Scanning
import RetryWeave.Proofs.Expansion.Stages

/-! # Acting once all files are processed

Nothing is printed or written unless all files could be found, read and expanded. Then the accepted
files are handled in the order in which they were found, and the rejected ones are only reported. -/

namespace RetryWeave.Command

open Files

/-! ## Preparing -/

section

variable (d : Disk) (around : Surroundings) (common : Common) (flags : ExpandFlags)
  (paths : List Bytes)

/-- A session was started, and all files that were found are read and expanded. -/
structure Prepared (s : Session) (results : List FileResult) : Prop where
  jobs : 0 ≤ flags.jobs
  session : (Session.start d.reader around common).run.2 = .ok s
  found : (Scan.scan d.reader s.config.exclude (pathsOrAll paths)).run =
    .ok (results.map FileResult.file)
  processed : ∀ r ∈ results, d.read r.file.path = .ok r.source ∧
    expandText s.options r.file.path r.source = .ok r.expanded

/-- Why the files cannot all be processed. -/
inductive Unprepared : Prop
  | jobs (h : flags.jobs < 0)
  | session {f : Failure} (h : (Session.start d.reader around common).run.2 = .error f)
  | scan {s : Session} {f : Failure} (session : (Session.start d.reader around common).run.2 = .ok s)
      (h : (Scan.scan d.reader s.config.exclude (pathsOrAll paths)).run = .error f)
  | read {s : Session} {found : List SourceFile} {file : SourceFile} {f : Failure}
      (session : (Session.start d.reader around common).run.2 = .ok s)
      (scan : (Scan.scan d.reader s.config.exclude (pathsOrAll paths)).run = .ok found)
      (mem : file ∈ found) (h : d.read file.path = .error f)
  | expansion {s : Session} {found : List SourceFile} {file : SourceFile} {src : Bytes}
      {e : ExpandError}
      (session : (Session.start d.reader around common).run.2 = .ok s)
      (scan : (Scan.scan d.reader s.config.exclude (pathsOrAll paths)).run = .ok found)
      (mem : file ∈ found) (read : d.read file.path = .ok src)
      (h : expandText s.options file.path src = .error e)

end

section

variable {d : Disk} {o : Options}

theorem processFile_expandFile_eq_ok {file : SourceFile} {r : FileResult} :
    processFile d.reader (expandFile o) file = .ok r ↔
      r.file = file ∧ d.read file.path = .ok r.source ∧
        expandText o file.path r.source = .ok r.expanded := by
  cases hread : d.read file.path with
  | error e =>
      have hreader : (d.reader.read file.path).run = .error e := hread
      simp [processFile_of_error hreader]
  | ok src =>
      have hreader : (d.reader.read file.path).run = .ok src := hread
      rw [processFile_of_ok hreader, expandFile]
      cases hexpand : expandText o file.path src with
      | error e =>
          simp only [reduceCtorEq, false_iff]
          rintro ⟨-, hsrc, hok⟩
          rw [← Except.ok.inj hsrc, hexpand] at hok
          cases hok
      | ok e =>
          obtain ⟨file', src', e'⟩ := r
          simp only [Except.ok.injEq, FileResult.mk.injEq]
          constructor
          · rintro ⟨rfl, rfl, rfl⟩
            exact ⟨rfl, rfl, hexpand⟩
          · rintro ⟨rfl, rfl, hok⟩
            exact ⟨rfl, rfl, Except.ok.inj (hexpand.symm.trans hok)⟩

theorem processFile_expandFile_eq_error {file : SourceFile} {f : Failure}
    (h : processFile d.reader (expandFile o) file = .error f) :
    (∃ e, d.read file.path = .error e) ∨
      ∃ src e, d.read file.path = .ok src ∧ expandText o file.path src = .error e := by
  cases hread : d.read file.path with
  | error e => exact .inl ⟨e, rfl⟩
  | ok src =>
      have hreader : (d.reader.read file.path).run = .ok src := hread
      rw [processFile_of_ok hreader, expandFile] at h
      cases hexpand : expandText o file.path src with
      | error e => exact .inr ⟨src, e, rfl, hexpand⟩
      | ok e => simp [hexpand] at h

theorem onEachFile_expandFile_eq_ok {found : List SourceFile} {results : List FileResult} :
    (onEachFile d.reader (expandFile o) found).run.2 = .ok results ↔
      found = results.map FileResult.file ∧ ∀ r ∈ results, d.read r.file.path = .ok r.source ∧
        expandText o r.file.path r.source = .ok r.expanded := by
  rw [onEachFile_eq_ok]
  induction results generalizing found with
  | nil => simp
  | cons r results ih =>
      rw [List.forall₂_cons_right_iff, List.map_cons, List.forall_mem_cons]
      constructor
      · rintro ⟨file, rest, hr, hrest, rfl⟩
        obtain ⟨rfl, hr⟩ := processFile_expandFile_eq_ok.mp hr
        obtain ⟨rfl, hprocessed⟩ := ih.mp hrest
        exact ⟨rfl, hr, hprocessed⟩
      · rintro ⟨rfl, hr, hrest⟩
        exact ⟨r.file, results.map FileResult.file, processFile_expandFile_eq_ok.mpr ⟨rfl, hr⟩,
          ih.mpr ⟨rfl, hrest⟩, rfl⟩

end

section

variable {d : Disk} {around : Surroundings} {common : Common} {flags : ExpandFlags}
  {paths : List Bytes} {s s' : Session} {results results' : List FileResult}

theorem Prepared.unique (h : Prepared d around common flags paths s results)
    (h' : Prepared d around common flags paths s' results') : s' = s ∧ results' = results := by
  obtain rfl : s' = s := Except.ok.inj (h'.session.symm.trans h.session)
  have hfound := Except.ok.inj (h'.found.symm.trans h.found)
  have hresults := onEachFile_expandFile_eq_ok.mpr ⟨rfl, h'.processed⟩
  rw [hfound, onEachFile_expandFile_eq_ok.mpr ⟨rfl, h.processed⟩] at hresults
  exact ⟨rfl, (Except.ok.inj hresults).symm⟩

theorem Prepared.not_unprepared (h : Prepared d around common flags paths s results) :
    ¬ Unprepared d around common flags paths := by
  -- a file that was found has a result
  have hfile : ∀ {s' : Session} {found : List SourceFile} {file : SourceFile},
      (Session.start d.reader around common).run.2 = .ok s' →
      (Scan.scan d.reader s'.config.exclude (pathsOrAll paths)).run = .ok found → file ∈ found →
      ∃ src e, d.read file.path = .ok src ∧ expandText s'.options file.path src = .ok e := by
    intro s' found file hsession hscan hmem
    obtain rfl : s' = s := Except.ok.inj (hsession.symm.trans h.session)
    obtain rfl : found = _ := Except.ok.inj (hscan.symm.trans h.found)
    obtain ⟨r, hr, rfl⟩ := List.mem_map.mp hmem
    exact ⟨r.source, r.expanded, h.processed r hr⟩
  intro hun
  cases hun with
  | jobs hjobs => exact absurd h.jobs (by omega)
  | session hfailed => cases hfailed.symm.trans h.session
  | scan hsession hfailed =>
      obtain rfl := Except.ok.inj (hsession.symm.trans h.session)
      cases hfailed.symm.trans h.found
  | read hsession hscan hmem hfailed =>
      obtain ⟨src, e, hread, -⟩ := hfile hsession hscan hmem
      cases hfailed.symm.trans hread
  | expansion hsession hscan hmem hread hfailed =>
      obtain ⟨src, e, hread', hexpand⟩ := hfile hsession hscan hmem
      obtain rfl := Except.ok.inj (hread.symm.trans hread')
      cases hfailed.symm.trans hexpand

/-- Either some file cannot be processed, and there is nothing but a message and a failure, or the
results decide what is done. -/
theorem expand_cases (d : Disk) (around : Surroundings) (common : Common) (flags : ExpandFlags)
    (paths : List Bytes) :
    (Unprepared d around common flags paths ∧ ∃ told f,
      (expand d.reader around common flags paths).run = ⟨told, some f⟩ ∧
        Outcome.deeds told = []) ∨
    ∃ s results told, Prepared d around common flags paths s results ∧
      (expand d.reader around common flags paths).run =
        ⟨.tell told :: (expandOutcome s common.verbose flags results).actions,
          (expandOutcome s common.verbose flags results).failure⟩ := by
  rw [expand]
  by_cases hjobs : flags.jobs < 0
  · rw [if_pos hjobs]
    exact .inl ⟨.jobs hjobs, [], _, rfl, rfl⟩
  · rw [if_neg hjobs]
    rcases hstart : (Session.start d.reader around common).run with ⟨note, f | s⟩
    · have hsession : (Session.start d.reader around common).run.2 = .error f := by rw [hstart]
      change Session.start d.reader around common = _ at hstart
      simp only [bind, pure, hstart]
      exact .inl ⟨.session hsession, _, f, rfl, rfl⟩
    · have hsession : (Session.start d.reader around common).run.2 = .ok s := by rw [hstart]
      change Session.start d.reader around common = _ at hstart
      cases hscan : (Scan.scan d.reader s.config.exclude (pathsOrAll paths)).run with
      | error f =>
          have hfailed : Unprepared d around common flags paths := .scan hsession hscan
          change Scan.scan d.reader s.config.exclude (pathsOrAll paths) = _ at hscan
          simp only [bind, pure, hstart, hscan]
          exact .inl ⟨hfailed, _, f, rfl, rfl⟩
      | ok found =>
          rcases heach : (onEachFile d.reader (expandFile s.options) found).run with ⟨log, f | results⟩
          · have hfailed : (onEachFile d.reader (expandFile s.options) found).run.2 = .error f := by
              rw [heach]
            obtain ⟨before, file, after, hfound, -, hfile⟩ := onEachFile_eq_error.mp hfailed
            have hmem : file ∈ found := by simp [hfound]
            have hun : Unprepared d around common flags paths := by
              rcases processFile_expandFile_eq_error hfile with ⟨e, hread⟩ | ⟨src, e, hread, hexpand⟩
              · exact .read hsession hscan hmem hread
              · exact .expansion hsession hscan hmem hread hexpand
            change Scan.scan d.reader s.config.exclude (pathsOrAll paths) = _ at hscan
            change onEachFile d.reader (expandFile s.options) found = _ at heach
            simp only [bind, pure, hstart, hscan, heach]
            exact .inl ⟨hun, _, f, rfl, rfl⟩
          · have hdone : (onEachFile d.reader (expandFile s.options) found).run.2 = .ok results := by
              rw [heach]
            obtain ⟨rfl, hprocessed⟩ := onEachFile_expandFile_eq_ok.mp hdone
            have hprepared : Prepared d around common flags paths s results :=
              ⟨by omega, hsession, hscan, hprocessed⟩
            change Scan.scan d.reader s.config.exclude (pathsOrAll paths) = _ at hscan
            change onEachFile d.reader (expandFile s.options) _ = _ at heach
            simp only [bind, pure, hstart, hscan, heach]
            exact .inr ⟨s, results, _, hprepared, rfl⟩

end

/-! ## Runs -/

/-- A run fails with a cause and a text. -/
def Outcome.Seen.FailsWith (seen : Outcome.Seen) (c : Cause) (text : Bytes) : Prop :=
  ∃ f, seen.failure = some f ∧ f.has c = true ∧ f.message = text

/-- None of the writes that are requested is refused, and no output that is owed. -/
def NothingRefused (d : Disk) (m : Mishaps) (flags : ExpandFlags) (files : List FileResult) : Prop :=
  (∃ d', Outcome.writeAll? m.write d (requested flags files) = some d') ∧
    ∀ n < (printed flags files).length, m.output n = none

/-- A run that did all that it was to do. It fails if a directive is rejected. -/
structure Finished (d : Disk) (m : Mishaps) (flags : ExpandFlags) (results : List FileResult)
    (seen : Outcome.Seen) : Prop where
  disk : Outcome.writeAll? m.write d (requested flags (accepted results)) = some seen.disk
  places : Outcome.WritesOnly d (requested flags (accepted results)) seen.disk
  output : seen.output =
    Outcome.heard m.output (listed flags (accepted results) ++ printed flags (accepted results))
  owed : ∀ n < (printed flags (accepted results)).length, m.output n = none
  copied : flags.Prints → seen.output = (accepted results).flatMap fun r => r.expanded.output
  rejects : (∃ r ∈ results, r.expanded.diagnostics ≠ []) → seen.FailsWith .diagnostics
    ("retry directives rejected: " ++
      Bytes.ofNat (results.map fun r => r.expanded.diagnostics.length).sum ++ " directive(s) in " ++
      Bytes.ofNat (results.filter fun r => r.expanded.diagnostics ≠ []).length ++ " file(s)")
  succeeds : (∀ r ∈ results, r.expanded.diagnostics = []) → seen.failure = none

/-- A run that ends at an accepted file, whose write or output is refused. All before it is done, and
nothing after it. -/
inductive Interrupted (d : Disk) (m : Mishaps) (flags : ExpandFlags) (results : List FileResult)
    (seen : Outcome.Seen) : Prop
  | write {before after : List FileResult} {r : FileResult} {path content : Bytes} {d' : Disk}
    {f : Failure}
    (files : accepted results = before ++ r :: after)
    (request : requested flags [r] = [(path, content)])
    (done : Outcome.writeAll? m.write d (requested flags before) = some d')
    (refused : d'.replaceFile (m.write (requested flags before).length) path content Outcome.newPerm =
      (some f, seen.disk))
    (places : Outcome.WritesOnly d (requested flags before) seen.disk)
    (output : seen.output = Outcome.heard m.output (listed flags (before ++ [r])))
    (failure : seen.FailsWith .writeFailed ("write failed: " ++ f.message))
  | output {before after : List FileResult} {r : FileResult} {n : Nat} {f : Failure}
    (files : accepted results = before ++ r :: after)
    (prints : flags.Prints)
    (done : ∀ k < before.length, m.output k = none)
    (refused : m.output before.length = some (n, f))
    (disk : seen.disk = d)
    (output : seen.output =
      (before.flatMap fun r => r.expanded.output) ++ r.expanded.output.take n)
    (failure : seen.FailsWith .writeFailed ("write failed: " ++ f.message))

section

variable {d : Disk} {m : Mishaps} {around : Surroundings} {common : Common} {flags : ExpandFlags}
  {paths : List Bytes} {s : Session} {results : List FileResult} {seen : Outcome.Seen}

theorem Interrupted.fails (h : Interrupted d m flags results seen) :
    ∃ text, seen.FailsWith .writeFailed text := by
  cases h with
  | write _ _ _ _ _ _ failure => exact ⟨_, failure⟩
  | output _ _ _ _ _ _ failure => exact ⟨_, failure⟩

theorem Interrupted.not_nothingRefused (h : Interrupted d m flags results seen) :
    ¬ NothingRefused d m flags (accepted results) := by
  rintro ⟨⟨last, hall⟩, hprinted⟩
  cases h with
  | write files request done refused =>
      rw [files, requested_append] at hall
      obtain ⟨d₁, hbefore, hrest⟩ := Outcome.writeAll?_append_eq_some.mp hall
      obtain rfl : _ = d₁ := Option.some.inj (done.symm.trans hbefore)
      rw [← List.singleton_append, requested_append, request, List.singleton_append] at hrest
      obtain ⟨d₂, hdone, -⟩ := Outcome.writeAll?_cons_eq_some.mp hrest
      rw [Nat.zero_add, refused] at hdone
      cases hdone
  | @output before after r n f files prints done refused =>
      have hnone := hprinted before.length (by simp [printed, prints, files])
      cases refused.symm.trans hnone

theorem message_writeFailure (f : Failure) :
    (Outcome.writeFailure f).message = "write failed: " ++ f.message := by
  have htext : Bytes.ofString "write failed: " = Cause.writeFailed.message ++ Bytes.ofString ": " := by
    decide
  simp [Outcome.writeFailure, Failure.both, Failure.message, htext]

theorem not_mem_mention (hprints : flags.Prints) {actions : List Action} {files : List FileResult}
    (hdeeds : Outcome.deeds actions = files.flatMap (deedsOf flags)) (text : Bytes) :
    .mention text ∉ actions := by
  intro hmem
  have hdeed : Action.mention text ∈ Outcome.deeds actions := List.mem_filter.mpr ⟨hmem, rfl⟩
  rw [hdeeds] at hdeed
  obtain ⟨r, -, hr⟩ := List.mem_flatMap.mp hdeed
  simp [deedsOf_of_prints hprints] at hr

/-- What is put out and written by actions that concern some files. -/
theorem outputs_and_writes {actions : List Action} {files : List FileResult}
    (hdeeds : Outcome.deeds actions = files.flatMap (deedsOf flags)) :
    Outcome.outputs actions = listed flags files ++ printed flags files ∧
      Outcome.writes actions = requested flags files := by
  rw [← Outcome.outputs_deeds, ← Outcome.writes_deeds, hdeeds, outputs_flatMap_deedsOf,
    writes_flatMap_deedsOf]
  exact ⟨rfl, rfl⟩

variable {o : Outcome}

theorem finished_of_takesAll
    (hdeeds : Outcome.deeds o.actions = (accepted results).flatMap (deedsOf flags))
    (hfailure : o.failure =
      if ∃ r ∈ results, r.expanded.diagnostics ≠ [] then some (rejection results) else none)
    (h : Outcome.TakesAll m o.actions ⟨[], [], o.failure, d⟩ seen) :
    Finished d m flags results seen := by
  obtain ⟨houtputs, hwrites⟩ := outputs_and_writes hdeeds
  have hdisk := h.disk
  rw [hwrites] at hdisk
  have houtput := h.output
  rw [houtputs] at houtput
  have howed : ∀ n < (printed flags (accepted results)).length, m.output n = none := by
    by_cases hprints : flags.Prints
    · have hnone := h.output_eq_none (not_mem_mention hprints hdeeds)
      rwa [houtputs, listed_eq_nil hprints.2.2] at hnone
    · simp [printed_eq_nil hprints]
  refine ⟨hdisk, Outcome.writesOnly_of_grows hdisk (.refl _), houtput, howed, fun hprints => ?_,
    fun hrejected => ?_, fun hclean => ?_⟩
  · rw [houtput, listed_eq_nil hprints.2.2]
    refine (Outcome.heard_eq_flatten howed).trans ?_
    rw [printed, if_pos hprints]
    rfl
  · rw [if_pos hrejected] at hfailure
    exact ⟨_, h.failure.trans hfailure, rfl, message_rejection results⟩
  · rw [if_neg (by simpa using hclean)] at hfailure
    exact h.failure.trans hfailure

/-- The output of an accepted file is refused, and those before it are taken. -/
theorem interrupted_of_refused_output {actions : List Action} {earlier later : List FileResult}
    {r : FileResult} {failure? : Option Failure} {s₁ : Outcome.Seen} {n : Nat} {f : Failure}
    (hfiles : accepted results = earlier ++ r :: later) (hprints : flags.Prints)
    (hdeeds : Outcome.deeds actions = earlier.flatMap (deedsOf flags))
    (htaken : Outcome.TakesAll m actions ⟨[], [], failure?, d⟩ s₁)
    (hrefused : (Outcome.after m actions).output 0 = some (n, f)) :
    Interrupted d m flags results { s₁ with
      output := s₁.output ++ r.expanded.output.take n, failure := some (Outcome.writeFailure f) } := by
  obtain ⟨houtputs, hwrites⟩ := outputs_and_writes hdeeds
  rw [listed_eq_nil hprints.2.2, List.nil_append, printed, if_pos hprints] at houtputs
  rw [requested_eq_nil hprints] at hwrites
  have hlength : (Outcome.outputs actions).length = earlier.length := by
    rw [houtputs, List.length_map]
  have hnone := htaken.output_eq_none (not_mem_mention hprints hdeeds)
  have hearlier : s₁.output = earlier.flatMap fun r => r.expanded.output := by
    rw [htaken.output, Outcome.heard_eq_flatten hnone, houtputs, List.flatMap_def]
    rfl
  have hdisk := htaken.disk
  rw [hwrites] at hdisk
  simp only [Outcome.after, Nat.zero_add, hlength] at hrefused
  exact .output hfiles hprints (hlength ▸ hnone) hrefused (Option.some.inj hdisk).symm
    (by rw [hearlier]) ⟨_, rfl, rfl, message_writeFailure f⟩

/-- The write of an accepted file is refused, and all before it is done. -/
theorem interrupted_of_refused_write {actions : List Action} {earlier later : List FileResult}
    {r : FileResult} {failure? : Option Failure} {s₁ : Outcome.Seen} {path content : Bytes}
    {f : Failure} {d' : Disk} (hfiles : accepted results = earlier ++ r :: later)
    (hrequest : requested flags [r] = [(path, content)])
    (hdeeds : Outcome.deeds actions =
      earlier.flatMap (deedsOf flags) ++ (listed flags [r]).map .mention)
    (htaken : Outcome.TakesAll m actions ⟨[], [], failure?, d⟩ s₁)
    (hrefused : s₁.disk.replaceFile ((Outcome.after m actions).write 0) path content
      Outcome.newPerm = (some f, d')) :
    Interrupted d m flags results
      { s₁ with disk := d', failure := some (Outcome.writeFailure f) } := by
  have hprints : ¬ flags.Prints := by
    intro hprints
    rw [requested_eq_nil hprints] at hrequest
    cases hrequest
  have hwrites : Outcome.writes actions = requested flags earlier := by
    rw [← Outcome.writes_deeds, hdeeds, Outcome.writes_append, writes_flatMap_deedsOf]
    simp [Outcome.writes, Action.write?, Function.comp_def]
  have houtputs : Outcome.outputs actions = listed flags (earlier ++ [r]) := by
    rw [← Outcome.outputs_deeds, hdeeds, Outcome.outputs_append, outputs_flatMap_deedsOf,
      printed_eq_nil hprints, listed_append]
    simp [Outcome.outputs, Action.output?, Function.comp_def]
  have hdisk := htaken.disk
  have houtput := htaken.output
  rw [houtputs] at houtput
  rw [hwrites] at hdisk
  simp only [Outcome.after, Nat.zero_add, hwrites] at hrefused
  have hgrows := Disk.grows_of_replaceFile_eq_some hrefused
  exact .write hfiles hrequest hdisk hrefused (Outcome.writesOnly_of_grows hdisk hgrows) houtput
    ⟨_, rfl, rfl, message_writeFailure f⟩

theorem interrupted_of_fails {before rest : List Action} {a : Action} {s₁ : Outcome.Seen}
    (hdeeds : Outcome.deeds o.actions = (accepted results).flatMap (deedsOf flags))
    (hactions : o.actions = before ++ a :: rest)
    (hbefore : Outcome.TakesAll m before ⟨[], [], o.failure, d⟩ s₁)
    (hfails : Outcome.Fails (Outcome.after m before) a s₁ seen) :
    Interrupted d m flags results seen := by
  have hsplit : (accepted results).flatMap (deedsOf flags) =
      Outcome.deeds before ++ a :: Outcome.deeds rest := by
    rw [← hdeeds, hactions, Outcome.deeds_append]
    congr 1
    exact List.filter_cons_of_pos hfails.isDeed
  -- the refused action concerns one accepted file, and those before it concern earlier ones
  obtain ⟨earlier, r, later, start, others, hfiles, hr, hstart⟩ := exists_of_flatMap_eq_append hsplit
  cases hfails with
  | print text s₁ hrefused =>
      obtain ⟨hprints, rfl, rfl⟩ := eq_of_deedsOf_eq_append_print hr
      rw [List.append_nil] at hstart
      exact interrupted_of_refused_output hfiles hprints hstart hbefore hrefused
  | write s₁ hrefused =>
      obtain ⟨hrequest, rfl⟩ := eq_of_deedsOf_eq_append_write hr
      exact interrupted_of_refused_write hfiles hrequest hstart hbefore hrefused

theorem run_expand_of_unprepared (h : Unprepared d around common flags paths) (m : Mishaps) :
    let o := (expand d.reader around common flags paths).run
    Outcome.deeds o.actions = [] ∧ (o.run m d).output = [] ∧ (o.run m d).disk = d ∧
      (o.run m d).failure ≠ none := by
  intro o
  rcases expand_cases d around common flags paths with
    ⟨-, told, f, heq, hdeeds⟩ | ⟨s, results, told, hprepared, -⟩
  · obtain ⟨houtput, hfailure, hdisk⟩ :=
      Outcome.perform_of_deeds_eq_nil hdeeds m ⟨[], [], some f, d⟩
    have ho : o = ⟨told, some f⟩ := heq
    rw [ho]
    exact ⟨hdeeds, houtput, hdisk, fun hnone => by cases hfailure.symm.trans hnone⟩
  · exact absurd h hprepared.not_unprepared

/-- A run on processed files does all that is requested, or ends at what is refused first. -/
theorem run_expand_of_prepared (h : Prepared d around common flags paths s results) (m : Mishaps) :
    let o := (expand d.reader around common flags paths).run
    Outcome.deeds o.actions = (accepted results).flatMap (deedsOf flags) ∧
      (Finished d m flags results (o.run m d) ∨ Interrupted d m flags results (o.run m d)) := by
  intro o
  rcases expand_cases d around common flags paths with ⟨hun, -⟩ | ⟨s', results', told, h', heq⟩
  · exact absurd hun h.not_unprepared
  · obtain ⟨rfl, rfl⟩ := h.unique h'
    have ho : o = _ := heq
    have hdeeds : Outcome.deeds o.actions = (accepted results').flatMap (deedsOf flags) := by
      rw [ho, ← deeds_expandOutcome s' common.verbose flags results']
      rfl
    have hfailure := congrArg Outcome.failure ho
    rw [failure_expandOutcome] at hfailure
    refine ⟨hdeeds, ?_⟩
    rcases Outcome.perform_cases m o.actions ⟨[], [], o.failure, d⟩ with
      hall | ⟨before, a, rest, s₁, hactions, hbefore, hfails⟩
    · exact .inl (finished_of_takesAll hdeeds hfailure hall)
    · exact .inr (interrupted_of_fails hdeeds hactions hbefore hfails)

/-- A run acts only if all files could be processed, and then on the accepted ones, in order. If nothing
is refused it does all that is requested. Otherwise it ends at the first write or output that is
refused: all before is done, and nothing after. -/
theorem expand_acts_when_prepared (d : Disk) (m : Mishaps) (around : Surroundings)
    (common : Common) (flags : ExpandFlags) (paths : List Bytes) :
    let o := (expand d.reader around common flags paths).run
    let seen := o.run m d
    (Unprepared d around common flags paths ∨
      ∃ s results, Prepared d around common flags paths s results) ∧
    (Unprepared d around common flags paths → Outcome.writes o.actions = [] ∧
      Outcome.outputs o.actions = [] ∧ seen.output = [] ∧ seen.disk = d ∧ seen.failure ≠ none) ∧
    ∀ s results, Prepared d around common flags paths s results →
      Outcome.writes o.actions = requested flags (accepted results) ∧
      Outcome.outputs o.actions =
        listed flags (accepted results) ++ printed flags (accepted results) ∧
      (NothingRefused d m flags (accepted results) → Finished d m flags results seen) ∧
      (¬ NothingRefused d m flags (accepted results) → Interrupted d m flags results seen) := by
  intro o seen
  refine ⟨?_, fun hun => ?_, fun s results hprepared => ?_⟩
  · rcases expand_cases d around common flags paths with ⟨hun, -⟩ | ⟨s, results, -, hprepared, -⟩
    · exact .inl hun
    · exact .inr ⟨s, results, hprepared⟩
  · obtain ⟨hdeeds, hrest⟩ := run_expand_of_unprepared hun m
    refine ⟨?_, ?_, hrest⟩
    · rw [← Outcome.writes_deeds, hdeeds]
      rfl
    · rw [← Outcome.outputs_deeds, hdeeds]
      rfl
  · obtain ⟨hdeeds, hended⟩ := run_expand_of_prepared hprepared m
    obtain ⟨houtputs, hwrites⟩ := outputs_and_writes hdeeds
    refine ⟨hwrites, houtputs, fun hnone => ?_, fun hsome => ?_⟩
    · exact hended.resolve_right fun h => h.not_nothingRefused hnone
    · exact hended.resolve_left fun h => hsome ⟨⟨_, h.disk⟩, h.owed⟩

/-- A directive on what is no function. -/
def variableSource : Bytes := "package p\n\n//retry:onfailure 3\nvar x int\n"

/-- A file that changes, one with a directive that is rejected, and one without directives. -/
def mixedDisk : Disk :=
  ⟨["w"], [(["w"], .dir), (["w", "a.go"], .file pairSource 0o644),
    (["w", "b.go"], .file variableSource 0o600), (["w", "c.go"], .file "package c\n" 0o644)]⟩

def mixedPaths : List Bytes := ["a.go", "b.go", "c.go"]

def mixedResults (x : Expanded) (log : LogLines) : List FileResult :=
  [⟨⟨"a.go", ".", "a.go"⟩, pairSource, x⟩,
    ⟨⟨"b.go", ".", "b.go"⟩, variableSource,
      ⟨variableSource, [⟨.notFunction, ⟨"b.go", 3, 1, 11⟩⟩], 0, [], log⟩⟩,
    ⟨⟨"c.go", ".", "c.go"⟩, "package c\n", ⟨"package c\n", [], 0, [], []⟩⟩]

theorem exists_prepared_mixedDisk : ∃ s x log, x.output = pairOutput ∧ x.diagnostics = [] ∧
    ∀ flags : ExpandFlags, 0 ≤ flags.jobs →
      Prepared mixedDisk ⟨[], false⟩ ⟨false, []⟩ flags mixedPaths s (mixedResults x log) := by
  obtain ⟨p, f, x, hx, -, houtput, hclean, -⟩ := exists_from_pairSource
  have heval : (expandText .standard "b.go" variableSource).toOption.map
      (fun e => (e.output, e.diagnostics, e.count, e.map)) =
        some (variableSource, [⟨.notFunction, ⟨"b.go", 3, 1, 11⟩⟩], 0, []) := by
    decide +kernel
  obtain ⟨log, hrejected⟩ : ∃ log, expandText .standard "b.go" variableSource =
      .ok ⟨variableSource, [⟨.notFunction, ⟨"b.go", 3, 1, 11⟩⟩], 0, [], log⟩ := by
    cases hexpand : expandText .standard "b.go" variableSource with
    | error e => simp [hexpand, Except.toOption] at heval
    | ok e =>
        obtain ⟨output, diagnostics, count, map, log⟩ := e
        simp only [hexpand, Except.toOption, Option.map_some, Option.some.injEq, Prod.mk.injEq] at heval
        obtain ⟨rfl, rfl, rfl, rfl⟩ := heval
        exact ⟨log, rfl⟩
  refine ⟨⟨.default, .standard, .console false, false⟩, x, log, houtput, hclean, fun flags hjobs =>
    ⟨hjobs, rfl, ?_, ?_⟩⟩
  · have hfound : (Scan.scanAll mixedDisk.reader Config.default.exclude
        (pathsOrAll mixedPaths)).run =
          .ok [⟨"a.go", ".", "a.go"⟩, ⟨"b.go", ".", "b.go"⟩, ⟨"c.go", ".", "c.go"⟩] := rfl
    exact Scan.scan_of_pairwise hfound (by decide)
  · simp only [mixedResults, List.forall_mem_cons, List.not_mem_nil, false_implies, implies_true,
      and_true]
    exact ⟨⟨rfl, hx⟩, ⟨rfl, hrejected⟩, rfl, rfl⟩

theorem accepted_mixedResults {x : Expanded} (hclean : x.diagnostics = []) (log : LogLines) :
    accepted (mixedResults x log) = [⟨⟨"a.go", ".", "a.go"⟩, pairSource, x⟩,
      ⟨⟨"c.go", ".", "c.go"⟩, "package c\n", ⟨"package c\n", [], 0, [], []⟩⟩] := by
  simp [accepted, mixedResults, hclean]

/-- For the second write no temporary file can be made. -/
def secondDenied : Mishaps where
  output _ := none
  write n := if n = 1 then fun step => if step = .createTemp then some .denied else none else .none

/-- The disk with a copy of the first file. -/
def copiedDisk (content : Bytes) : Disk :=
  ⟨["w"], (["w", "out", "a.go"], .file content 0o644) :: (["w", "out"], .dir) :: mixedDisk.nodes⟩

theorem writeAll?_secondDenied (content : Bytes) : Outcome.writeAll? secondDenied.write mixedDisk
    [(Bytes.ofString "out/a.go", content), (Bytes.ofString "out/c.go", Bytes.ofString "package c\n")] =
      none := by
  have hfirst : mixedDisk.replaceFile (secondDenied.write 0) "out/a.go" content Outcome.newPerm =
      (none, copiedDisk content) := rfl
  obtain ⟨f, d, hsecond⟩ : ∃ f d, (copiedDisk content).replaceFile (secondDenied.write 1) "out/c.go"
      "package c\n" Outcome.newPerm = (some f, d) := ⟨_, _, rfl⟩
  simp only [Outcome.writeAll?, hfirst, hsecond]

/-- In place, the first file is written and listed, and the second one is rejected. Below a directory,
the copy of the third file fails after that of the first one. -/
theorem expand_acts_when_prepared_mixedDisk :
    ∃ s x log, (∀ flags : ExpandFlags, 0 ≤ flags.jobs →
        Prepared mixedDisk ⟨[], false⟩ ⟨false, []⟩ flags mixedPaths s (mixedResults x log)) ∧
      (let flags : ExpandFlags := ⟨true, true, [], 0⟩
        let seen := (expand mixedDisk.reader ⟨[], false⟩ ⟨false, []⟩ flags mixedPaths).run.run .none
          mixedDisk
        NothingRefused mixedDisk .none flags (accepted (mixedResults x log)) ∧
        Finished mixedDisk .none flags (mixedResults x log) seen ∧
        requested flags (accepted (mixedResults x log)) = [(Bytes.ofString "a.go", pairOutput)] ∧
        seen.output = Bytes.ofString "a.go\n" ∧
        seen.FailsWith .diagnostics "retry directives rejected: 1 directive(s) in 1 file(s)") ∧
      (let flags : ExpandFlags := ⟨false, false, "out", 0⟩
        let seen := (expand mixedDisk.reader ⟨[], false⟩ ⟨false, []⟩ flags mixedPaths).run.run
          secondDenied mixedDisk
        ¬ NothingRefused mixedDisk secondDenied flags (accepted (mixedResults x log)) ∧
        Interrupted mixedDisk secondDenied flags (mixedResults x log) seen) := by
  obtain ⟨s, x, log, houtput, hclean, hprepared⟩ := exists_prepared_mixedDisk
  have haccepted := accepted_mixedResults hclean log
  have hchanged : pairOutput ≠ pairSource := by decide
  have hjobs : (0 : Int) ≤ 0 := Int.le_refl 0
  refine ⟨s, x, log, hprepared, ?_, ?_⟩
  · intro flags seen
    have hrequested : requested flags (accepted (mixedResults x log)) =
        [(Bytes.ofString "a.go", pairOutput)] := by
      simp [flags, requested, haccepted, houtput, hchanged]
    have hline : Bytes.ofString "a.go" ++ [Ascii.newline] = Bytes.ofString "a.go\n" := rfl
    have hlisted : listed flags (accepted (mixedResults x log)) = [Bytes.ofString "a.go\n"] := by
      simp [flags, listed, haccepted, houtput, hchanged, hline]
    have hnone : NothingRefused mixedDisk .none flags (accepted (mixedResults x log)) := by
      rw [NothingRefused, hrequested]
      exact ⟨⟨_, rfl⟩, fun _ _ => rfl⟩
    obtain ⟨-, -, hall⟩ := expand_acts_when_prepared mixedDisk .none ⟨[], false⟩ ⟨false, []⟩ flags
      mixedPaths
    have hfinished := (hall s _ (hprepared flags hjobs)).2.2.1 hnone
    refine ⟨hnone, hfinished, hrequested, ?_, ?_⟩
    · rw [hfinished.output, hlisted, printed_eq_nil (by decide)]
      rfl
    · obtain ⟨f, hfailure, hcause, hmessage⟩ :=
        hfinished.rejects ⟨_, List.mem_cons_of_mem _ List.mem_cons_self, List.cons_ne_nil _ _⟩
      have hdirectives : ((mixedResults x log).map fun r => r.expanded.diagnostics.length).sum = 1 := by
        simp [mixedResults, hclean]
      have hfiles : ((mixedResults x log).filter fun r => r.expanded.diagnostics ≠ []).length = 1 := by
        simp [mixedResults, hclean]
      rw [hdirectives, hfiles] at hmessage
      exact ⟨f, hfailure, hcause, hmessage⟩
  · intro flags seen
    have hrefused : ¬ NothingRefused mixedDisk secondDenied flags (accepted (mixedResults x log)) := by
      rintro ⟨⟨d', hdone⟩, -⟩
      have hrequested : requested flags (accepted (mixedResults x log)) =
          [(Bytes.ofString "out/a.go", pairOutput),
            (Bytes.ofString "out/c.go", Bytes.ofString "package c\n")] := by
        rw [haccepted, requested, if_neg Bool.false_ne_true, if_neg (by decide), ← houtput]
        rfl
      rw [hrequested, writeAll?_secondDenied] at hdone
      cases hdone
    obtain ⟨-, -, hall⟩ := expand_acts_when_prepared mixedDisk secondDenied ⟨[], false⟩ ⟨false, []⟩
      flags mixedPaths
    exact ⟨hrefused, (hall s _ (hprepared flags hjobs)).2.2.2 hrefused⟩

end

end RetryWeave.Command
