import Mathlib
import RetryWeave.Command.Run
import RetryWeave.Proofs.Command.Effects

/-! # What is asked for about processed files

Files in which no directive is rejected are written, printed or listed, as the flags say. The actions of
a command on processed files are those for the accepted ones, in order, and messages. -/

namespace RetryWeave.Command

/-! ## Parts of a list -/

/-- What is made of a list part by part is made of its members. -/
theorem flatMap_singleton_of_append {α β : Type} {f : List α → List β}
    (happend : ∀ xs ys, f (xs ++ ys) = f xs ++ f ys) (xs : List α) :
    (xs.flatMap fun x => f [x]) = f xs := by
  induction xs with
  | nil => exact (List.self_eq_append_right.mp (happend [] [])).symm
  | cons x xs ih => rw [List.flatMap_cons, ih, ← happend, List.singleton_append]

/-- A part of what comes of the members of a list comes of one member. -/
theorem exists_of_flatMap_eq_append {α β : Type} {f : α → List β} {xs : List α} {before after : List β}
    {b : β} (h : xs.flatMap f = before ++ b :: after) :
    ∃ earlier x later start rest, xs = earlier ++ x :: later ∧ f x = start ++ b :: rest ∧
      before = earlier.flatMap f ++ start := by
  induction xs generalizing before with
  | nil => simp at h
  | cons x xs ih =>
      have hlater : ∀ more, before = f x ++ more → xs.flatMap f = more ++ b :: after →
          ∃ earlier y later start rest, x :: xs = earlier ++ y :: later ∧
            f y = start ++ b :: rest ∧ before = earlier.flatMap f ++ start := by
        rintro more rfl hmore
        obtain ⟨earlier, y, later, start, rest, rfl, hy, rfl⟩ := ih hmore
        exact ⟨x :: earlier, y, later, start, rest, rfl, hy, by simp⟩
      rw [List.flatMap_cons] at h
      rcases List.append_eq_append_iff.mp h with ⟨more, hbefore, hmore⟩ | ⟨start, hstart, hmore⟩
      · exact hlater more hbefore hmore
      · cases start with
        | nil => exact hlater [] (by simpa using hstart.symm) (by simpa using hmore.symm)
        | cons b' start =>
            obtain ⟨rfl, -⟩ := List.cons.inj hmore
            exact ⟨[], x, xs, before, start, rfl, hstart, rfl⟩

/-! ## Requests -/

/-- The results of files in which no directive is rejected. -/
def accepted (results : List FileResult) : List FileResult :=
  results.filter fun r => r.expanded.diagnostics.isEmpty

/-- What is to be written of some files: those that change in place, or all below a directory. -/
def requested (flags : ExpandFlags) (files : List FileResult) : List (Bytes × Bytes) :=
  if flags.write then
    (files.filter fun r => r.expanded.output ≠ r.source).map fun r => (r.file.path, r.expanded.output)
  else if flags.output = [] then []
  else files.map fun r => (Path.join [flags.output, r.file.rel], r.expanded.output)

/-- The lines about files that change, if these are listed. -/
def listed (flags : ExpandFlags) (files : List FileResult) : List Bytes :=
  if flags.list then
    (files.filter fun r => r.expanded.output ≠ r.source).map fun r => r.file.path ++ [Ascii.newline]
  else []

/-- Files are only looked at: their outputs are not written, and none of them is listed. -/
def ExpandFlags.Prints (flags : ExpandFlags) : Prop :=
  flags.write = false ∧ flags.output = [] ∧ flags.list = false

instance (flags : ExpandFlags) : Decidable flags.Prints := inferInstanceAs (Decidable (_ ∧ _ ∧ _))

/-- The outputs that go nowhere else. -/
def printed (flags : ExpandFlags) (files : List FileResult) : List Bytes :=
  if flags.Prints then files.map fun r => r.expanded.output else []

/-- What is done about an accepted file, apart from messages. -/
def deedsOf (flags : ExpandFlags) (r : FileResult) : List Action :=
  (listed flags [r]).map .mention ++ (requested flags [r]).map (fun p => .write p.1 p.2) ++
    (printed flags [r]).map .print

section

variable {flags : ExpandFlags} {r : FileResult}

theorem deeds_fileActions (s : Session) (flags : ExpandFlags) (r : FileResult) :
    Outcome.deeds (fileActions s flags r) =
      if r.expanded.diagnostics.isEmpty then deedsOf flags r else [] := by
  rw [fileActions, FileResult.isRejected]
  cases r.expanded.diagnostics.isEmpty with
  | false => rfl
  | true =>
      by_cases hchanged : r.expanded.output = r.source <;> cases hwrite : flags.write <;>
        by_cases houtput : flags.output = [] <;> cases hlist : flags.list <;>
        simp [outputActions, FileResult.isChanged, deedsOf, listed, requested, printed,
          ExpandFlags.Prints, Outcome.deeds, Action.isDeed, hchanged, hwrite, houtput, hlist]

theorem requested_append (flags : ExpandFlags) (files more : List FileResult) :
    requested flags (files ++ more) = requested flags files ++ requested flags more := by
  unfold requested
  split_ifs <;> simp

theorem listed_append (flags : ExpandFlags) (files more : List FileResult) :
    listed flags (files ++ more) = listed flags files ++ listed flags more := by
  unfold listed
  split_ifs <;> simp

theorem printed_append (flags : ExpandFlags) (files more : List FileResult) :
    printed flags (files ++ more) = printed flags files ++ printed flags more := by
  unfold printed
  split_ifs <;> simp

theorem outputs_deedsOf (flags : ExpandFlags) (r : FileResult) :
    Outcome.outputs (deedsOf flags r) = listed flags [r] ++ printed flags [r] := by
  simp [deedsOf, Outcome.outputs, List.filterMap_map, Function.comp_def, Action.output?]

theorem writes_deedsOf (flags : ExpandFlags) (r : FileResult) :
    Outcome.writes (deedsOf flags r) = requested flags [r] := by
  simp [deedsOf, Outcome.writes, List.filterMap_map, Function.comp_def, Action.write?]

theorem listed_eq_nil (h : flags.list = false) (files : List FileResult) : listed flags files = [] := by
  rw [listed, h]
  rfl

theorem printed_eq_nil (h : ¬ flags.Prints) (files : List FileResult) : printed flags files = [] :=
  if_neg h

theorem requested_eq_nil (h : flags.Prints) (files : List FileResult) : requested flags files = [] := by
  obtain ⟨hwrite, houtput, -⟩ := h
  simp [requested, hwrite, houtput]

theorem deedsOf_of_prints (h : flags.Prints) (r : FileResult) :
    deedsOf flags r = [.print r.expanded.output] := by
  simp [deedsOf, listed_eq_nil h.2.2, requested_eq_nil h, printed, h]

theorem deedsOf_of_not_prints (h : ¬ flags.Prints) (r : FileResult) :
    deedsOf flags r =
      (listed flags [r]).map .mention ++ (requested flags [r]).map fun p => .write p.1 p.2 := by
  rw [deedsOf, printed_eq_nil h, List.map_nil, List.append_nil]

/-- What is put out for several files: the lines of a list, or outputs. -/
theorem outputs_flatMap_deedsOf (flags : ExpandFlags) (files : List FileResult) :
    Outcome.outputs (files.flatMap (deedsOf flags)) = listed flags files ++ printed flags files := by
  simp only [Outcome.outputs_flatMap, outputs_deedsOf]
  by_cases hprints : flags.Prints
  · simp only [listed_eq_nil hprints.2.2, List.nil_append]
    exact flatMap_singleton_of_append (printed_append flags) files
  · simp only [printed_eq_nil hprints, List.append_nil]
    exact flatMap_singleton_of_append (listed_append flags) files

theorem writes_flatMap_deedsOf (flags : ExpandFlags) (files : List FileResult) :
    Outcome.writes (files.flatMap (deedsOf flags)) = requested flags files := by
  simp only [Outcome.writes_flatMap, writes_deedsOf]
  exact flatMap_singleton_of_append (requested_append flags) files

theorem length_requested_singleton_le (flags : ExpandFlags) (r : FileResult) :
    (requested flags [r]).length ≤ 1 := by
  unfold requested
  split_ifs
  · exact (List.length_map _).trans_le (List.length_filter_le _ _)
  · exact Nat.zero_le 1
  · exact Nat.le_refl 1

/-- An output that is owed is all that is done about a file. -/
theorem eq_of_deedsOf_eq_append_print {before rest : List Action} {text : Bytes}
    (h : deedsOf flags r = before ++ .print text :: rest) :
    flags.Prints ∧ before = [] ∧ text = r.expanded.output := by
  have hprints : flags.Prints := by
    by_contra hprints
    have hmem : Action.print text ∈ deedsOf flags r := by simp [h]
    simp [deedsOf_of_not_prints hprints] at hmem
  rw [deedsOf_of_prints hprints] at h
  rcases before with - | ⟨a, before⟩
  · exact ⟨hprints, rfl, (Action.print.inj (List.cons.inj h).1).symm⟩
  · simp at h

/-- The one write that a file may ask for comes after the line about it. -/
theorem eq_of_deedsOf_eq_append_write {before rest : List Action} {path content : Bytes}
    (h : deedsOf flags r = before ++ .write path content :: rest) :
    requested flags [r] = [(path, content)] ∧ before = (listed flags [r]).map .mention := by
  have hprints : ¬ flags.Prints := by
    intro hprints
    rw [deedsOf_of_prints hprints] at h
    rcases before with - | ⟨a, before⟩ <;> simp at h
  have hle := length_requested_singleton_le flags r
  have hwrites := congrArg Outcome.writes h
  rw [writes_deedsOf, Outcome.writes_append] at hwrites
  have hone : requested flags [r] = [(path, content)] := by
    have hmem : (path, content) ∈ requested flags [r] := by
      rw [hwrites]
      exact List.mem_append_right _ List.mem_cons_self
    obtain ⟨p, hp⟩ := List.length_eq_one_iff.mp (hle.antisymm (List.length_pos_of_mem hmem))
    rw [hp, List.mem_singleton] at hmem
    rw [hp, hmem]
  refine ⟨hone, ?_⟩
  rw [deedsOf_of_not_prints hprints, hone, List.map_singleton] at h
  rcases List.append_eq_append_iff.mp h with ⟨more, hbefore, hmore⟩ | ⟨more, hlines, hmore⟩
  · rcases more with - | ⟨a, more⟩
    · rw [hbefore, List.append_nil]
    · simp at hmore
  · rcases more with - | ⟨a, more⟩
    · rw [hlines, List.append_nil]
    · obtain ⟨rfl, -⟩ := List.cons.inj hmore
      have hmem : Action.write path content ∈ (listed flags [r]).map .mention := by simp [hlines]
      simp at hmem

end

/-! ## Outcomes -/

section

variable (s : Session) (verbose : Bool) (flags : ExpandFlags) (results : List FileResult)

theorem flatMap_accepted {α : Type} (f : FileResult → List α) :
    (results.flatMap fun r => if r.expanded.diagnostics.isEmpty then f r else []) =
      (accepted results).flatMap f := by
  induction results with
  | nil => rfl
  | cons r rest ih =>
      rw [List.flatMap_cons, ih]
      simp only [accepted, List.filter_cons]
      split <;> rfl

/-- Apart from messages, all that is done concerns accepted files. -/
theorem deeds_expandOutcome : Outcome.deeds (expandOutcome s verbose flags results).actions =
    (accepted results).flatMap (deedsOf flags) := by
  simp only [expandOutcome, Outcome.deeds_append, Outcome.deeds_flatMap, deeds_fileActions,
    flatMap_accepted]
  split
  · exact List.append_nil _
  · exact List.append_nil _

theorem foldr_length_diagnostics :
    results.foldr (fun r n => r.expanded.diagnostics.length + n) 0 =
      (results.map fun r => r.expanded.diagnostics.length).sum := by
  induction results with
  | nil => rfl
  | cons r rest ih => rw [List.foldr_cons, ih, List.map_cons, List.sum_cons]

/-- The failure that says how many directives are rejected, and in how many files. -/
def rejection (results : List FileResult) : Failure :=
  .wrap [] (.cause .diagnostics)
    (": " ++ Bytes.ofNat (results.map fun r => r.expanded.diagnostics.length).sum ++
      " directive(s) in " ++
      (Bytes.ofNat (results.filter fun r => !r.expanded.diagnostics.isEmpty).length ++ " file(s)"))

theorem message_rejection : (rejection results).message =
    "retry directives rejected: " ++
      Bytes.ofNat (results.map fun r => r.expanded.diagnostics.length).sum ++ " directive(s) in " ++
      Bytes.ofNat (results.filter fun r => r.expanded.diagnostics ≠ []).length ++ " file(s)" := by
  have hrejected : ∀ r : FileResult, (!r.expanded.diagnostics.isEmpty) =
      decide (r.expanded.diagnostics ≠ []) := by
    intro r
    cases r.expanded.diagnostics <;> rfl
  have htext : Bytes.ofString "retry directives rejected: " =
      Cause.diagnostics.message ++ Bytes.ofString ": " := by decide
  simp only [rejection, Failure.message, hrejected, htext, List.nil_append, List.append_assoc]

theorem failure_expandOutcome : (expandOutcome s verbose flags results).failure =
    if ∃ r ∈ results, r.expanded.diagnostics ≠ [] then some (rejection results) else none := by
  have hpos : 0 < (results.map fun r => r.expanded.diagnostics.length).sum ↔
      ∃ r ∈ results, r.expanded.diagnostics ≠ [] := by
    rw [List.sum_pos_iff_exists_pos_nat]
    simp [List.length_pos_iff]
  simp only [expandOutcome, foldr_length_diagnostics]
  exact if_congr hpos rfl rfl

end

end RetryWeave.Command
