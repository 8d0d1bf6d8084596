import RetryWeave.Command.Outcome
import RetryWeave.Proofs.Files.Replacing

/-! # What actions do

Output does not touch the disk. Files change by writes only, which are done in order. A run takes all
its actions, or ends at the first write or owed output that is refused, once all actions before that one
are taken. -/

namespace RetryWeave.Command

open Files

/-! ## Actions -/

namespace Action

/-- What an action puts out. -/
def output? : Action → Option Bytes
  | .print text => some text
  | .mention text => some text
  | .tell _ => none
  | .write _ _ => none

/-- The path and the content of a file that an action writes. -/
def write? : Action → Option (Bytes × Bytes)
  | .print _ => none
  | .mention _ => none
  | .tell _ => none
  | .write path content => some (path, content)

/-- An action is more than a message. -/
def isDeed : Action → Bool
  | .tell _ => false
  | _ => true

end Action

namespace Outcome

variable {m : Mishaps}

/-- All outputs, in order. -/
def outputs (actions : List Action) : List Bytes := actions.filterMap Action.output?

/-- All files that are to be written, with their content. -/
def writes (actions : List Action) : List (Bytes × Bytes) := actions.filterMap Action.write?

/-- The actions that are more than messages. -/
def deeds (actions : List Action) : List Action := actions.filter Action.isDeed

@[simp] theorem outputs_append (as bs : List Action) :
    outputs (as ++ bs) = outputs as ++ outputs bs := List.filterMap_append

@[simp] theorem writes_append (as bs : List Action) :
    writes (as ++ bs) = writes as ++ writes bs := List.filterMap_append

@[simp] theorem deeds_append (as bs : List Action) :
    deeds (as ++ bs) = deeds as ++ deeds bs := List.filter_append ..

theorem outputs_deeds (actions : List Action) : outputs (deeds actions) = outputs actions := by
  rw [outputs, outputs, deeds, List.filterMap_filter]
  congr 1
  funext a
  cases a <;> rfl

theorem writes_deeds (actions : List Action) : writes (deeds actions) = writes actions := by
  rw [writes, writes, deeds, List.filterMap_filter]
  congr 1
  funext a
  cases a <;> rfl

theorem deeds_flatMap {α : Type} (f : α → List Action) (as : List α) :
    deeds (as.flatMap f) = as.flatMap fun a => deeds (f a) := List.filter_flatMap ..

theorem outputs_flatMap {α : Type} (f : α → List Action) (as : List α) :
    outputs (as.flatMap f) = as.flatMap fun a => outputs (f a) := List.filterMap_flatMap ..

theorem writes_flatMap {α : Type} (f : α → List Action) (as : List α) :
    writes (as.flatMap f) = as.flatMap fun a => writes (f a) := List.filterMap_flatMap ..

/-! ## Outputs and writes one after the other -/

/-- What gets through of several outputs. -/
def heard (refused : Nat → Option (Nat × Failure)) : List Bytes → Bytes
  | [] => []
  | text :: texts => taken text (refused 0) ++ heard (fun n => refused (n + 1)) texts

/-- Without a refusal all of it gets through. -/
theorem heard_eq_flatten {refused : Nat → Option (Nat × Failure)} {texts : List Bytes}
    (h : ∀ n < texts.length, refused n = none) : heard refused texts = texts.flatten := by
  induction texts generalizing refused with
  | nil => rfl
  | cons text texts ih =>
      have hrest : ∀ n < texts.length, refused (n + 1) = none := fun n hn =>
        h (n + 1) (Nat.succ_lt_succ hn)
      rw [heard, h 0 (by simp), ih hrest, List.flatten_cons]
      rfl

/-- The disk after files were written one after the other, if none of the writes fails. -/
def writeAll? (faults : Nat → Faults) (d : Disk) : List (Bytes × Bytes) → Option Disk
  | [] => some d
  | (path, content) :: rest =>
    match d.replaceFile (faults 0) path content newPerm with
    | (none, d') => writeAll? (fun n => faults (n + 1)) d' rest
    | (some _, _) => none

theorem writeAll?_cons_eq_some {faults : Nat → Faults} {d d' : Disk} {path content : Bytes}
    {rest : List (Bytes × Bytes)} :
    writeAll? faults d ((path, content) :: rest) = some d' ↔
      ∃ d₁, d.replaceFile (faults 0) path content newPerm = (none, d₁) ∧
        writeAll? (fun n => faults (n + 1)) d₁ rest = some d' := by
  rw [writeAll?]
  rcases d.replaceFile (faults 0) path content newPerm with ⟨_ | f, d₁⟩ <;> simp

/-- Of several writes that are all done, those at the beginning are done first. -/
theorem writeAll?_append_eq_some {faults : Nat → Faults} {d d' : Disk}
    {files more : List (Bytes × Bytes)} :
    writeAll? faults d (files ++ more) = some d' ↔ ∃ d₁, writeAll? faults d files = some d₁ ∧
      writeAll? (fun n => faults (n + files.length)) d₁ more = some d' := by
  induction files generalizing faults d with
  | nil => simp [writeAll?]
  | cons file files ih =>
      obtain ⟨path, content⟩ := file
      rw [List.cons_append, writeAll?_cons_eq_some]
      simp only [writeAll?_cons_eq_some, ih, List.length_cons]
      constructor
      · rintro ⟨d₁, hfirst, d₂, hfiles, hmore⟩
        exact ⟨d₂, ⟨d₁, hfirst, hfiles⟩, hmore⟩
      · rintro ⟨d₂, ⟨d₁, hfirst, hfiles⟩, hmore⟩
        exact ⟨d₁, hfirst, d₂, hfiles, hmore⟩

end Outcome

/-! ## Writes that were done -/

/-- A write that was done: what was written, under which path, and where that is. -/
structure FileWrite where
  path : Bytes
  content : Bytes
  loc : Location

/-- The value of the last member of a list that has a key. -/
def lastValue? {α κ ν : Type} [DecidableEq κ] (key : α → κ) (value : α → ν) (xs : List α) (k : κ) :
    Option ν :=
  (xs.reverse.find? fun x => key x = k).map value

section

variable {α κ ν : Type} [DecidableEq κ] {key : α → κ} {value : α → ν}

theorem lastValue?_cons (x : α) (xs : List α) (k : κ) :
    lastValue? key value (x :: xs) k =
      (lastValue? key value xs k).or (if key x = k then some (value x) else none) := by
  rw [lastValue?, List.reverse_cons, List.find?_append, Option.map_or, lastValue?]
  by_cases hk : key x = k <;> simp [hk]

theorem exists_lastValue? {xs : List α} {x : α} (h : x ∈ xs) :
    ∃ v, lastValue? key value xs (key x) = some v := by
  have hsome : (xs.reverse.find? fun y => key y = key x).isSome :=
    List.find?_isSome.mpr ⟨x, by simpa using h, by simp⟩
  obtain ⟨last, hlast⟩ := Option.isSome_iff_exists.mp hsome
  exact ⟨value last, by rw [lastValue?, hlast]; rfl⟩

theorem lastValue?_map {β : Type} (f : β → α) (ys : List β) (k : κ) :
    lastValue? key value (ys.map f) k = lastValue? (fun y => key (f y)) (fun y => value (f y)) ys k := by
  induction ys with
  | nil => rfl
  | cons y ys ih => rw [List.map_cons, lastValue?_cons, lastValue?_cons, ih]

theorem lastValue?_congr {κ' : Type} [DecidableEq κ'] {key' : α → κ'} {xs : List α} {k : κ} {k' : κ'}
    (h : ∀ x ∈ xs, key x = k ↔ key' x = k') :
    lastValue? key value xs k = lastValue? key' value xs k' := by
  induction xs with
  | nil => rfl
  | cons x xs ih =>
      rw [List.forall_mem_cons] at h
      rw [lastValue?_cons, lastValue?_cons, ih h.2]
      simp only [h.1]

end

/-- The content of the last write to a place. -/
def lastContent? : List FileWrite → Location → Option Bytes :=
  lastValue? FileWrite.loc FileWrite.content

theorem exists_lastContent? {ws : List FileWrite} {w : FileWrite} (h : w ∈ ws) :
    ∃ content, lastContent? ws w.loc = some content :=
  exists_lastValue? h

/-- Files were written one after the other. -/
inductive Written : Disk → List FileWrite → Disk → Prop
  | nil (d : Disk) : Written d [] d
  | cons {d d₁ d₂ : Disk} {w : FileWrite} {ws : List FileWrite}
      (first : d.Replaces w.path w.content w.loc d₁) (rest : Written d₁ ws d₂) :
      Written d (w :: ws) d₂

namespace Written

variable {d d' : Disk} {ws : List FileWrite} {loc : Location}

theorem nil_iff : Written d [] d' ↔ d = d' := by
  constructor
  · intro h
    cases h
    rfl
  · rintro rfl
    exact .nil d

theorem cwd_eq (h : Written d ws d') : d'.cwd = d.cwd := by
  induction h with
  | nil => rfl
  | cons first _ ih => exact ih.trans first.cwd

/-- A place that nothing is written to keeps what it has. -/
theorem keeps (h : Written d ws d') (hnone : lastContent? ws loc = none) : d.Keeps d' loc := by
  induction h with
  | nil => exact .inl rfl
  | cons first _ ih =>
      rw [lastContent?, lastValue?_cons, Option.or_eq_none_iff, ite_eq_right_iff] at hnone
      have hne : loc ≠ _ := fun heq => by simpa using hnone.2 heq.symm
      exact (first.keeps hne).trans (ih hnone.1)

/-- A place holds what was written to it last. -/
theorem holds {content : Bytes} (h : Written d ws d') (hsome : lastContent? ws loc = some content) :
    ∃ perm, d'.node? loc = some (.file content perm) := by
  induction h with
  | nil => cases hsome
  | cons first rest ih =>
      rw [lastContent?, lastValue?_cons, ← lastContent?] at hsome
      cases hlast : lastContent? _ loc with
      | some content' =>
          rw [hlast, Option.some_or] at hsome
          exact ih (hlast.trans hsome)
      | none =>
          rw [hlast, Option.none_or, Option.ite_none_right_eq_some] at hsome
          obtain ⟨rfl, hcontent⟩ := hsome
          cases hcontent
          obtain ⟨perm, hnode⟩ := first.holds
          exact ⟨perm, (rest.keeps hlast).node?_eq hnode⟩

end Written

/-! ## Taking actions -/

namespace Outcome

variable {m : Mishaps} {a : Action} {actions before : List Action} {s s' : Seen}

theorem exists_written {faults : Nat → Faults} {d d' : Disk} {files : List (Bytes × Bytes)}
    (h : writeAll? faults d files = some d') :
    ∃ ws : List FileWrite, ws.map (fun w => (w.path, w.content)) = files ∧ Written d ws d' := by
  induction files generalizing faults d with
  | nil => exact ⟨[], rfl, Written.nil_iff.mpr (Option.some.inj h)⟩
  | cons file files ih =>
      obtain ⟨path, content⟩ := file
      obtain ⟨d₁, hdone, hrest⟩ := writeAll?_cons_eq_some.mp h
      obtain ⟨ws, rfl, hwritten⟩ := ih hrest
      rcases d.replaceFile_cases (faults 0) path content newPerm with ⟨f, hfailed, -⟩ |
        ⟨-, loc, hreplaces⟩
      · rw [hdone] at hfailed
        cases hfailed
      · rw [hdone] at hreplaces
        exact ⟨⟨path, content, loc⟩ :: ws, rfl, .cons hreplaces hwritten⟩

/-- Files were written one after the other, and nothing else came but directories. A place holds what
was written to it last, and all other places keep what they have. -/
def WritesOnly (d : Disk) (files : List (Bytes × Bytes)) (d' : Disk) : Prop :=
  ∃ (ws : List FileWrite) (d₁ : Disk), ws.map (fun w => (w.path, w.content)) = files ∧
    Written d ws d₁ ∧ d₁.Grows d' ∧
    ∀ loc, match lastContent? ws loc with
      | none => d.Keeps d' loc
      | some content => ∃ perm, d'.node? loc = some (.file content perm)

theorem writesOnly_of_grows {faults : Nat → Faults} {d d₁ d' : Disk} {files : List (Bytes × Bytes)}
    (h : writeAll? faults d files = some d₁) (hgrows : d₁.Grows d') : WritesOnly d files d' := by
  obtain ⟨ws, hws, hwritten⟩ := exists_written h
  refine ⟨ws, d₁, hws, hwritten, hgrows, fun loc => ?_⟩
  cases hlast : lastContent? ws loc with
  | none => exact (hwritten.keeps hlast).trans (hgrows.keeps loc)
  | some content =>
      obtain ⟨perm, hnode⟩ := hwritten.holds hlast
      exact ⟨perm, (hgrows.keeps loc).node?_eq hnode⟩

/-- What can still go wrong after some actions. -/
def after (m : Mishaps) (actions : List Action) : Mishaps where
  output n := m.output (n + (outputs actions).length)
  write n := m.write (n + (writes actions).length)

/-- An action is taken. -/
inductive Takes (m : Mishaps) : Action → Seen → Seen → Prop
  | tell (text : Bytes) (s : Seen) : Takes m (.tell text) s { s with messages := s.messages ++ text }
  | mention (text : Bytes) (s : Seen) :
    Takes m (.mention text) s { s with output := s.output ++ taken text (m.output 0) }
  | print (text : Bytes) (s : Seen) (h : m.output 0 = none) :
    Takes m (.print text) s { s with output := s.output ++ text }
  | write (s : Seen) {path content : Bytes} {d : Disk}
    (h : s.disk.replaceFile (m.write 0) path content newPerm = (none, d)) :
    Takes m (.write path content) s { s with disk := d }

/-- An action is refused, which is the end. -/
inductive Fails (m : Mishaps) : Action → Seen → Seen → Prop
  | print (text : Bytes) (s : Seen) {n : Nat} {f : Failure} (h : m.output 0 = some (n, f)) :
    Fails m (.print text) s
      { s with output := s.output ++ text.take n, failure := some (writeFailure f) }
  | write (s : Seen) {path content : Bytes} {f : Failure} {d : Disk}
    (h : s.disk.replaceFile (m.write 0) path content newPerm = (some f, d)) :
    Fails m (.write path content) s { s with disk := d, failure := some (writeFailure f) }

theorem Fails.isDeed (h : Fails m a s s') : a.isDeed = true := by
  cases h <;> rfl

/-- All of several actions are taken. -/
inductive TakesAll : Mishaps → List Action → Seen → Seen → Prop
  | nil (m : Mishaps) (s : Seen) : TakesAll m [] s s
  | cons {m : Mishaps} {a : Action} {rest : List Action} {s s₁ s' : Seen} (first : Takes m a s s₁)
    (more : TakesAll (after m [a]) rest s₁ s') : TakesAll m (a :: rest) s s'

/-- The first action is taken or refused. -/
theorem perform_cons (m : Mishaps) (a : Action) (rest : List Action) (s : Seen) :
    (∃ s₁, Takes m a s s₁ ∧ perform m (a :: rest) s = perform (after m [a]) rest s₁) ∨
      Fails m a s (perform m (a :: rest) s) := by
  cases a with
  | tell text => exact .inl ⟨_, .tell text s, rfl⟩
  | mention text => exact .inl ⟨_, .mention text s, rfl⟩
  | print text =>
      rw [perform]
      cases hrefused : m.output 0 with
      | none => exact .inl ⟨_, .print text s hrefused, rfl⟩
      | some refused => exact .inr (.print text s hrefused)
  | write path content =>
      rw [perform]
      rcases hdone : s.disk.replaceFile (m.write 0) path content newPerm with ⟨_ | f, d⟩
      · exact .inl ⟨_, .write s hdone, rfl⟩
      · exact .inr (.write s hdone)

theorem after_cons (m : Mishaps) (a : Action) (actions : List Action) :
    after m (a :: actions) = after (after m [a]) actions := by
  have houtputs : outputs (a :: actions) = outputs [a] ++ outputs actions := outputs_append [a] actions
  have hwrites : writes (a :: actions) = writes [a] ++ writes actions := writes_append [a] actions
  simp only [after, houtputs, hwrites, List.length_append, Nat.add_assoc, Nat.add_comm]

/-- All actions are taken, or one is refused after all before it are taken. -/
theorem perform_cases (m : Mishaps) (actions : List Action) (s : Seen) :
    TakesAll m actions s (perform m actions s) ∨
      ∃ before a rest s₁, actions = before ++ a :: rest ∧ TakesAll m before s s₁ ∧
        Fails (after m before) a s₁ (perform m actions s) := by
  induction actions generalizing m s with
  | nil => exact .inl (.nil m s)
  | cons a actions ih =>
      rcases perform_cons m a actions s with ⟨s₁, hfirst, heq⟩ | hfails
      · rw [heq]
        rcases ih (after m [a]) s₁ with hall | ⟨before, b, rest, s₂, hactions, hbefore, hfails⟩
        · exact .inl (.cons hfirst hall)
        · refine .inr ⟨a :: before, b, rest, s₂, by rw [hactions]; rfl, .cons hfirst hbefore, ?_⟩
          rwa [after_cons]
      · exact .inr ⟨[], a, actions, s, rfl, .nil m s, hfails⟩

/-! ## Actions that are all taken -/

namespace TakesAll

theorem output (h : TakesAll m actions s s') :
    s'.output = s.output ++ heard m.output (outputs actions) := by
  induction h with
  | nil m s => exact (List.append_nil _).symm
  | @cons m a rest s s₁ s' first _ ih =>
      cases first with
      | tell text s => exact ih
      | mention text s => exact ih.trans (List.append_assoc ..)
      | print text s hnone =>
          change s'.output = s.output ++ (taken text (m.output 0) ++
            heard (after m [.print text]).output (outputs rest))
          rw [ih, hnone, ← List.append_assoc]
          rfl
      | write s hdone => exact ih

theorem failure (h : TakesAll m actions s s') : s'.failure = s.failure := by
  induction h with
  | nil m s => rfl
  | cons first _ ih => cases first <;> exact ih

theorem disk (h : TakesAll m actions s s') :
    writeAll? m.write s.disk (writes actions) = some s'.disk := by
  induction h with
  | nil m s => rfl
  | cons first _ ih =>
      cases first with
      | tell text s => exact ih
      | mention text s => exact ih
      | print text s hnone => exact ih
      | write s hdone => exact writeAll?_cons_eq_some.mpr ⟨_, hdone, ih⟩

/-- No output that is owed was refused. -/
theorem output_eq_none (h : TakesAll m actions s s') (howed : ∀ text, .mention text ∉ actions) :
    ∀ n < (outputs actions).length, m.output n = none := by
  induction h with
  | nil m s => exact nofun
  | @cons m a rest s s₁ s' first _ ih =>
      have ih := ih fun text hmem => howed text (List.mem_cons_of_mem _ hmem)
      cases first with
      | tell text s => exact ih
      | mention text s => exact absurd List.mem_cons_self (howed text)
      | print text s hnone =>
          rintro (_ | n) hn
          · exact hnone
          · exact ih n (Nat.lt_of_succ_lt_succ hn)
      | write s hdone => exact ih

end TakesAll

/-- Messages alone show nowhere else. -/
theorem perform_of_deeds_eq_nil (h : deeds actions = []) (m : Mishaps) (s : Seen) :
    (perform m actions s).output = s.output ∧ (perform m actions s).failure = s.failure ∧
      (perform m actions s).disk = s.disk := by
  have houtputs : outputs actions = [] := by rw [← outputs_deeds, h]; rfl
  have hwrites : writes actions = [] := by rw [← writes_deeds, h]; rfl
  rcases perform_cases m actions s with hall | ⟨before, a, rest, s₁, rfl, -, hfails⟩
  · have hdisk := hall.disk
    rw [hwrites] at hdisk
    refine ⟨?_, hall.failure, (Option.some.inj hdisk).symm⟩
    rw [hall.output, houtputs]
    exact List.append_nil _
  · have hdeed : a ∈ deeds (before ++ a :: rest) := List.mem_filter.mpr ⟨by simp, hfails.isDeed⟩
    simp [h] at hdeed

/-- What was told before has no influence on the failure. -/
theorem failure_perform_messages (m : Mishaps) (actions : List Action) (s : Seen)
    (messages : Bytes) : (perform m actions { s with messages := messages }).failure =
      (perform m actions s).failure := by
  induction actions generalizing m s messages with
  | nil => rfl
  | cons a actions ih =>
      cases a with
      | tell text =>
          rw [perform, perform, ih m s (messages ++ text), ih m s (s.messages ++ text)]
      | mention text =>
          exact ih m.afterOutput { s with output := s.output ++ taken text (m.output 0) } messages
      | print text =>
          simp only [perform]
          cases m.output 0 with
          | none => exact ih m.afterOutput { s with output := s.output ++ text } messages
          | some refused => rfl
      | write path content =>
          simp only [perform]
          rcases s.disk.replaceFile (m.write 0) path content newPerm with ⟨_ | f, d⟩
          · exact ih m.afterWrite { s with disk := d } messages
          · rfl

end Outcome

end RetryWeave.Command
