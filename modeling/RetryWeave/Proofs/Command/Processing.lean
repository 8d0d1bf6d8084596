import Mathlib.Data.List.Forall2
import RetryWeave.Command.Run

/-! # Processing files one after the other

Each file has a result of its own: it is read, and its content is handed on. Processing files in
order yields the results of all of them, or the failure of the first one that fails. -/

namespace RetryWeave.Command

open Files

variable {β : Type} (files : FileReader Id) (f : SourceFile → Bytes → LogLines × Except Failure β)

/-- What processing a single file yields. -/
def processFile (file : SourceFile) : Except Failure β :=
  match (files.read file.path).run with
  | .error e => .error (.wrap ("failed to read " ++ file.path ++ ": ") e [])
  | .ok src => (f file src).2

variable {files f} in
theorem processFile_of_error {file : SourceFile} {e : Failure}
    (h : (files.read file.path).run = .error e) :
    processFile files f file = .error (.wrap ("failed to read " ++ file.path ++ ": ") e []) := by
  rw [processFile, h]

variable {files f} in
theorem processFile_of_ok {file : SourceFile} {src : Bytes}
    (h : (files.read file.path).run = .ok src) : processFile files f file = (f file src).2 := by
  rw [processFile, h]

/-- One file after the other: the result is that of the first, then those of the others. -/
theorem onEachFile_cons (file : SourceFile) (rest : List SourceFile) :
    (onEachFile files f (file :: rest)).run.2 =
      (processFile files f file).bind fun b => (onEachFile files f rest).run.2.map (b :: ·) := by
  rw [onEachFile, processFile]
  cases hread : (files.read file.path).run with
  | error e =>
      change files.read file.path = .error e at hread
      simp [Id.run, bind, pure, Except.bind, hread]
  | ok src =>
      change files.read file.path = .ok src at hread
      rcases hf : f file src with ⟨log, _ | b⟩
      · simp [Id.run, bind, pure, Except.bind, hread, hf]
      · simp only [Id.run, bind, pure, Except.bind, hread, hf]
        rfl

variable {files f}

theorem onEachFile_eq_ok {found : List SourceFile} {results : List β} :
    (onEachFile files f found).run.2 = .ok results ↔
      List.Forall₂ (fun file b => processFile files f file = .ok b) found results := by
  induction found generalizing results with
  | nil =>
      rw [List.forall₂_nil_left_iff]
      exact ⟨fun h => (Except.ok.inj h).symm, fun h => h ▸ rfl⟩
  | cons file rest ih =>
      rw [onEachFile_cons, List.forall₂_cons_left_iff]
      cases hfile : processFile files f file with
      | error e => simp [Except.bind]
      | ok b =>
          cases hrest : (onEachFile files f rest).run.2 with
          | error e =>
              simp only [Except.bind, Except.map, reduceCtorEq, false_iff]
              rintro ⟨b', more, -, hmore, -⟩
              rw [ih.mpr hmore] at hrest
              cases hrest
          | ok more =>
              simp only [Except.bind, Except.map, Except.ok.injEq]
              constructor
              · rintro rfl
                exact ⟨b, more, rfl, ih.mp hrest, rfl⟩
              · rintro ⟨b', more', rfl, hmore, rfl⟩
                rw [Except.ok.inj (hrest.symm.trans (ih.mpr hmore))]

/-- The failure of the whole is that of the first file that fails. -/
theorem onEachFile_eq_error {found : List SourceFile} {e : Failure} :
    (onEachFile files f found).run.2 = .error e ↔
      ∃ before file after, found = before ++ file :: after ∧
        (∀ g ∈ before, ∃ b, processFile files f g = .ok b) ∧ processFile files f file = .error e := by
  induction found with
  | nil =>
      constructor
      · intro h
        cases h
      · rintro ⟨before, file, after, h, -⟩
        simp at h
  | cons file rest ih =>
      rw [onEachFile_cons]
      cases hfile : processFile files f file with
      | error e' =>
          simp only [Except.bind, Except.error.injEq]
          constructor
          · rintro rfl
            exact ⟨[], file, rest, rfl, by simp, hfile⟩
          · rintro ⟨before, g, after, heq, hbefore, hg⟩
            cases before with
            | nil =>
                cases heq
                exact Except.error.inj (hfile.symm.trans hg)
            | cons g' before =>
                cases heq
                obtain ⟨b, hb⟩ := hbefore file List.mem_cons_self
                cases hfile.symm.trans hb
      | ok b =>
          have hmap : (Except.bind (.ok b : Except Failure β) fun b =>
              (onEachFile files f rest).run.2.map (b :: ·)) = .error e ↔
                (onEachFile files f rest).run.2 = .error e := by
            cases (onEachFile files f rest).run.2 <;> simp [Except.bind, Except.map]
          rw [hmap, ih]
          constructor
          · rintro ⟨before, g, after, rfl, hbefore, hg⟩
            refine ⟨file :: before, g, after, rfl, fun g' hg' => ?_, hg⟩
            rcases List.mem_cons.mp hg' with rfl | hg'
            · exact ⟨b, hfile⟩
            · exact hbefore g' hg'
          · rintro ⟨before, g, after, heq, hbefore, hg⟩
            cases before with
            | nil =>
                cases heq
                cases hfile.symm.trans hg
            | cons g' before =>
                cases heq
                exact ⟨before, g, after, rfl, fun k hk => hbefore k (List.mem_cons_of_mem _ hk), hg⟩

end RetryWeave.Command
