import RetryWeave.Files.Memory
import RetryWeave.Proofs.Command.Processing
import RetryWeave.Proofs.Splice.Sites

/-! # Processing files in parallel

Every file is a job, and at most `limit` jobs run at once. The first failure is kept, and calls off
the jobs that have not begun to read. Whatever the order of their steps, the jobs come to an end, and
what they leave is what processing the files one after the other yields, up to the choice of the
failure. -/

namespace RetryWeave.Command

open Files Relation

/-! ## Jobs -/

/-- How far a job has come. -/
inductive Stage where
  | waiting
  /-- It has not looked yet whether it was called off. -/
  | started
  | allowed
  | loaded (src : Bytes)
  /-- Its work is over, with or without a failure that is still to be reported. -/
  | returned (failure : Option Failure)
  /-- Its failure was the first, and it is about to call off the others. -/
  | reporting
  | done

namespace Stage

/-- Whether a job takes one of the places of the pool. -/
def isBusy : Stage → Bool
  | waiting | done => false
  | _ => true

/-- How many steps are left at the most. -/
def left : Stage → Nat
  | waiting => 6
  | started => 5
  | allowed => 4
  | loaded _ => 3
  | returned _ => 2
  | reporting => 1
  | done => 0

end Stage

/-- The jobs of `n` files, the places for their results, and what they share. -/
structure Pool (n : Nat) (β : Type) where
  stage : Fin n → Stage
  slot : Fin n → Option β
  /-- The first failure that was reported. -/
  failure : Option Failure
  cancelled : Bool

namespace Pool

variable {n : Nat} {β : Type}

def start : Pool n β := ⟨fun _ => .waiting, fun _ => none, none, false⟩

/-- The pool after one job has moved on. -/
def move (p : Pool n β) (i : Fin n) (s : Stage) : Pool n β :=
  { p with stage := Function.update p.stage i s }

/-- The number of jobs that run. -/
def busy (p : Pool n β) : Nat := (Finset.univ.filter fun i => (p.stage i).isBusy).card

/-- How many steps are left at the most. -/
def left (p : Pool n β) : Nat := ∑ i, (p.stage i).left

def Ended (p : Pool n β) : Prop := ∀ i, p.stage i = .done

@[simp] theorem move_stage_self (p : Pool n β) (i : Fin n) (s : Stage) :
    (p.move i s).stage i = s := by
  simp [move]

@[simp] theorem move_stage_of_ne (p : Pool n β) {i j : Fin n} (s : Stage) (h : j ≠ i) :
    (p.move i s).stage j = p.stage j := by
  simp [move, h]

@[simp] theorem move_slot (p : Pool n β) (i : Fin n) (s : Stage) : (p.move i s).slot = p.slot := rfl

@[simp] theorem move_failure (p : Pool n β) (i : Fin n) (s : Stage) :
    (p.move i s).failure = p.failure := rfl

@[simp] theorem move_cancelled (p : Pool n β) (i : Fin n) (s : Stage) :
    (p.move i s).cancelled = p.cancelled := rfl

/-- A job that moves on leaves fewer steps. -/
theorem left_lt_of_stage_eq {p p' : Pool n β} {i : Fin n} {s : Stage}
    (hstage : p'.stage = (p.move i s).stage) (hs : s.left < (p.stage i).left) :
    p'.left < p.left := by
  unfold left
  rw [hstage]
  refine Finset.sum_lt_sum (fun j _ => ?_) ⟨i, Finset.mem_univ i, by simpa using hs⟩
  by_cases hj : j = i
  · subst hj
    simpa using hs.le
  · simp [hj]

/-- A job that is busy already takes no further place. -/
theorem busy_le_of_stage_eq {p p' : Pool n β} {i : Fin n} {s : Stage}
    (hstage : p'.stage = (p.move i s).stage) (hi : (p.stage i).isBusy) : p'.busy ≤ p.busy := by
  refine Finset.card_le_card fun j hj => ?_
  simp only [Finset.mem_filter, Finset.mem_univ, true_and] at hj ⊢
  by_cases hji : j = i
  · exact hji ▸ hi
  · rwa [hstage, move_stage_of_ne p s hji] at hj

theorem busy_move_le (p : Pool n β) (i : Fin n) (s : Stage) : (p.move i s).busy ≤ p.busy + 1 := by
  have hsubset : (Finset.univ.filter fun j => ((p.move i s).stage j).isBusy) ⊆
      insert i (Finset.univ.filter fun j => (p.stage j).isBusy) := by
    intro j hj
    by_cases hji : j = i
    · simp [hji]
    · simpa [hji] using hj
  exact (Finset.card_le_card hsubset).trans (Finset.card_insert_le _ _)

end Pool

/-! ## Steps -/

section

variable {β : Type} (files : FileReader Id) (f : SourceFile → Bytes → LogLines × Except Failure β)
  (found : List SourceFile) (limit : Nat)

/-- What one job of a pool does next. A failure is kept before the other jobs are called off, and
only a job that has just started looks whether it was. -/
inductive Step : Pool found.length β → Pool found.length β → Prop
  | start {p i} (h : p.stage i = .waiting) (free : p.busy < limit) : Step p (p.move i .started)
  | proceed {p i} (h : p.stage i = .started) (hon : p.cancelled = false) :
    Step p (p.move i .allowed)
  | giveUp {p i} (h : p.stage i = .started) (hoff : p.cancelled = true) :
    Step p (p.move i (.returned (some (.cause .canceled))))
  | load {p i src} (h : p.stage i = .allowed)
    (hread : (files.read (found.get i).path).run = .ok src) : Step p (p.move i (.loaded src))
  | unreadable {p i e} (h : p.stage i = .allowed)
    (hread : (files.read (found.get i).path).run = .error e) :
    Step p (p.move i
      (.returned (some (.wrap ("failed to read " ++ (found.get i).path ++ ": ") e []))))
  | succeed {p i src b} (h : p.stage i = .loaded src) (hf : (f (found.get i) src).2 = .ok b) :
    Step p { p.move i (.returned none) with slot := Function.update p.slot i (some b) }
  | fail {p i src e} (h : p.stage i = .loaded src) (hf : (f (found.get i) src).2 = .error e) :
    Step p (p.move i (.returned (some e)))
  | leave {p i} (h : p.stage i = .returned none) : Step p (p.move i .done)
  | keep {p i e} (h : p.stage i = .returned (some e)) (hfirst : p.failure = none) :
    Step p { p.move i .reporting with failure := some e }
  | drop {p i e} (h : p.stage i = .returned (some e)) (hlater : p.failure ≠ none) :
    Step p (p.move i .done)
  | cancel {p i} (h : p.stage i = .reporting) : Step p { p.move i .done with cancelled := true }

variable {files f found limit} {p p' : Pool found.length β}

theorem Step.left_lt (h : Step files f found limit p p') : p'.left < p.left := by
  cases h <;> exact Pool.left_lt_of_stage_eq rfl (by simp [Stage.left, *])

/-- Every run of the jobs comes to an end. -/
theorem step_wellFounded : WellFounded fun p' p => Step files f found limit p p' :=
  Subrelation.wf (r := InvImage (· < ·) Pool.left) (fun h => h.left_lt)
    (InvImage.wf Pool.left wellFounded_lt)

theorem Step.busy_le (h : Step files f found limit p p') (hp : p.busy ≤ limit) :
    p'.busy ≤ limit := by
  cases h with
  | @start i h free => exact (p.busy_move_le i .started).trans free
  | _ => exact (Pool.busy_le_of_stage_eq rfl (by simp [Stage.isBusy, *])).trans hp

/-- A job that is busy can go on. -/
theorem exists_step_of_isBusy {i : Fin found.length} (hi : (p.stage i).isBusy) :
    ∃ p', Step files f found limit p p' := by
  cases h : p.stage i with
  | waiting | done => simp [h, Stage.isBusy] at hi
  | started =>
      cases hc : p.cancelled with
      | false => exact ⟨_, .proceed h hc⟩
      | true => exact ⟨_, .giveUp h hc⟩
  | allowed =>
      cases hread : (files.read (found.get i).path).run with
      | error e => exact ⟨_, .unreadable h hread⟩
      | ok src => exact ⟨_, .load h hread⟩
  | loaded src =>
      cases hf : (f (found.get i) src).2 with
      | error e => exact ⟨_, .fail h hf⟩
      | ok b => exact ⟨_, .succeed h hf⟩
  | returned failure =>
      cases failure with
      | none => exact ⟨_, .leave h⟩
      | some e =>
          by_cases hfirst : p.failure = none
          · exact ⟨_, .keep h hfirst⟩
          · exact ⟨_, .drop h hfirst⟩
  | reporting => exact ⟨_, .cancel h⟩

/-- As long as a job is not done, one can go on or start. -/
theorem exists_step (hlimit : 0 < limit) (hp : ¬ p.Ended) :
    ∃ p', Step files f found limit p p' := by
  obtain ⟨i, hi⟩ := not_forall.mp hp
  by_cases hbusy : ∃ j, (p.stage j).isBusy
  · obtain ⟨j, hj⟩ := hbusy
    exact exists_step_of_isBusy hj
  · have hfree : p.busy = 0 := by simpa [Pool.busy, Finset.filter_eq_empty_iff] using hbusy
    refine ⟨_, .start (i := i) ?_ (hfree ▸ hlimit)⟩
    cases h : p.stage i with
    | waiting => rfl
    | done => exact absurd h hi
    | _ => exact absurd ⟨i, by simp [h, Stage.isBusy]⟩ hbusy

/-! ## What a run keeps -/

/-- What is known of a job that has come to a stage, where `kept` says that a failure was kept. -/
def Stage.Sound (files : FileReader Id) (f : SourceFile → Bytes → LogLines × Except Failure β)
    (file : SourceFile) (slot : Option β) (kept : Prop) : Stage → Prop
  | waiting | started | allowed => True
  | loaded src => (files.read file.path).run = .ok src
  | returned none => ∃ b, processFile files f file = .ok b ∧ slot = some b
  | returned (some e) => processFile files f file = .error e ∨ kept
  | reporting => kept
  | done => kept ∨ ∃ b, processFile files f file = .ok b ∧ slot = some b

theorem Stage.Sound.mono {file : SourceFile} {slot : Option β} {kept kept' : Prop} {s : Stage}
    (h : s.Sound files f file slot kept) (hkept : kept → kept') :
    s.Sound files f file slot kept' := by
  match s with
  | waiting | started | allowed => trivial
  | loaded src => exact h
  | returned none => exact h
  | returned (some e) => exact h.imp_right hkept
  | reporting => exact hkept h
  | done => exact h.imp_left hkept

/-- The invariant of a pool: its jobs are sound, they are called off only after a failure was kept,
and the failure that is kept is a job's own. -/
structure Pool.Sound (files : FileReader Id)
    (f : SourceFile → Bytes → LogLines × Except Failure β) (found : List SourceFile)
    (p : Pool found.length β) : Prop where
  stage : ∀ i, (p.stage i).Sound files f (found.get i) (p.slot i) (p.failure ≠ none)
  cancelled : p.cancelled = true → p.failure ≠ none
  failure : ∀ e, p.failure = some e → ∃ i, processFile files f (found.get i) = .error e

theorem Pool.Sound.move (hp : p.Sound files f found) {i : Fin found.length} {s : Stage}
    (hs : s.Sound files f (found.get i) (p.slot i) (p.failure ≠ none)) :
    (p.move i s).Sound files f found := by
  refine ⟨fun j => ?_, hp.cancelled, hp.failure⟩
  by_cases hj : j = i
  · subst hj
    simpa using hs
  · simpa [hj] using hp.stage j

theorem Step.sound (h : Step files f found limit p p') (hp : p.Sound files f found) :
    p'.Sound files f found := by
  cases h with
  | start h free => exact hp.move trivial
  | proceed h hon => exact hp.move trivial
  | giveUp h hoff => exact hp.move (.inr (hp.cancelled hoff))
  | load h hread => exact hp.move hread
  | @unreadable i e h hread => exact hp.move (.inl (processFile_of_error hread))
  | @succeed i src b h hf =>
      have hread := hp.stage i
      rw [h] at hread
      refine ⟨fun j => ?_, hp.cancelled, hp.failure⟩
      by_cases hj : j = i
      · subst hj
        simpa using ⟨b, (processFile_of_ok hread).trans hf, rfl⟩
      · simpa [hj] using hp.stage j
  | @fail i src e h hf =>
      have hread := hp.stage i
      rw [h] at hread
      exact hp.move (.inl ((processFile_of_ok hread).trans hf))
  | @leave i h =>
      have hown := hp.stage i
      rw [h] at hown
      exact hp.move (.inr hown)
  | @keep i e h hfirst =>
      have hown := hp.stage i
      rw [h] at hown
      -- nothing was kept before, so that the failure is the job's own
      have hown : processFile files f (found.get i) = .error e :=
        hown.resolve_right fun hkept => hkept hfirst
      refine ⟨fun j => ?_, fun _ => Option.some_ne_none e, fun e' he' => ?_⟩
      · by_cases hj : j = i
        · subst hj
          simp [Stage.Sound]
        · simpa [hj] using (hp.stage j).mono fun _ => Option.some_ne_none e
      · exact ⟨i, Option.some.inj he' ▸ hown⟩
  | drop h hlater => exact hp.move (.inl hlater)
  | @cancel i h =>
      have hkept := hp.stage i
      rw [h] at hkept
      have hmoved : (p.move i .done).Sound files f found := hp.move (.inl hkept)
      exact ⟨hmoved.stage, fun _ => hkept, hmoved.failure⟩

/-! ## Whole runs -/

theorem busy_le_and_sound_of_run
    (h : ReflTransGen (Step files f found limit) .start p) :
    p.busy ≤ limit ∧ p.Sound files f found := by
  induction h with
  | refl => exact ⟨by simp [Pool.busy, Pool.start, Stage.isBusy], fun _ => trivial, nofun, nofun⟩
  | tail _ hstep ih => exact ⟨hstep.busy_le ih.1, hstep.sound ih.2⟩

theorem Pool.Sound.ended_of_forall_ok (hp : p.Sound files f found) (hended : p.Ended)
    (hok : ∀ file ∈ found, ∃ b, processFile files f file = .ok b) :
    p.failure = none ∧ ∀ i, ∃ b, processFile files f (found.get i) = .ok b ∧ p.slot i = some b := by
  have hnone : p.failure = none := by
    by_contra hsome
    obtain ⟨e, he⟩ := Option.ne_none_iff_exists'.mp hsome
    obtain ⟨i, hi⟩ := hp.failure e he
    obtain ⟨b, hb⟩ := hok _ (List.get_mem found i)
    cases hi.symm.trans hb
  refine ⟨hnone, fun i => ?_⟩
  have hdone := hp.stage i
  rw [hended i] at hdone
  exact hdone.resolve_left fun hkept => hkept hnone

theorem Pool.Sound.ended_of_exists_error (hp : p.Sound files f found) (hended : p.Ended)
    {file : SourceFile} (hfile : file ∈ found) {e : Failure}
    (he : processFile files f file = .error e) :
    ∃ own, p.failure = some own ∧ ∃ g ∈ found, processFile files f g = .error own := by
  obtain ⟨i, rfl⟩ := List.mem_iff_get.mp hfile
  have hdone := hp.stage i
  rw [hended i] at hdone
  have hkept : p.failure ≠ none := by
    refine hdone.resolve_right ?_
    rintro ⟨b, hb, -⟩
    cases he.symm.trans hb
  obtain ⟨own, hown⟩ := Option.ne_none_iff_exists'.mp hkept
  obtain ⟨j, hj⟩ := hp.failure own hown
  exact ⟨own, hown, found.get j, List.get_mem found j, hj⟩

/-- A pool without a failure has the results that processing the files in order yields. -/
theorem Pool.Sound.ended_iff (hp : p.Sound files f found) (hended : p.Ended) {results : List β} :
    (onEachFile files f found).run.2 = .ok results ↔
      p.failure = none ∧ List.ofFn p.slot = results.map some := by
  have hslots : (∀ i, ∃ b, processFile files f (found.get i) = .ok b ∧ p.slot i = some b) →
      ∃ bs, List.ofFn p.slot = bs.map some ∧
        List.Forall₂ (fun file b => processFile files f file = .ok b) found bs := by
    intro h
    choose b hb hslot using h
    refine ⟨List.ofFn b, by simp [List.map_ofFn, funext hslot, Function.comp_def], ?_⟩
    rw [List.forall₂_iff_get]
    exact ⟨by simp, fun i hi _ => by simpa using hb ⟨i, hi⟩⟩
  have hall : p.failure = none → ∀ file ∈ found, ∃ b, processFile files f file = .ok b := by
    intro hnone file hfile
    cases hown : processFile files f file with
    | ok b => exact ⟨b, rfl⟩
    | error e =>
        obtain ⟨own, hsome, -⟩ := hp.ended_of_exists_error hended hfile hown
        cases hnone.symm.trans hsome
  constructor
  · intro h
    have hforall := onEachFile_eq_ok.mp h
    have hok : ∀ file ∈ found, ∃ b, processFile files f file = .ok b := by
      intro file hfile
      obtain ⟨i, rfl⟩ := List.mem_iff_get.mp hfile
      exact ⟨_, hforall.get i.isLt (hforall.length_eq ▸ i.isLt)⟩
    obtain ⟨hnone, hslot⟩ := hp.ended_of_forall_ok hended hok
    obtain ⟨bs, hbs, hforall'⟩ := hslots hslot
    have heq := (onEachFile_eq_ok.mpr hforall').symm.trans h
    exact ⟨hnone, Except.ok.inj heq ▸ hbs⟩
  · rintro ⟨hnone, hmap⟩
    obtain ⟨bs, hbs, hforall⟩ := hslots (hp.ended_of_forall_ok hended (hall hnone)).2
    obtain rfl : bs = results := (List.map_injective_iff.mpr (Option.some_injective β))
      (hbs.symm.trans hmap)
    exact onEachFile_eq_ok.mpr hforall

end

/-- Whatever the order of the steps, the jobs come to an end, and no more than `limit` of them run at
once. If all files can be processed, nothing has failed in the end and each result stands in its
place; otherwise a failure was kept, and it is the own failure of one of the files. Either way the
jobs leave what processing the files one after the other yields. -/
theorem schedule_independent {β : Type} (files : FileReader Id)
    (f : SourceFile → Bytes → LogLines × Except Failure β) (found : List SourceFile) {limit : Nat}
    (hlimit : 0 < limit) :
    (WellFounded fun p' p => Step files f found limit p p') ∧
      ∀ p, ReflTransGen (Step files f found limit) .start p →
        p.busy ≤ limit ∧ (¬ p.Ended → ∃ p', Step files f found limit p p') ∧
        (p.Ended →
          ((∀ file ∈ found, ∃ b, processFile files f file = .ok b) →
            p.failure = none ∧
              ∀ i, ∃ b, processFile files f (found.get i) = .ok b ∧ p.slot i = some b) ∧
          ((∃ file ∈ found, ∃ e, processFile files f file = .error e) →
            ∃ own, p.failure = some own ∧ ∃ g ∈ found, processFile files f g = .error own) ∧
          ∀ results, (onEachFile files f found).run.2 = .ok results ↔
            p.failure = none ∧ List.ofFn p.slot = results.map some) := by
  refine ⟨step_wellFounded, fun p hrun => ?_⟩
  obtain ⟨hbusy, hsound⟩ := busy_le_and_sound_of_run hrun
  refine ⟨hbusy, exists_step hlimit, fun hended => ⟨hsound.ended_of_forall_ok hended, ?_,
    fun results => hsound.ended_iff hended⟩⟩
  rintro ⟨file, hfile, e, he⟩
  exact hsound.ended_of_exists_error hended hfile he

/-! ## A run -/

/-- Two files of which only the first is there. -/
def twoFiles : List SourceFile := [⟨"a.go", ".", "a.go"⟩, ⟨"b.go", ".", "b.go"⟩]

def oneFile : FileReader Id := ((Memory.ofRoot "/w").add "a.go" "package a\n").reader

/-- Both jobs start, the second one cannot read its file, and the first one is called off before it
has read its own. What is kept is the failure of the second. -/
theorem schedule_independent_twoFiles :
    0 < 2 ∧ ∃ p, ReflTransGen (Step oneFile (expandFile .standard) twoFiles 2) .start p ∧
      p.Ended ∧ ∃ own, p.failure = some own ∧
        ∃ g ∈ twoFiles, processFile oneFile (expandFile .standard) g = .error own := by
  have hread : (oneFile.read (twoFiles.get ⟨1, by decide⟩).path).run =
      .error (Memory.missing "file" "b.go") := rfl
  have hrun : ∃ p, ReflTransGen (Step oneFile (expandFile .standard) twoFiles 2) .start p ∧
      p.Ended := by
    refine ⟨_, .head (.start (i := ⟨0, by decide⟩) rfl (by decide)) <|
      .head (.start (i := ⟨1, by decide⟩) rfl (by decide)) <|
      .head (.proceed (i := ⟨1, by decide⟩) rfl rfl) <|
      .head (.unreadable rfl hread) <|
      .head (.keep (i := ⟨1, by decide⟩) rfl rfl) <|
      .head (.cancel (i := ⟨1, by decide⟩) rfl) <|
      .head (.giveUp (i := ⟨0, by decide⟩) rfl rfl) <|
      .head (.drop (i := ⟨0, by decide⟩) rfl nofun) .refl, ?_⟩
    rintro ⟨i, hi⟩
    match i, hi with
    | 0, _ | 1, _ => rfl
  obtain ⟨p, hp, hended⟩ := hrun
  obtain ⟨-, hall⟩ := schedule_independent oneFile (expandFile .standard) twoFiles
    (show 0 < 2 by decide)
  have hfails : ∃ file ∈ twoFiles, ∃ e,
      processFile oneFile (expandFile .standard) file = .error e :=
    ⟨_, List.get_mem _ _, _, processFile_of_error hread⟩
  exact ⟨by decide, p, hp, hended, ((hall p hp).2.2 hended).2.1 hfails⟩

end RetryWeave.Command
