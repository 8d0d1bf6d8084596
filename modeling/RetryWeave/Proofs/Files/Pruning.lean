import Mathlib
import RetryWeave.Proofs.Files.Skipping

/-! # Walks that are cut short

A visitor may skip directories and stop the walk, and what it answers may depend on all earlier visits.
The walk of a listing leaves out exactly what lies below the directories that were visited and skipped,
up to the first answer that ends it. -/

namespace RetryWeave.Files

open RetryWeave.Path

variable {σ : Type} {visit : Visitor σ} {visits rest : List Visit} {skipped : List Bytes} {s : σ}
  {v : Visit}

/-! ## Calls -/

/-- Keeps each visit with its answer, and leaves the visitor to itself otherwise. -/
def Visitor.traced (visit : Visitor σ) : Visitor (σ × List (Visit × Answer))
  | .ok v => fun (s, calls) =>
    let (a, s') := visit (.ok v) s
    (a, s', calls ++ [(v, a)])
  | .error f => fun (s, calls) =>
    let (a, s') := visit (.error f) s
    (a, s', calls)

theorem Visitor.traced_ok (visit : Visitor σ) (v : Visit) (s : σ) (calls : List (Visit × Answer)) :
    visit.traced (.ok v) (s, calls) =
      ((visit (.ok v) s).1, (visit (.ok v) s).2, calls ++ [(v, (visit (.ok v) s).1)]) :=
  rfl

/-- The visits of a walk with their answers, in order. -/
def Directory.trace (visit : Visitor σ) (dir : Directory) (s : σ) : List (Visit × Answer) :=
  (dir.walk visit.traced (s, [])).2.2

/-- An answer is a failure in which the wish to skip a directory occurs. -/
def AsksToSkip (a : Answer) : Prop := ∃ f, a = .stop f ∧ f.has .skipDir = true

theorem skips_iff {a : Answer} : a.skips = true ↔ AsksToSkip a := by
  cases a <;> simp [Answer.skips, AsksToSkip]

/-- How the answer to an entry ends the walk, if it does. A crash is told with the path of the entry. -/
def failure? : Visit × Answer → Option Failure
  | (_, .proceed) => none
  | (v, .stop f) => if f.has .skipDir && v.info.isDir then none else some f
  | (v, .crash reason) => some (.text ("walk callback panicked at " ++ v.path ++ ": " ++ reason))

/-- The directory that is skipped by an answer. -/
def skips (c : Visit × Answer) : List Bytes :=
  if c.2.skips && c.1.info.isDir then [c.1.path] else []

/-- What a walk does at an entry. -/
theorem walkListing_cons (visit : Visitor σ) (skipped : List Bytes) (v : Visit) (rest : List Visit)
    (s : σ) : walkListing visit skipped (v :: rest) s =
      if isBelowAny skipped v.path then walkListing visit skipped rest s
      else match failure? (v, (visit (.ok v) s).1) with
        | some f => (some f, (visit (.ok v) s).2)
        | none => walkListing visit (skipped ++ skips (v, (visit (.ok v) s).1)) rest
            (visit (.ok v) s).2 := by
  rw [walkListing]
  congr 1
  rcases visit (.ok v) s with ⟨a, s'⟩
  cases a with
  | proceed => simp [failure?, skips]
  | stop f =>
      cases hskips : f.has .skipDir && v.info.isDir <;>
        simp [failure?, skips, Answer.skips, Answer.failure?, hskips]
  | crash reason => simp [failure?, Answer.skips, Answer.failure?, crashFailure]

/-- The calls of a walk from some place on. -/
def callsFrom (visit : Visitor σ) (skipped : List Bytes) (rest : List Visit) (s : σ) :
    List (Visit × Answer) :=
  (walkListing visit.traced skipped rest (s, [])).2.2

/-- Keeping the calls changes nothing else, and those that are kept already stay in front. -/
theorem walkListing_traced (visit : Visitor σ) (skipped : List Bytes) (rest : List Visit) (s : σ)
    (seen : List (Visit × Answer)) :
    walkListing visit.traced skipped rest (s, seen) =
      ((walkListing visit skipped rest s).1, (walkListing visit skipped rest s).2,
        seen ++ callsFrom visit skipped rest s) := by
  induction rest generalizing skipped s seen with
  | nil => simp [walkListing, callsFrom]
  | cons v rest ih =>
      simp only [callsFrom, walkListing_cons, Visitor.traced_ok]
      by_cases hbelow : isBelowAny skipped v.path = true
      · simp only [hbelow, if_true, ih, List.nil_append]
      · simp only [hbelow, Bool.false_eq_true, if_false]
        cases failure? (v, (visit (.ok v) s).1) with
        | some f => rfl
        | none => simp only [ih, List.nil_append, List.append_assoc]

theorem callsFrom_cons (visit : Visitor σ) (skipped : List Bytes) (v : Visit) (rest : List Visit)
    (s : σ) : callsFrom visit skipped (v :: rest) s =
      if isBelowAny skipped v.path then callsFrom visit skipped rest s
      else (v, (visit (.ok v) s).1) :: match failure? (v, (visit (.ok v) s).1) with
        | some _ => []
        | none => callsFrom visit (skipped ++ skips (v, (visit (.ok v) s).1)) rest
            (visit (.ok v) s).2 := by
  rw [callsFrom, walkListing_cons]
  by_cases hbelow : isBelowAny skipped v.path = true
  · rw [if_pos hbelow, if_pos hbelow]
    rfl
  · rw [if_neg hbelow, if_neg hbelow]
    simp only [Visitor.traced_ok]
    cases failure? (v, (visit (.ok v) s).1) with
    | some f => rfl
    | none => simp only [walkListing_traced, List.nil_append, List.singleton_append]

/-! ## Where a walk comes -/

/-- How some calls are those of a walk. The entries up to the one that ends the walk are reached, and of
these all are visited that do not lie below a skipped directory. -/
structure Walked (skipped : List Bytes) (visits : List Visit) (calls : List (Visit × Answer))
    (outcome : Option Failure) (reached unreached : List Visit) : Prop where
  split : visits = reached ++ unreached
  visited : calls.map (·.1) =
    reached.filter fun v => !isBelowAny (skipped ++ calls.flatMap skips) v.path
  ended : (outcome = none ∧ unreached = [] ∧ ∀ c ∈ calls, failure? c = none) ∨
    ∃ before c, calls = before ++ [c] ∧ (∀ b ∈ before, failure? b = none) ∧
      (failure? c).isSome ∧ outcome = failure? c ∧ reached.getLast? = some c.1

theorem not_startsWith_of_le {d p : Bytes} (h : p ≤ d) :
    Bytes.startsWith (d ++ [Ascii.slash]) p = false := by
  cases hstart : Bytes.startsWith (d ++ [Ascii.slash]) p with
  | false => rfl
  | true =>
      obtain ⟨rest, rfl⟩ := Bytes.startsWith_iff.mp hstart
      rw [List.append_assoc, List.singleton_append] at h
      exact absurd (Bytes.lt_append_cons d _ rest) (List.not_lt.mpr h)

theorem mem_skips_iff {c : Visit × Answer} {d : Bytes} :
    d ∈ skips c ↔ AsksToSkip c.2 ∧ c.1.info.isDir = true ∧ c.1.path = d := by
  rw [skips, ← skips_iff]
  cases c.2.skips <;> cases c.1.info.isDir <;> simp [eq_comm]

theorem isBelowAny_skips_iff {calls : List (Visit × Answer)} {path : Bytes} :
    isBelowAny (calls.flatMap skips) path = true ↔ ∃ c ∈ calls, AsksToSkip c.2 ∧
      c.1.info.isDir = true ∧ Bytes.startsWith (c.1.path ++ [Ascii.slash]) path = true := by
  simp only [isBelowAny, List.any_eq_true, List.mem_flatMap, mem_skips_iff]
  constructor
  · rintro ⟨d, ⟨c, hc, hanswer, hdir, rfl⟩, hstart⟩
    exact ⟨c, hc, hanswer, hdir, hstart⟩
  · rintro ⟨c, hc, hanswer, hdir, hstart⟩
    exact ⟨c.1.path, ⟨c, hc, hanswer, hdir, rfl⟩, hstart⟩

theorem skips_eq_nil {c : Visit × Answer} (hfails : (failure? c).isSome) : skips c = [] := by
  refine List.eq_nil_iff_forall_not_mem.mpr fun d hd => ?_
  obtain ⟨⟨f, hanswer, hskips⟩, hdir, -⟩ := mem_skips_iff.mp hd
  obtain ⟨v, a⟩ := c
  change v.info.isDir = true at hdir
  cases hanswer
  simp [failure?, hskips, hdir] at hfails

theorem isBelowAny_append (dirs more : List Bytes) (path : Bytes) :
    isBelowAny (dirs ++ more) path = (isBelowAny dirs path || isBelowAny more path) := by
  rw [isBelowAny, List.any_append]
  rfl

namespace Walked

variable {calls : List (Visit × Answer)} {outcome : Option Failure} {reached unreached : List Visit}
  {a : Answer}

/-- An entry is passed over. -/
theorem pass (h : Walked skipped rest calls outcome reached unreached)
    (hbelow : isBelowAny skipped v.path = true) :
    Walked skipped (v :: rest) calls outcome (v :: reached) unreached where
  split := by rw [h.split]; rfl
  visited := by
    rw [h.visited, List.filter_cons_of_neg]
    simp [isBelowAny_append, hbelow]
  ended := by
    refine h.ended.imp_right ?_
    rintro ⟨before, c, hcalls, hbefore, hfails, houtcome, hlast⟩
    refine ⟨before, c, hcalls, hbefore, hfails, houtcome, ?_⟩
    rw [List.getLast?_cons, hlast, Option.getD_some]

/-- The answer to an entry ends the walk. -/
theorem stop (hbelow : ¬ isBelowAny skipped v.path = true) (hfails : (failure? (v, a)).isSome) :
    Walked skipped (v :: rest) [(v, a)] (failure? (v, a)) [v] rest where
  split := rfl
  visited := by
    simp [skips_eq_nil hfails, hbelow]
  ended := .inr ⟨[], (v, a), rfl, nofun, hfails, rfl, rfl⟩

/-- An entry is visited and the walk goes on. What is skipped later does not hide the entry, as a
directory comes before all that its text begins. -/
theorem proceed (h : Walked (skipped ++ skips (v, a)) rest calls outcome reached unreached)
    (hbelow : ¬ isBelowAny skipped v.path = true) (hproceeds : failure? (v, a) = none)
    (hfirst : ∀ u ∈ rest, v.path < u.path) :
    Walked skipped (v :: rest) ((v, a) :: calls) outcome (v :: reached) unreached where
  split := by rw [h.split]; rfl
  visited := by
    have hself : isBelowAny (((v, a) :: calls).flatMap skips) v.path = false := by
      rw [isBelowAny, List.any_eq_false]
      intro d hd
      obtain ⟨c, hc, hskips⟩ := List.mem_flatMap.mp hd
      obtain ⟨-, -, rfl⟩ := mem_skips_iff.mp hskips
      have hle : v.path ≤ c.1.path := by
        rcases List.mem_cons.mp hc with rfl | hc
        · exact List.le_refl _
        · have hmem : c.1 ∈ reached := List.mem_of_mem_filter (h.visited ▸ List.mem_map_of_mem hc)
          exact List.le_of_lt (hfirst c.1 (by simp [h.split, hmem]))
      rw [not_startsWith_of_le hle]
      exact Bool.false_ne_true
    have hshown : (!isBelowAny (skipped ++ ((v, a) :: calls).flatMap skips) v.path) = true := by
      rw [isBelowAny_append, hself]
      simpa using hbelow
    rw [List.filter_cons_of_pos (by exact hshown), List.map_cons, h.visited, List.flatMap_cons, List.append_assoc]
  ended := by
    rcases h.ended with ⟨houtcome, hnone, hcalls⟩ |
      ⟨before, c, hcalls, hbefore, hfails, houtcome, hlast⟩
    · exact .inl ⟨houtcome, hnone, List.forall_mem_cons.mpr ⟨hproceeds, hcalls⟩⟩
    · refine .inr ⟨(v, a) :: before, c, by rw [hcalls]; rfl,
        List.forall_mem_cons.mpr ⟨hproceeds, hbefore⟩, hfails, houtcome, ?_⟩
      rw [List.getLast?_cons, hlast, Option.getD_some]

theorem sublist (h : Walked skipped visits calls outcome reached unreached) :
    (calls.map (·.1)).Sublist visits := by
  rw [h.visited, h.split]
  exact List.filter_sublist.trans (List.sublist_append_left _ _)

/-- The first answer that ends the walk tells how it ends. -/
theorem outcome_eq (h : Walked skipped visits calls outcome reached unreached) :
    outcome = calls.findSome? failure? := by
  rcases h.ended with ⟨rfl, -, hcalls⟩ | ⟨before, c, rfl, hbefore, -, houtcome, -⟩
  · exact (List.findSome?_eq_none_iff.mpr hcalls).symm
  · rw [List.findSome?_append, List.findSome?_eq_none_iff.mpr hbefore, Option.none_or,
      List.findSome?_singleton, houtcome]

theorem eq_nil_of_failure (h : Walked skipped visits calls outcome reached unreached)
    {before after : List (Visit × Answer)} {c : Visit × Answer} (hcalls : calls = before ++ c :: after)
    (hfails : (failure? c).isSome) : after = [] := by
  rcases h.ended with ⟨-, -, hnone⟩ | ⟨earlier, last, heq, hearlier, -⟩
  · rw [hnone c (by simp [hcalls])] at hfails
    cases hfails
  · rcases List.eq_nil_or_concat after with rfl | ⟨more, final, rfl⟩
    · rfl
    · rw [hcalls, List.concat_eq_append, ← List.cons_append, ← List.append_assoc] at heq
      have hmem : c ∈ earlier := (List.append_inj_left' heq rfl) ▸ by simp
      rw [hearlier c hmem] at hfails
      cases hfails

/-- An answer that ends the walk tells how it ends. -/
theorem outcome_of_failure (h : Walked skipped visits calls outcome reached unreached)
    {before after : List (Visit × Answer)} {c : Visit × Answer} {f : Failure}
    (hcalls : calls = before ++ c :: after) (hfails : failure? c = some f) : outcome = some f := by
  rcases h.ended with ⟨-, -, hnone⟩ | ⟨earlier, last, heq, hearlier, -, houtcome, -⟩
  · rw [hnone c (by simp [hcalls])] at hfails
    cases hfails
  · obtain rfl := h.eq_nil_of_failure hcalls (Option.isSome_of_eq_some hfails)
    obtain rfl : last = c := by
      have hlast := congrArg List.getLast? (heq.symm.trans hcalls)
      simpa using hlast
    rw [houtcome, hfails]

/-- An entry is reached unless an earlier one ends the walk. -/
theorem mem_reached (h : Walked skipped visits calls outcome reached unreached)
    {before after : List Visit} (hvisits : visits = before ++ v :: after)
    (hproceeds : ∀ c ∈ calls, c.1 ∈ before → failure? c = none) : v ∈ reached := by
  by_contra hv
  obtain ⟨more, hbefore, hunreached⟩ :
      ∃ more, before = reached ++ more ∧ unreached = more ++ v :: after := by
    rcases List.append_eq_append_iff.mp (h.split.symm.trans hvisits) with hcases | hcases
    · exact hcases
    · obtain ⟨more, hreached, hafter⟩ := hcases
      cases more with
      | nil => exact ⟨[], by simpa using hreached.symm, hafter.symm⟩
      | cons first more =>
          obtain ⟨rfl, -⟩ := List.cons.inj hafter
          exact absurd (by simp [hreached]) hv
  rcases h.ended with ⟨-, hnone, -⟩ | ⟨earlier, c, hcalls, -, hfails, -, hlast⟩
  · simp [hnone] at hunreached
  · have hmem : c.1 ∈ before := by
      rw [hbefore]
      exact List.mem_append_left _ (List.mem_of_getLast? hlast)
    rw [hproceeds c (by simp [hcalls]) hmem] at hfails
    cases hfails

/-- An entry that is reached is left out if and only if it lies below a skipped directory. -/
theorem notMem_iff (h : Walked skipped visits calls outcome reached unreached) (hv : v ∈ reached) :
    v ∉ calls.map (·.1) ↔ isBelowAny (skipped ++ calls.flatMap skips) v.path = true := by
  rw [h.visited, List.mem_filter, not_and, Bool.not_eq_true, Bool.not_eq_false']
  exact ⟨fun himp => himp hv, fun hbelow _ => hbelow⟩

end Walked

theorem walked_from (visit : Visitor σ) (skipped : List Bytes)
    (horder : rest.Pairwise (·.path < ·.path)) (s : σ) :
    ∃ reached unreached, Walked skipped rest (callsFrom visit skipped rest s)
      (walkListing visit skipped rest s).1 reached unreached := by
  induction rest generalizing skipped s with
  | nil => exact ⟨[], [], rfl, rfl, .inl ⟨rfl, rfl, nofun⟩⟩
  | cons v rest ih =>
      obtain ⟨hfirst, horder⟩ := List.pairwise_cons.mp horder
      rw [callsFrom_cons, walkListing_cons]
      by_cases hbelow : isBelowAny skipped v.path = true
      · rw [if_pos hbelow, if_pos hbelow]
        obtain ⟨reached, unreached, h⟩ := ih skipped horder s
        exact ⟨v :: reached, unreached, h.pass hbelow⟩
      · rw [if_neg hbelow, if_neg hbelow]
        generalize (visit (.ok v) s).1 = a
        cases hfailure : failure? (v, a) with
        | some f =>
            refine ⟨[v], rest, ?_⟩
            have hstop : Walked skipped (v :: rest) [(v, a)] (failure? (v, a)) [v] rest :=
              .stop hbelow (Option.isSome_of_eq_some hfailure)
            rwa [hfailure] at hstop
        | none =>
            obtain ⟨reached, unreached, h⟩ := ih (skipped ++ skips (v, a)) horder (visit (.ok v) s).2
            exact ⟨v :: reached, unreached, h.proceed hbelow hfailure hfirst⟩

/-! ## Walks of directories -/

namespace Memory

variable {m : Memory} {d a p : Bytes} {u : Visit}

theorem lt_of_above (hp : IsClean p) (h : Above a p) (hdot : a ≠ [Ascii.dot]) : a < p := by
  by_cases htop : Topmost a
  · obtain rfl := htop.resolve_right hdot
    obtain ⟨-, habs, -, hne⟩ := (above_iff hp).mp h
    obtain ⟨b, rest, rfl⟩ := List.exists_cons_of_ne_nil hp.ne_nil
    obtain rfl : b = Ascii.slash := by simpa [isAbs] using habs.symm
    refine List.cons_lt_cons_iff.mpr (.inr ⟨rfl, ?_⟩)
    cases rest with
    | nil => exact absurd rfl hne
    | cons c rest => exact List.nil_lt_cons _ _
  · have hstart := (startsWith_append_slash_iff (h.isClean hp) hp).mpr ⟨htop, h⟩
    obtain ⟨rest, rfl⟩ := Bytes.startsWith_iff.mp hstart
    rw [List.append_assoc, List.singleton_append]
    exact Bytes.lt_append_cons _ _ _

/-- What is known of the path of an entry that is listed. -/
theorem path_of_mem_listing (hm : m.Sound) (hd : IsClean d) (hv : v ∈ m.listing d) :
    IsClean v.path ∧ isAbs v.path = isAbs d ∧ (Topmost v.path → v.path = d) ∧
      (d = [Ascii.dot] → v.path = d) := by
  obtain ⟨p, e, hentry, hunder, rfl⟩ := (mem_listing_iff hm).mp hv
  have hp := hm.isClean_of_entry? hentry
  obtain ⟨habs, more, hmore⟩ := exists_more_of_isUnder hd hp hunder
  refine ⟨hp, habs, fun htop => ?_, fun hdot => ?_⟩
  · have hnil := (topmost_iff hp).mp htop
    rw [hmore, List.append_eq_nil_iff] at hnil
    exact hp.ext hd habs (by rw [hmore, hnil.1, hnil.2]; rfl)
  · exact ((isUnder_iff hd hp).mp hunder).resolve_right fun h => h.1 hdot

/-- A listing has every directory before what is below it. -/
theorem not_above_listing (hm : m.Sound) (hd : IsClean d) :
    (m.listing d).Pairwise fun u v => ¬ Above v.path u.path := by
  refine (pairwise_listing hm d).imp_of_mem fun {u v} hu hv hlt habove => ?_
  obtain ⟨hclean, -, -, hsame⟩ := path_of_mem_listing hm hd hu
  by_cases hdot : v.path = [Ascii.dot]
  · have hpath := (path_of_mem_listing hm hd hv).2.2.1 (.inr hdot)
    exact habove.1 (hpath.trans (hsame (hpath.symm.trans hdot)).symm)
  · exact List.lt_asymm hlt (lt_of_above hclean habove hdot)

/-- What a visitor skips and where it stops in the walk of any directory. It must not ask to skip the
directory itself. -/
theorem walk_skips_and_stops {root path : Bytes} {ops : List Operation} {dir : Directory}
    (h : ((ofRoot root).run ops).openDir path = .ok dir) (visit : Visitor σ) (s : σ)
    (hself : ∀ c ∈ dir.trace visit s, c.1.path = dir.path → ¬ AsksToSkip c.2) :
    let calls := dir.trace visit s
    dir.walk visit.traced (s, []) = ((dir.walk visit s).1, (dir.walk visit s).2, calls) ∧
    (calls.map (·.1)).Sublist dir.visited ∧
    (calls.map (·.1)).Pairwise (fun u v => ¬ Above v.path u.path) ∧
    (∀ before v after, dir.visited = before ++ v :: after →
      (∀ c ∈ calls, c.1 ∈ before → failure? c = none) →
      (v ∉ calls.map (·.1) ↔
        ∃ c ∈ calls, AsksToSkip c.2 ∧ c.1.info.isDir = true ∧ Above c.1.path v.path)) ∧
    (∀ before c after, calls = before ++ c :: after → (failure? c).isSome → after = []) ∧
    (dir.walk visit s).1 = calls.findSome? failure? ∧
    (∀ c ∈ calls, ∀ reason, c.2 = .crash reason → (dir.walk visit s).1 =
      some (.text ("walk callback panicked at " ++ c.1.path ++ ": " ++ reason))) ∧
    (isAbs dir.path = true → ∀ u ∈ dir.visited, ∀ v ∈ dir.visited,
      Above u.path v.path ↔ Below u.path v.path) := by
  have hm : ((ofRoot root).run ops).Sound := (sound_ofRoot root).run ops
  generalize (ofRoot root).run ops = m at h hm
  obtain ⟨-, rfl⟩ := openDir_eq_ok h
  have hd : IsClean (m.resolve path) := isClean_resolve hm.root_clean path
  generalize m.resolve path = d at h hd hself
  obtain ⟨reached, unreached, hwalked⟩ := walked_from visit [] (pairwise_listing hm d) s
  have hcalls : (Directory.listing d (m.listing d)).trace visit s =
      callsFrom visit [] (m.listing d) s := rfl
  have hmem : ∀ c ∈ callsFrom visit [] (m.listing d) s, c.1 ∈ m.listing d := fun c hc =>
    hwalked.sublist.subset (List.mem_map_of_mem hc)
  rw [hcalls] at hself
  simp only [visited_listing, hcalls]
  refine ⟨?_, hwalked.sublist, (not_above_listing hm hd).sublist hwalked.sublist,
    fun before v after hvisits hproceeds => ?_, fun before c after => hwalked.eq_nil_of_failure,
    hwalked.outcome_eq, ?_, fun habs u hu v hv => ?_⟩
  · simp only [Directory.walk, walkListing_traced, List.nil_append]
  · have hv : v ∈ m.listing d := by simp [hvisits]
    have hclean := (path_of_mem_listing hm hd hv).1
    rw [hwalked.notMem_iff (hwalked.mem_reached hvisits hproceeds), List.nil_append,
      isBelowAny_skips_iff]
    refine exists_congr fun c => and_congr_right fun hc => and_congr_right fun hanswer =>
      and_congr_right fun _ => ?_
    obtain ⟨hcclean, -, htop, -⟩ := path_of_mem_listing hm hd (hmem c hc)
    rw [startsWith_append_slash_iff hcclean hclean, and_iff_right]
    exact fun htopmost => hself c hc (htop htopmost) hanswer
  · rintro ⟨v, a⟩ hc reason rfl
    obtain ⟨before, after, hsplit⟩ := List.append_of_mem hc
    exact hwalked.outcome_of_failure hsplit rfl
  · obtain ⟨huclean, huabs, -, -⟩ := path_of_mem_listing hm hd hu
    exact above_iff_below huclean (path_of_mem_listing hm hd hv).1 (huabs.trans habs)

/-- Two directories with a file each, and two files beside them. -/
def twoDirectories : List Operation :=
  [.add "a/x" "1", .add "a.b" "2", .add "b/y" "3", .add "c" "4"]

/-- Skips the second entry that it sees, and crashes at the fifth. -/
def impatient : Visitor Nat
  | .ok _ => fun n =>
    (if n = 1 then .stop (.wrap "enough of this: " (.cause .skipDir) [])
      else if n = 4 then .crash "index out of range" else .proceed, n + 1)
  | .error f => fun n => (.stop f, n)

/-- What is below the skipped directory is left out though other entries stand between, and the last
entry is not reached. The failure tells where the visitor crashed. -/
theorem walk_skips_and_stops_impatient :
    ∃ dir, ((ofRoot "/r").run twoDirectories).openDir "" = .ok dir ∧
      (∀ c ∈ dir.trace impatient 0, c.1.path = dir.path → ¬ AsksToSkip c.2) ∧
      (dir.trace impatient 0).map (·.1.path) = ["/r", "/r/a", "/r/a.b", "/r/b", "/r/b/y"] ∧
      ((dir.trace impatient 0).map (·.1)).Sublist dir.visited ∧
      (dir.walk impatient 0).1 =
        some (.text "walk callback panicked at /r/b/y: index out of range") := by
  have hopen : ((ofRoot "/r").run twoDirectories).openDir "" =
      .ok (.listing "/r" (((ofRoot "/r").run twoDirectories).listing "/r")) := rfl
  have hcalls : (Directory.listing "/r" (((ofRoot "/r").run twoDirectories).listing "/r")).trace
      impatient 0 = [(⟨"/r", ".", ⟨"r", true, 0, 0o755⟩⟩, .proceed),
        (⟨"/r/a", "a", ⟨"a", true, 0, 0o755⟩⟩,
          .stop (.wrap "enough of this: " (.cause .skipDir) [])),
        (⟨"/r/a.b", "a.b", ⟨"a.b", false, 1, 0o644⟩⟩, .proceed),
        (⟨"/r/b", "b", ⟨"b", true, 0, 0o755⟩⟩, .proceed),
        (⟨"/r/b/y", "b/y", ⟨"y", false, 1, 0o644⟩⟩, .crash "index out of range")] := by
    cbv
  have hself : ∀ c ∈ (Directory.listing "/r" (((ofRoot "/r").run twoDirectories).listing
      "/r")).trace impatient 0, c.1.path = Bytes.ofString "/r" → ¬ AsksToSkip c.2 := by
    have hne : Bytes.ofString "/r/a" ≠ Bytes.ofString "/r" := by decide
    simp [hcalls, ← skips_iff, Answer.skips, hne]
  obtain ⟨-, hvisited, -, -, -, -, hcrash, -⟩ := walk_skips_and_stops hopen impatient 0 hself
  refine ⟨_, hopen, hself, by rw [hcalls]; rfl, hvisited, ?_⟩
  exact hcrash _ (by rw [hcalls]; exact List.getLast_mem (by simp)) "index out of range" rfl

end Memory

end RetryWeave.Files
