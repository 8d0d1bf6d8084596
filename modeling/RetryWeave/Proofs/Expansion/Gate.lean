import RetryWeave.Proofs.Expansion.Stages
import RetryWeave.Proofs.Splice.Frame

/-! # What a check promises

A check reads a source and rules on its directives. An expansion does the same and then goes on, so
that it can still fail: when the edited text cannot be read. This happens where a directive holds a
carriage return, of which its text knows nothing. -/

namespace RetryWeave

open Syntax

/-! ## Carriage returns -/

/-- As many of the last bytes of a line comment lie behind its end as there are carriage returns in
it. -/
theorem Syntax.Comment.Fits.stop_add_count {src : Bytes} {c : Comment} (h : c.Fits src)
    (hline : c.isLine = true) :
    c.stop + (c.rawLine src).count Ascii.cr = c.start + (c.rawLine src).length := by
  have hlength := List.length_eq_countP_add_countP (fun b => decide (b ≠ Ascii.cr))
    (l := c.rawLine src)
  rw [Comment.stop, h.text_line hline, ← List.countP_eq_length_filter, hlength, Nat.add_assoc]
  congr 2
  rw [List.count]
  exact List.countP_congr fun b _ => by simp

/-! ## Failing -/

section

variable {o : Options} {name src : Bytes} {p : Plan}

theorem checkText_of_some (h : Plan.ofSource? o name src = some p) :
    checkText o name src = .ok (p.diagnostics, p.log o) := by
  rw [checkText, h]

theorem checkText_eq_error_iff {err : ExpandError} :
    checkText o name src = .error err ↔ parseFile? name src = none ∧ err = .unparsable := by
  rw [← Plan.ofSource?_eq_none (o := o)]
  cases hp : Plan.ofSource? o name src with
  | none => simp [checkText, hp, eq_comm]
  | some p => simp [checkText, hp]

/-- Once a source is read, an expansion fails exactly when a later stage does. -/
theorem expandText_eq_error_iff (h : Plan.ofSource? o name src = some p) {err : ExpandError} :
    expandText o name src = .error err ↔ p.expansions ≠ [] ∧ p.FailsAt o name src err := by
  constructor
  · intro herr
    rcases expandText_cases h with ⟨f, x, hx, -⟩ | ⟨err', herr', hfails⟩
    · cases herr.symm.trans hx
    · cases herr.symm.trans herr'
      exact hfails
  · rintro ⟨hne, hfails⟩
    cases hfails with
    | edited hformat => simp [expandText, h, hne, hformat]
    | output hformat hread => simp [expandText, h, hne, hformat, hread]
    | lost hformat hread he =>
        simp [expandText, h, hne, hformat, hread, mapEntries_eq_error.mpr ⟨_, he, rfl⟩]

/-- A removed directive loses its text only: as many of its last bytes stay behind as it has carriage
returns. -/
theorem Plan.stop_add_count (h : Plan.ofSource? o name src = some p) {e : Expansion}
    (he : e ∈ p.expansions) {c : Comment} (hc : c ∈ e.comments) :
    (Edit.ofComment src c).Removes src c ∧
      c.stop + (c.rawLine src).count Ascii.cr = c.start + (c.rawLine src).length := by
  obtain ⟨l, -, hplaced⟩ := exists_filePlaced (Plan.ofSource?_eq_some h).1
  obtain ⟨g, hg⟩ := (Plan.expansions_spec h hplaced).1 e he
  have hfits := hplaced.placed.comment_fits g hg.group_mem c (hg.comment_mem hc)
  exact ⟨Edit.removes_ofComment hfits, hfits.stop_add_count (hg.isLine hc)⟩

end

/-- A check fails exactly when a source cannot be read, and an expansion fails then, too. Once the
source is read, both report the same; but the expansion still fails if there is something to expand
and the edited text or the output cannot be read, or a function is missing in it. -/
theorem check_expand_failures (o : Options) (name src : Bytes) :
    (∀ err, checkText o name src = .error err ↔
      parseFile? name src = none ∧ err = .unparsable) ∧
    (parseFile? name src = none → expandText o name src = .error .unparsable) ∧
    ∀ p, Plan.ofSource? o name src = some p →
      checkText o name src = .ok (p.diagnostics, p.log o) ∧
      (∀ x, expandText o name src = .ok x → x.diagnostics = p.diagnostics ∧ x.log = p.log o) ∧
      (∀ err, expandText o name src = .error err ↔
        p.expansions ≠ [] ∧ p.FailsAt o name src err) ∧
      ∀ e ∈ p.expansions, ∀ c ∈ e.comments, (Edit.ofComment src c).Removes src c ∧
        c.stop + (c.rawLine src).count Ascii.cr = c.start + (c.rawLine src).length := by
  refine ⟨fun err => checkText_eq_error_iff,
    fun hnone => expandText_of_none (Plan.ofSource?_eq_none.mpr hnone), fun p hp => ?_⟩
  refine ⟨checkText_of_some hp, fun x hx => ?_, fun err => expandText_eq_error_iff hp,
    fun e he c hc => Plan.stop_add_count hp he hc⟩
  obtain ⟨p', f, hfrom⟩ := exists_from hx
  obtain rfl : p = p' := Option.some.inj (hp.symm.trans hfrom.plan)
  exact ⟨hfrom.diagnostics, hfrom.log⟩

/-- A carriage return in a directive. -/
def returnSource : Bytes :=
  "package p\n\n//retry:onfailure \r3\nfunc f() error \x7b return nil \x7d\n"

theorem exists_plan_returnSource : ∃ p, Plan.ofSource? .standard "a.go" returnSource = some p ∧
    p.diagnostics = [] ∧ p.expansions ≠ [] ∧ Layout.format? (p.edited returnSource) = none := by
  have hstages : ∃ p ∈ Plan.ofSource? .standard "a.go" returnSource, p.diagnostics = [] ∧
      p.expansions ≠ [] ∧
      ((p.expansions.reverse.flatMap (·.edits returnSource)).map (·.start)).Pairwise (· > ·) ∧
      Layout.format? ((p.expansions.reverse.flatMap (·.edits returnSource)).foldl Edit.apply
        returnSource) = none := by decide +kernel
  obtain ⟨p, hp, hclean, hne, hordered, hformat⟩ := hstages
  rw [← p.edited_eq_foldl hordered] at hformat
  exact ⟨p, hp, hclean, hne, hformat⟩

theorem check_expand_failures_returnSource : ∃ p,
    Plan.ofSource? .standard "a.go" returnSource = some p ∧ p.expansions ≠ [] ∧
    expandText .standard "a.go" returnSource = .error (.unformattable (p.log .standard)) ∧
    ∀ e ∈ p.expansions, ∀ c ∈ e.comments, c.stop + (c.rawLine returnSource).count Ascii.cr =
      c.start + (c.rawLine returnSource).length := by
  obtain ⟨p, hp, -, hne, hformat⟩ := exists_plan_returnSource
  obtain ⟨-, -, hread⟩ := check_expand_failures .standard "a.go" returnSource
  obtain ⟨-, -, hfails, hreturns⟩ := hread p hp
  exact ⟨p, hp, hne, (hfails _).mpr ⟨hne, .edited hformat⟩,
    fun e he c hc => (hreturns e he c hc).2⟩

/-- The check passes, but the last byte of the directive stays in front of the function. -/
theorem check_passes_expand_fails : ∃ log,
    checkText .standard "a.go" returnSource = .ok ([], log) ∧
    expandText .standard "a.go" returnSource = .error (.unformattable log) := by
  obtain ⟨p, hp, hdiagnostics, hne, hformat⟩ := exists_plan_returnSource
  refine ⟨p.log .standard, ?_, (expandText_eq_error_iff hp).mpr ⟨hne, .edited hformat⟩⟩
  rw [checkText_of_some hp, hdiagnostics]

end RetryWeave
