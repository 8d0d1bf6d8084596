import RetryWeave.Proofs.Expansion.Stages
import RetryWeave.Proofs.Splice.Frame
import RetryWeave.Proofs.Text.Runes

/-! # Expanding an output again

A file without directives is left as it is. When all directives of a source are expanded, each of
them is removed; expanding the output changes nothing, unless a directive came into being in it. -/

namespace RetryWeave

open Syntax

/-! ## Which comments are directives -/

namespace Directive

variable {name text : Bytes}

/-- How a directive begins. -/
def opening (name : Bytes) : Bytes := "//" ++ name

theorem args?_opening (name : Bytes) : args? name (opening name) = some [] := by
  have hstrip := Bytes.stripStart?_append (opening name) []
  rw [List.append_nil] at hstrip
  rw [args?, ← opening, hstrip]

theorem isSome_args?_append_cons (name : Bytes) (b : UInt8) (rest : Bytes) :
    (args? name (opening name ++ b :: rest)).isSome = Ascii.isBlank b := by
  rw [args?, ← opening, Bytes.stripStart?_append]
  cases h : Ascii.isBlank b <;> simp [h]

theorem exists_append_of_isSome (h : (args? name text).isSome = true) :
    ∃ rest, text = opening name ++ rest := by
  unfold args? at h
  split at h
  · cases h
  all_goals
    rename_i hstrip
    exact ⟨_, Bytes.stripStart?_eq_some_iff.mp hstrip⟩

/-- Without the white space at its end, a comment becomes a directive if and only if it is the name
of the directive with white space after it that does not start with a blank. -/
theorem isSome_args?_trimRight_iff (h : args? name text = none) :
    (args? name (Bytes.trimRight text)).isSome = true ↔ ∃ b rest,
      text = opening name ++ b :: rest ∧ Ascii.isBlank b = false ∧
        Bytes.trimRight text = opening name := by
  obtain ⟨space, hspace⟩ := Bytes.trimRight_prefix text
  constructor
  · intro hsome
    obtain ⟨rest, hrest⟩ := exists_append_of_isSome hsome
    rw [hrest, List.append_assoc] at hspace
    cases rest with
    | nil =>
        cases space with
        | nil =>
            rw [← hspace, List.append_nil, List.append_nil, args?_opening] at h
            cases h
        | cons b rest =>
            refine ⟨b, rest, hspace.symm, ?_, by rw [hrest, List.append_nil]⟩
            rw [← isSome_args?_append_cons name b rest, show opening name ++ b :: rest = text from
              hspace, h]
            rfl
    | cons b rest =>
        -- the blank after the name was there before
        rw [hrest, isSome_args?_append_cons] at hsome
        have hbefore := isSome_args?_append_cons name b (rest ++ space)
        rw [show opening name ++ b :: (rest ++ space) = text from hspace, h, hsome] at hbefore
        cases hbefore
  · rintro ⟨b, rest, -, -, htrim⟩
    rw [htrim, args?_opening]
    rfl

end Directive

/-! ## Files without directives -/

/-- A comment of the file is a directive. -/
def HasDirective (name : Bytes) (f : File) : Prop :=
  ∃ g ∈ f.comments, ∃ c ∈ g.list, (Directive.args? name c.text).isSome = true

namespace Plan

variable {o : Options} {name src : Bytes} {p : Plan}

theorem rulings_eq_nil_iff (h : ofSource? o name src = some p) :
    p.rulings = [] ↔ ¬ HasDirective o.directive p.file := by
  rw [(ofSource?_eq_some h).2, List.map_eq_nil_iff, DirectiveGroup.ofFile,
    List.flatMap_eq_nil_iff]
  constructor
  · rintro hnil ⟨g, hg, c, hc, hdirective⟩
    obtain ⟨d, hd, -⟩ := DirectiveGroup.mem_comments_ofComments_iff.mpr ⟨hc, hdirective⟩
    rw [hnil g hg] at hd
    cases hd
  · intro hnone g hg
    refine List.eq_nil_iff_forall_not_mem.mpr fun d hd => hnone ?_
    obtain ⟨hmem, hdirective⟩ := DirectiveGroup.first_mem_of_mem_ofComments hd
    exact ⟨g, hg, _, hmem, hdirective⟩

theorem rulings_eq_nil (hdiagnostics : p.diagnostics = []) (hexpansions : p.expansions = []) :
    p.rulings = [] := by
  have hlength := p.length_diagnostics_add_expansions
  rw [hdiagnostics, hexpansions] at hlength
  exact List.eq_nil_of_length_eq_zero hlength.symm

/-- Without diagnostics, every directive belongs to an expansion. -/
theorem exists_expansion_of_directive (h : ofSource? o name src = some p)
    (hclean : p.diagnostics = []) {g : CommentGroup} (hg : g ∈ p.file.comments) {c : Comment}
    (hc : c ∈ g.list) (hdirective : (Directive.args? o.directive c.text).isSome = true) :
    ∃ e ∈ p.expansions, c ∈ e.comments := by
  obtain ⟨d, hd, hcd⟩ := DirectiveGroup.mem_comments_ofComments_iff.mpr ⟨hc, hdirective⟩
  have hruling : rule o name p.file p.file.idents d ∈ p.rulings := by
    rw [(ofSource?_eq_some h).2]
    exact List.mem_map_of_mem (List.mem_flatMap.mpr ⟨g, hg, hd⟩)
  cases hrule : rule o name p.file p.file.idents d with
  | rejected diagnostic =>
      have hmem : diagnostic ∈ p.diagnostics :=
        List.mem_filterMap.mpr ⟨_, hruling, by rw [hrule]; rfl⟩
      rw [hclean] at hmem
      cases hmem
  | accepted e =>
      refine ⟨e, List.mem_filterMap.mpr ⟨_, hruling, by rw [hrule]; rfl⟩, ?_⟩
      rw [(builtFor_of_rule (by rw [hrule]; rfl)).comments]
      exact hcd

/-- Without diagnostics, every directive is removed. -/
theorem exists_removes (h : ofSource? o name src = some p) (hclean : p.diagnostics = [])
    {g : CommentGroup} (hg : g ∈ p.file.comments) {c : Comment} (hc : c ∈ g.list)
    (hdirective : (Directive.args? o.directive c.text).isSome = true) :
    ∃ ed ∈ p.edits src, ed.Removes src c := by
  obtain ⟨l, -, hplaced⟩ := exists_filePlaced (ofSource?_eq_some h).1
  obtain ⟨e, he, hce⟩ := exists_expansion_of_directive h hclean hg hc hdirective
  refine ⟨Edit.ofComment src c, List.mem_flatMap.mpr ⟨e, he, ?_⟩,
    Edit.removes_ofComment (hplaced.placed.comment_fits g hg c hc)⟩
  exact List.mem_cons_of_mem _ (List.mem_map_of_mem hce)

end Plan

/-- A file is left as it is if and only if it has no directive. -/
theorem expandText_unchanged_iff {o : Options} {name text : Bytes} {f : File}
    (hf : parseFile? name text = some f) :
    expandText o name text = .ok ⟨text, [], 0, [], []⟩ ↔ ¬ HasDirective o.directive f := by
  obtain ⟨p, hp⟩ : ∃ p, Plan.ofSource? o name text = some p := by
    rw [Plan.ofSource?, hf]
    exact ⟨_, rfl⟩
  obtain rfl : f = p.file := Option.some.inj (hf.symm.trans (Plan.ofSource?_eq_some hp).1)
  rw [← Plan.rulings_eq_nil_iff hp]
  constructor
  · intro hok
    obtain ⟨p', f', hfrom⟩ := exists_from hok
    obtain rfl : p = p' := Option.some.inj (hp.symm.trans hfrom.plan)
    exact Plan.rulings_eq_nil hfrom.diagnostics.symm
      (List.eq_nil_of_length_eq_zero hfrom.count.symm)
  · intro hnil
    have hexpansions : p.expansions = [] := by rw [Plan.expansions, hnil]; rfl
    rw [expandText_of_nil hp hexpansions, Plan.diagnostics, Plan.log, hnil]
    rfl

section

variable {o : Options} {name src : Bytes} {x : Expanded}

/-- When every directive of a source is expanded, each of them is removed. Another comment becomes a
directive by the loss of its trailing white space only if it is the name of the directive and white
space. Which comments come out is up to the layout of the output, so that it is the output that is
asked: it is left as it is if and only if no directive came into being in it. -/
theorem rerun_unchanged_iff (h : expandText o name src = .ok x) (hclean : x.diagnostics = []) :
    ∃ p f, Plan.ofSource? o name src = some p ∧ parseFile? name x.output = some f ∧
      (∀ g ∈ p.file.comments, ∀ c ∈ g.list,
        (Directive.args? o.directive c.text).isSome = true → ∃ ed ∈ p.edits src, ed.Removes src c) ∧
      (∀ g ∈ p.file.comments, ∀ c ∈ g.list, Directive.args? o.directive c.text = none →
        ((Directive.args? o.directive (Bytes.trimRight c.text)).isSome = true ↔
          ∃ b rest, c.text = Directive.opening o.directive ++ b :: rest ∧ Ascii.isBlank b = false ∧
            Bytes.trimRight c.text = Directive.opening o.directive)) ∧
      (expandText o name x.output = .ok ⟨x.output, [], 0, [], []⟩ ↔
        ¬ HasDirective o.directive f) := by
  obtain ⟨p, f, hfrom⟩ := exists_from h
  have hdiagnostics : p.diagnostics = [] := hfrom.diagnostics.symm.trans hclean
  exact ⟨p, f, hfrom.plan, hfrom.file,
    fun g hg c hc => Plan.exists_removes hfrom.plan hdiagnostics hg hc,
    fun g hg c hc => Directive.isSome_args?_trimRight_iff,
    expandText_unchanged_iff hfrom.file⟩

end

theorem rerun_unchanged_iff_pairSource : ∃ x,
    expandText .standard "a.go" pairSource = .ok x ∧ x.diagnostics = [] ∧ x.output = pairOutput ∧
    expandText .standard "a.go" x.output = .ok ⟨x.output, [], 0, [], []⟩ := by
  obtain ⟨p, f, x, hx, hfrom, houtput, hclean, -, hnone, -⟩ := exists_from_pairSource
  obtain ⟨-, f', -, hf, -, -, hiff⟩ := rerun_unchanged_iff hx hclean
  obtain rfl : f = f' := Option.some.inj (hfrom.file.symm.trans hf)
  refine ⟨x, hx, hclean, houtput, hiff.mpr ?_⟩
  rintro ⟨g, hg, -⟩
  rw [hnone] at hg
  cases hg

/-- The second function has a comment that is no directive, since a vertical tab ends it. -/
def tabbedSource : Bytes :=
  "package p\n\n//retry:onfailure 3\nfunc f() error \x7b return nil \x7d\n\n" ++
    "//retry:onfailure\x0b\nfunc g() error \x7b return nil \x7d\n"

def tabbedOutput : Bytes :=
  "package p\n\n" ++ retriedText "f" ++
    "\n//retry:onfailure\nfunc g() error \x7b return nil \x7d\n"

/-- Without the tab it is a directive, and the second run expands the second function. -/
theorem rerun_expands_trimmed_comment : ∃ x p,
    expandText .standard "a.go" tabbedSource = .ok x ∧ x.diagnostics = [] ∧
    x.output = tabbedOutput ∧ Plan.ofSource? .standard "a.go" x.output = some p ∧
    p.expansions.map (·.name) = [Bytes.ofString "g"] ∧
    ∀ map log, expandText .standard "a.go" x.output ≠ .ok ⟨x.output, [], 0, map, log⟩ := by
  obtain ⟨-, -, x, hx, -, houtput, hclean, -, hagain⟩ :
      ∃ p f x, expandText .standard "a.go" tabbedSource = .ok x ∧
        x.From .standard "a.go" tabbedSource p f ∧ x.output = tabbedOutput ∧ x.diagnostics = [] ∧
        x.map = [⟨3, 17, "a.go", 4, "f", 3⟩] ∧
        (Plan.ofSource? .standard "a.go" tabbedOutput).map (fun p => p.expansions.map (·.name)) =
          some [Bytes.ofString "g"] :=
    exists_from_of_stages (by decide +kernel)
  obtain ⟨p, hp, hnames⟩ := Option.map_eq_some_iff.mp hagain
  rw [← houtput] at hp
  refine ⟨x, p, hx, hclean, houtput, hp, hnames, fun map log hok => ?_⟩
  obtain ⟨p', f, hfrom⟩ := exists_from hok
  obtain rfl : p = p' := Option.some.inj (hp.symm.trans hfrom.plan)
  have hcount : 0 = p.expansions.length := hfrom.count
  rw [← List.length_map (·.name), hnames] at hcount
  cases hcount

end RetryWeave
