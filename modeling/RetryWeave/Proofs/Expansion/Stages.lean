import RetryWeave.Proofs.Splice.Sites
import RetryWeave.Proofs.Splice.Weave

/-! # The stages of an expansion

A source is read, edited, laid out and read again. What an expansion yields, and when it fails, is
said by what these stages yield. -/

namespace RetryWeave

open Syntax

/-! ## Rulings -/

namespace Plan

variable {o : Options} {name src : Bytes} {p : Plan}

theorem ofSource?_eq_some (h : ofSource? o name src = some p) :
    parseFile? name src = some p.file ∧
      p.rulings = (DirectiveGroup.ofFile o.directive p.file).map
        (rule o name p.file p.file.idents) := by
  obtain ⟨f, hf, rfl⟩ := Option.map_eq_some_iff.mp h
  exact ⟨hf, rfl⟩

theorem ofSource?_eq_none : ofSource? o name src = none ↔ parseFile? name src = none :=
  Option.map_eq_none_iff

/-- Each ruling is a diagnostic or an expansion. -/
theorem length_diagnostics_add_expansions (p : Plan) :
    p.diagnostics.length + p.expansions.length = p.rulings.length := by
  unfold diagnostics expansions
  induction p.rulings with
  | nil => rfl
  | cons r rest ih =>
      cases r <;> simp only [List.filterMap_cons, Ruling.diagnostic?, Ruling.expansion?,
        List.length_cons] <;> omega

/-- If no function has several directives, the functions can be edited one after the other, the last
one first. -/
theorem edited_eq_foldl
    (h : ((p.expansions.reverse.flatMap (·.edits src)).map (·.start)).Pairwise (· > ·)) :
    p.edited src = (p.expansions.reverse.flatMap (·.edits src)).foldl Edit.apply src :=
  Edit.applyAll_eq_foldl src ((List.reverse_perm _).flatMap_right _) (List.pairwise_map.mp h)

end Plan

/-! ## The map -/

section

variable {name : Bytes} {f : File} {es : List Expansion}

theorem mapEntries_eq_ok {map : SourceMap} : mapEntries name f es = .ok map ↔
    List.Forall₂ (fun e m => ∃ d, f.funcs[e.index]? = some d ∧ m = mapEntry name f.table d e)
      es map := by
  induction es generalizing map with
  | nil => simp [mapEntries, eq_comm]
  | cons e es ih =>
      rw [mapEntries, List.forall₂_cons_left_iff]
      cases hd : f.funcs[e.index]? with
      | none => simp
      | some d =>
          cases hrest : mapEntries name f es with
          | error function =>
              simp only [Except.map, reduceCtorEq, false_iff]
              rintro ⟨m, map, -, hmap, -⟩
              rw [ih.mpr hmap] at hrest
              cases hrest
          | ok rest =>
              simp only [Except.map, Except.ok.injEq, Option.some.injEq, exists_eq_left']
              constructor
              · rintro rfl
                exact ⟨_, rest, rfl, ih.mp hrest, rfl⟩
              · rintro ⟨m, map, rfl, hmap, rfl⟩
                rw [Except.ok.inj (hrest.symm.trans (ih.mpr hmap))]

/-- A function of the output is missing, and the first such one is named. -/
theorem mapEntries_eq_error {function : Bytes} : mapEntries name f es = .error function ↔
    ∃ e, es.find? (fun e => (f.funcs[e.index]?).isNone) = some e ∧ e.name = function := by
  induction es with
  | nil => simp [mapEntries]
  | cons e es ih =>
      rw [mapEntries, List.find?_cons]
      cases hd : f.funcs[e.index]? with
      | none => simp
      | some d =>
          cases hrest : mapEntries name f es with
          | error function' =>
              rw [hrest] at ih
              simpa [Except.map] using ih
          | ok rest =>
              rw [hrest] at ih
              simpa [Except.map] using ih

end

/-! ## Success and failure -/

/-- What an expansion yields, by its stages: `p` is the plan of the source, and `f` is what is read
from the output. -/
structure Expanded.From (o : Options) (name src : Bytes) (p : Plan) (f : File) (x : Expanded) :
    Prop where
  plan : Plan.ofSource? o name src = some p
  output : p.expansions = [] ∧ x.output = src ∨
    p.expansions ≠ [] ∧ Layout.format? (p.edited src) = some x.output
  file : parseFile? name x.output = some f
  map : mapEntries name f p.expansions = .ok x.map
  diagnostics : x.diagnostics = p.diagnostics
  count : x.count = p.expansions.length
  log : x.log = p.log o

/-- A stage after the first one fails. The layout has a say in what there is to read after the edits, so
each stage is told by the text that it is given. -/
inductive Plan.FailsAt (o : Options) (name src : Bytes) (p : Plan) : ExpandError → Prop
  | edited (h : Layout.format? (p.edited src) = none) :
    FailsAt o name src p (.unformattable (p.log o))
  | output {output : Bytes} (h : Layout.format? (p.edited src) = some output)
    (hread : parseFile? name output = none) : FailsAt o name src p (.unreadable (p.log o))
  | lost {output : Bytes} {f : File} {e : Expansion}
    (h : Layout.format? (p.edited src) = some output) (hread : parseFile? name output = some f)
    (he : p.expansions.find? (fun e => (f.funcs[e.index]?).isNone) = some e) :
    FailsAt o name src p (.lost e.name (p.log o))

section

variable {o : Options} {name src : Bytes} {p : Plan}

theorem expandText_of_none (h : Plan.ofSource? o name src = none) :
    expandText o name src = .error .unparsable := by
  rw [expandText, h]

theorem expandText_of_nil (h : Plan.ofSource? o name src = some p) (hnil : p.expansions = []) :
    expandText o name src = .ok ⟨src, p.diagnostics, 0, [], p.log o⟩ := by
  rw [expandText, h]
  simp [hnil]

/-- A source that can be read is expanded, or a stage after the first one fails. -/
theorem expandText_cases (h : Plan.ofSource? o name src = some p) :
    (∃ f x, expandText o name src = .ok x ∧ x.From o name src p f) ∨
      ∃ err, expandText o name src = .error err ∧ p.expansions ≠ [] ∧ p.FailsAt o name src err := by
  by_cases hnil : p.expansions = []
  · refine .inl ⟨p.file, _, expandText_of_nil h hnil, ?_⟩
    exact ⟨h, .inl ⟨hnil, rfl⟩, (Plan.ofSource?_eq_some h).1, by rw [hnil]; rfl, rfl,
      by rw [hnil]; rfl, rfl⟩
  · have hempty : p.expansions.isEmpty = false := by simpa using hnil
    unfold expandText
    simp only [h, hempty, Bool.false_eq_true, if_false]
    cases hformat : Layout.format? (p.edited src) with
    | none => exact .inr ⟨_, rfl, hnil, .edited hformat⟩
    | some output =>
        cases hfile : parseFile? name output with
        | none =>
            simp only [hfile]
            exact .inr ⟨_, rfl, hnil, .output hformat hfile⟩
        | some f =>
            simp only [hfile]
            cases hmap : mapEntries name f p.expansions with
            | error function =>
                obtain ⟨e, he, rfl⟩ := mapEntries_eq_error.mp hmap
                exact .inr ⟨_, rfl, hnil, .lost hformat hfile he⟩
            | ok map =>
                exact .inl ⟨f, _, rfl, h, .inr ⟨hnil, hformat⟩, hfile, hmap, rfl, rfl, rfl⟩

theorem exists_from {x : Expanded} (h : expandText o name src = .ok x) :
    ∃ p f, x.From o name src p f := by
  cases hp : Plan.ofSource? o name src with
  | none =>
      rw [expandText_of_none hp] at h
      cases h
  | some p =>
      rcases expandText_cases hp with ⟨f, x', hx, hfrom⟩ | ⟨err, herr, -⟩
      · cases h.symm.trans hx
        exact ⟨p, f, hfrom⟩
      · cases h.symm.trans herr

/-- Once the edits stand in order, the stages can be run one by one, and what they hold can be looked
at. -/
theorem exists_from_of_stages {output : Bytes} {map : SourceMap} {Seen : Plan → File → Prop}
    (hstages : ∃ p ∈ Plan.ofSource? o name src, ∃ f ∈ parseFile? name output,
      p.expansions ≠ [] ∧ p.diagnostics = [] ∧
      ((p.expansions.reverse.flatMap (·.edits src)).map (·.start)).Pairwise (· > ·) ∧
      Layout.format? ((p.expansions.reverse.flatMap (·.edits src)).foldl Edit.apply src) =
        some output ∧
      mapEntries name f p.expansions = .ok map ∧ Seen p f) :
    ∃ p f x, expandText o name src = .ok x ∧ x.From o name src p f ∧ x.output = output ∧
      x.diagnostics = [] ∧ x.map = map ∧ Seen p f := by
  obtain ⟨p, hp, f, hf, hne, hclean, hordered, hformat, hmap, hseen⟩ := hstages
  rw [Option.mem_def] at hp hf
  rw [← p.edited_eq_foldl hordered] at hformat
  refine ⟨p, f, ⟨output, p.diagnostics, p.expansions.length, map, p.log o⟩, ?_,
    ⟨hp, .inr ⟨hne, hformat⟩, hf, hmap, rfl, rfl, rfl⟩, rfl, hclean, rfl, hseen⟩
  simp [expandText, hp, hne, hformat, hf, hmap]

end

/-- What a function `func function() error { return nil }` becomes when it is tried three times. -/
def retriedText (function : Bytes) : Bytes :=
  "func " ++ function ++ "() error \x7b\n\tretryBlock := func() error \x7b return nil \x7d\n" ++
    "\tretryAttempts := 0\n\tfor retryAttempts < 3 \x7b\n\t\tretryErr := retryBlock()\n" ++
    "\t\tif retryErr == nil \x7b\n\t\t\treturn nil\n\t\t\x7d\n\t\tretryAttempts++\n" ++
    "\t\tif retryAttempts == 3 \x7b\n\t\t\treturn retryErr\n\t\t\x7d\n\t\x7d\n" ++
    "\tpanic(\"retry: unreachable\")\n\x7d\n"

/-- Two functions with a directive and one without. -/
def pairSource : Bytes :=
  "package p\n\n//retry:onfailure 3\nfunc f() error \x7b return nil \x7d\n\n" ++
    "func g() \x7b\x7d\n\n//retry:onfailure\nfunc h() error \x7b return nil \x7d\n"

def pairOutput : Bytes :=
  "package p\n\n" ++ retriedText "f" ++ "\nfunc g() \x7b\x7d\n\n" ++ retriedText "h"

/-- No comment is left in the output for the two functions, neither text has line comments, and each
function has its name and its body again. -/
theorem exists_from_pairSource : ∃ p f x, expandText .standard "a.go" pairSource = .ok x ∧
    x.From .standard "a.go" pairSource p f ∧ x.output = pairOutput ∧ x.diagnostics = [] ∧
    x.map = [⟨3, 17, "a.go", 4, "f", 3⟩, ⟨21, 35, "a.go", 9, "h", 3⟩] ∧
    f.comments = [] ∧ p.file.table.infos = [] ∧ f.table.infos = [] ∧
    ∀ e ∈ p.expansions, ∃ d ∈ f.funcs[e.index]?,
      (Owner.func d).name = e.name ∧ d.body.isSome = true :=
  exists_from_of_stages (by decide +kernel)

end RetryWeave
