import RetryWeave.Proofs.Loop.Build
import RetryWeave.Syntax.Grammar.File

/-! # Functions that take a context

A loop is marked if the first parameter of its function is a context of the package under the name that
the file gives it. Only one of these names is looked for: that of the first import whose path is spelled
in one way. -/

namespace RetryWeave

open Syntax

/-! ## Imports and parameters -/

/-- A file imports the package `context` under a name that it can use. -/
def Syntax.File.ImportsContextAs (f : File) (n : Bytes) : Prop :=
  ∃ name path, (name, path) ∈ f.imports ∧
    Quoted.unquote? path.text = some (Bytes.ofString "context") ∧
    (name.map (·.name)).getD (Bytes.ofString "context") = n ∧ n ≠ [Ascii.underscore]

/-- A type is `Context` of the package with the given local name. The dot stands for no name. -/
inductive IsContextOf (n : Bytes) : Expr → Prop where
  | bare {id : Ident} (hn : n = [Ascii.dot]) (hid : id.name = Bytes.ofString "Context") :
      IsContextOf n (.ident id)
  | selected {x sel : Ident} (hx : x.name = n) (hsel : sel.name = Bytes.ofString "Context") :
      IsContextOf n (.selector (.ident x) sel)

/-- The first parameter of a function is a context of the package with the given local name. -/
def Syntax.FuncDecl.TakesContextOf (d : FuncDecl) (n : Bytes) : Prop :=
  ∃ first, d.type.params.list.head? = some first ∧ IsContextOf n first.type

/-- The local name of an import whose path is spelled `"context"`, unless it is blank. -/
def plainContextName? : Option Ident × Lit → Option Bytes
  | (name, path) =>
    let n := (name.map (·.name)).getD (Bytes.ofString "context")
    if path.text = Bytes.ofString "\"context\"" ∧ n ≠ [Ascii.underscore] then some n else none

theorem Signature.isContext_iff {n : Bytes} {type : Expr} :
    isContext n type = true ↔ IsContextOf n type := by
  constructor
  · intro h
    unfold isContext at h
    split at h
    · rw [Bool.and_eq_true, decide_eq_true_eq, decide_eq_true_eq] at h
      exact .bare h.1 h.2
    · rw [Bool.and_eq_true, decide_eq_true_eq, decide_eq_true_eq] at h
      exact .selected h.1 h.2
    · cases h
  · rintro (⟨hn, hid⟩ | ⟨hx, hsel⟩)
    · simp [isContext, hn, hid]
    · simp [isContext, hx, hsel]

/-- The name that a type takes the package by is part of the type. -/
theorem IsContextOf.unique {n n' : Bytes} {type : Expr} (h : IsContextOf n type)
    (h' : IsContextOf n' type) : n = n' := by
  rcases h with ⟨hn, -⟩ | ⟨hx, -⟩
  · rcases h' with ⟨hn', -⟩
    exact hn.trans hn'.symm
  · rcases h' with _ | ⟨hx', -⟩
    exact hx.symm.trans hx'

theorem Syntax.FuncDecl.TakesContextOf.unique {d : FuncDecl} {n n' : Bytes}
    (h : d.TakesContextOf n) (h' : d.TakesContextOf n') : n = n' := by
  obtain ⟨first, hfirst, htype⟩ := h
  obtain ⟨first', hfirst', htype'⟩ := h'
  obtain rfl : first = first' := Option.some.inj (hfirst.symm.trans hfirst')
  exact htype.unique htype'

/-! ## The name that is looked for -/

namespace Syntax.File

variable {f : File} {n : Bytes}

theorem contextName?_eq (f : File) :
    f.contextName? = f.imports.findSome? plainContextName? := by
  unfold contextName?
  congr 1
  funext ⟨name, path⟩
  by_cases hpath : path.text = Bytes.ofString "\"context\""
  · cases name with
    | none =>
        have hblank : ¬ Bytes.ofString "context" = [Ascii.underscore] := by decide
        simp [plainContextName?, hpath, hblank]
    | some id => simp [plainContextName?, hpath]
  · simp [plainContextName?, hpath]

theorem contextName?_eq_some_iff : f.contextName? = some n ↔
    ∃ before i after, f.imports = before ++ i :: after ∧ plainContextName? i = some n ∧
      ∀ j ∈ before, plainContextName? j = none := by
  rw [contextName?_eq, List.findSome?_eq_some_iff]

theorem importsContextAs_of_plain {i : Option Ident × Lit} (hi : i ∈ f.imports)
    (h : plainContextName? i = some n) : f.ImportsContextAs n := by
  obtain ⟨name, path⟩ := i
  unfold plainContextName? at h
  dsimp only at h
  split_ifs at h with hplain
  obtain rfl := Option.some.inj h
  have hvalue : Quoted.unquote? (Bytes.ofString "\"context\"") = some (Bytes.ofString "context") := by
    decide
  exact ⟨name, path, hi, by rw [hplain.1, hvalue], rfl, hplain.2⟩

theorem importsContextAs_of_contextName? (h : f.contextName? = some n) : f.ImportsContextAs n := by
  obtain ⟨before, i, after, hlist, hi, -⟩ := contextName?_eq_some_iff.mp h
  exact importsContextAs_of_plain (by simp [hlist]) hi

/-- A file that spells the path in the one way in which it is looked for. -/
def SpellsContextPlainly (f : File) : Prop :=
  ∀ i ∈ f.imports, Quoted.unquote? i.2.text = some (Bytes.ofString "context") →
    i.2.text = Bytes.ofString "\"context\""

theorem exists_contextName? (hplain : f.SpellsContextPlainly) (h : f.ImportsContextAs n) :
    ∃ m, f.contextName? = some m := by
  obtain ⟨name, path, hmem, hvalue, hname, hblank⟩ := h
  have hi : plainContextName? (name, path) = some n := by
    have htext : path.text = Bytes.ofString "\"context\"" := hplain _ hmem hvalue
    simp only [plainContextName?, htext, hname, true_and, if_pos hblank]
  rw [contextName?_eq, ← Option.isSome_iff_exists, List.isSome_findSome?]
  exact List.any_eq_true.mpr ⟨_, hmem, by rw [hi]; rfl⟩

end Syntax.File

namespace RetryLoop

variable {f : File} {d : FuncDecl} {defaults : Defaults} {directive : Directive} {place : Position}
  {supply : NameSupply} {l : RetryLoop}

theorem beginsWithContext_iff {s : Signature} {package : Option Bytes} :
    s.beginsWithContext package = true ↔ ∃ n, package = some n ∧ n ≠ [] ∧
      ∃ first, s.type.params.list.head? = some first ∧ IsContextOf n first.type := by
  unfold Signature.beginsWithContext
  split
  · rename_i n first rest hparams
    simp [hparams, Signature.isContext_iff]
  · rename_i hnone
    simp only [Bool.false_eq_true, false_iff]
    rintro ⟨n, rfl, -, first, hfirst, -⟩
    obtain ⟨rest, hrest⟩ := List.head?_eq_some_iff.mp hfirst
    exact hnone n first rest rfl hrest

theorem async_iff (h : build defaults directive (some (.func d)) place f.contextName? supply = .ok l) :
    l.async = true ↔ ∃ n, f.contextName? = some n ∧ n ≠ [] ∧ d.TakesContextOf n := by
  obtain ⟨signature, hbuilt⟩ := built_of_build h
  obtain rfl : (⟨d.name.name, d.type, d.body⟩ : Signature) = signature :=
    Option.some.inj hbuilt.owner
  rw [hbuilt.async, beginsWithContext_iff]
  rfl

/-- A function that is marked takes a context of the package under a name that its file imports it by.
The converse holds for a name if and only if that is the name that is looked for; so it holds in
files that import the package under one name and spell its path in one way. -/
theorem async_exact_iff
    (h : build defaults directive (some (.func d)) place f.contextName? supply = .ok l) :
    (∀ n, f.contextName? = some n ↔ ∃ before i after, f.imports = before ++ i :: after ∧
      plainContextName? i = some n ∧ ∀ j ∈ before, plainContextName? j = none) ∧
    (l.async = true ↔ ∃ n, f.contextName? = some n ∧ n ≠ [] ∧ d.TakesContextOf n) ∧
    (l.async = true → ∃ n, f.ImportsContextAs n ∧ d.TakesContextOf n) ∧
    ((l.async = true ↔ ∃ n, f.ImportsContextAs n ∧ d.TakesContextOf n) ↔
      ∀ n, f.ImportsContextAs n → d.TakesContextOf n → f.contextName? = some n ∧ n ≠ []) ∧
    (f.SpellsContextPlainly → ¬ f.ImportsContextAs [] →
      (∀ n m, f.ImportsContextAs n → f.ImportsContextAs m → n = m) →
      (l.async = true ↔ ∃ n, f.ImportsContextAs n ∧ d.TakesContextOf n)) := by
  have hasync := async_iff h
  have hsound : l.async = true → ∃ n, f.ImportsContextAs n ∧ d.TakesContextOf n := by
    intro hmarked
    obtain ⟨n, hname, -, htakes⟩ := hasync.mp hmarked
    exact ⟨n, File.importsContextAs_of_contextName? hname, htakes⟩
  refine ⟨fun n => File.contextName?_eq_some_iff, hasync, hsound, ⟨fun hexact n himports htakes => ?_,
    fun hname => ⟨hsound, fun ⟨n, himports, htakes⟩ => ?_⟩⟩, fun hplain hempty hone =>
    ⟨hsound, fun ⟨n, himports, htakes⟩ => ?_⟩⟩
  · obtain ⟨m, hm, hne, htakes'⟩ := hasync.mp (hexact.mpr ⟨n, himports, htakes⟩)
    obtain rfl := htakes.unique htakes'
    exact ⟨hm, hne⟩
  · obtain ⟨hm, hne⟩ := hname n himports htakes
    exact hasync.mpr ⟨n, hm, hne, htakes⟩
  · obtain ⟨m, hm⟩ := File.exists_contextName? hplain himports
    obtain rfl := hone n m himports (File.importsContextAs_of_contextName? hm)
    refine hasync.mpr ⟨n, hm, ?_, htakes⟩
    rintro rfl
    exact hempty himports

/-- A function that takes a context, in a file that imports the package by this literal. -/
def contextSource (path : Bytes) : Bytes :=
  "package p\n\nimport " ++ path ++
    "\n\nfunc f(ctx context.Context) error \x7b return nil \x7d\n"

/-- The loop of a function of a file. -/
def loopIn (f : File) (d : FuncDecl) : Except Diagnostic RetryLoop :=
  build ⟨3, "m"⟩ ⟨[], .unknown⟩ (some (.func d)) .unknown f.contextName?
    ⟨.sequential, "retry", f.idents⟩

theorem exists_loopIn (path : Bytes) (async : Bool)
    (hpath : Quoted.unquote? path = some (Bytes.ofString "context"))
    (h : ((parseFile? "x.go" (contextSource path)).bind fun f => f.funcs.head?.map fun d =>
      (f.imports.map fun i => (i.1.map (·.name), i.2.text),
        d.type.params.list.head?.map fun first => Signature.isContext "context" first.type,
        (loopIn f d).toOption.map (·.async))) = some ([(none, path)], some true, some async)) :
    ∃ f d l, parseFile? "x.go" (contextSource path) = some f ∧ d ∈ f.funcs ∧ loopIn f d = .ok l ∧
      f.ImportsContextAs "context" ∧ d.TakesContextOf "context" ∧ l.async = async := by
  obtain ⟨f, hf, hhead⟩ := Option.bind_eq_some_iff.mp h
  obtain ⟨d, hd, heval⟩ := Option.map_eq_some_iff.mp hhead
  simp only [Prod.mk.injEq] at heval
  obtain ⟨himports, hparams, hloop⟩ := heval
  obtain ⟨l, hl, hasync⟩ := Option.map_eq_some_iff.mp hloop
  have hbuild : loopIn f d = .ok l := by
    cases hresult : loopIn f d with
    | error e => rw [hresult] at hl; cases hl
    | ok l' => rw [hresult] at hl; exact congrArg _ (Option.some.inj hl)
  refine ⟨f, d, l, hf, List.mem_of_mem_head? hd, hbuild, ?_, ?_, hasync⟩
  · obtain ⟨⟨name, lit⟩, himport, hpair⟩ : ∃ i ∈ f.imports, (i.1.map (·.name), i.2.text) = (none, path) := by
      rw [← List.mem_map, himports]
      exact List.mem_singleton.mpr rfl
    obtain ⟨hname, htext⟩ := Prod.mk.inj hpair
    exact ⟨name, lit, himport, by rw [htext, hpath], by rw [hname]; rfl, by decide⟩
  · obtain ⟨first, hfirst, htype⟩ := Option.map_eq_some_iff.mp hparams
    exact ⟨first, hfirst, Signature.isContext_iff.mp htype⟩

/-- The path is spelled in the way that is looked for. -/
theorem async_exact_iff_plain : ∃ f d l,
    parseFile? "x.go" (contextSource "\"context\"") = some f ∧ d ∈ f.funcs ∧ loopIn f d = .ok l ∧
    d.TakesContextOf "context" ∧ l.async = true ∧ f.contextName? = some "context" := by
  obtain ⟨f, d, l, hf, hd, hl, himports, htakes, hasync⟩ :=
    exists_loopIn "\"context\"" true (by decide) (by decide +kernel)
  refine ⟨f, d, l, hf, hd, hl, htakes, hasync, ?_⟩
  obtain ⟨-, -, -, hexact, -⟩ := async_exact_iff hl
  exact (hexact.mp ⟨fun _ => ⟨_, himports, htakes⟩, fun _ => hasync⟩ _ himports htakes).1

/-- A raw literal is a path as well, but in a file that imports the package by one no context is
recognised. -/
theorem async_misses_raw_path : ∃ f d l,
    parseFile? "x.go" (contextSource "`context`") = some f ∧ d ∈ f.funcs ∧ loopIn f d = .ok l ∧
    f.ImportsContextAs "context" ∧ d.TakesContextOf "context" ∧ l.async = false :=
  exists_loopIn "`context`" false (by decide) (by decide +kernel)

end RetryLoop

end RetryWeave
