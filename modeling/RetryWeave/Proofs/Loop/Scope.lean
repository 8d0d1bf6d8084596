import RetryWeave.Proofs.Loop.Build

/-! # Result types inside the body

The closure of an expansion repeats the result list of its function. It stands in the body, where
the receiver, the parameters and the named results are declared; in the signature they are not. -/

namespace RetryWeave.Syntax

/-! ## Names in types -/

def FieldList.names (l : FieldList) : List Bytes :=
  (l.list.flatMap (·.names.map Ident.name)).filter (· ≠ [Ascii.underscore])

def optFieldListNames (l : Option FieldList) : List Bytes := (l.map FieldList.names).getD []

mutual

/-- The names that a type refers to: types, the packages of qualified types, and what the lengths of
arrays are made of. Selected names, names of fields, methods and parameters, and the bodies of
functions are no references. -/
def Expr.refs : Expr → List Bytes
  | .ident id => [id.name]
  | .lit _ => []
  | .ellipsis _ elem => optExprRefs elem
  | .func type _ => type.refs
  | .composite type _ elems _ => optExprRefs type ++ exprRefs elems
  | .paren _ x _ => x.refs
  | .selector x _ => x.refs
  | .index x _ indices _ => x.refs ++ exprRefs indices
  | .slice x _ low high max _ _ => x.refs ++ optExprRefs low ++ optExprRefs high ++ optExprRefs max
  | .typeAssert x _ type _ => x.refs ++ optExprRefs type
  | .call fn _ args _ _ => fn.refs ++ exprRefs args
  | .star _ x => x.refs
  | .unary _ _ x => x.refs
  | .binary x _ _ y => x.refs ++ y.refs
  | .keyValue key _ value => key.refs ++ value.refs
  | .array _ len elem => optExprRefs len ++ elem.refs
  | .struct _ fields => fields.refs
  | .funcType type => type.refs
  | .interface _ methods => methods.refs
  | .map _ key value => key.refs ++ value.refs
  | .chan _ _ _ value => value.refs
termination_by structural x => x

def exprRefs : List Expr → List Bytes
  | [] => []
  | x :: rest => x.refs ++ exprRefs rest
termination_by structural x => x

def optExprRefs : Option Expr → List Bytes
  | none => []
  | some x => x.refs
termination_by structural x => x

/-- Type parameters are declared for the whole signature. -/
def FuncType.refs : FuncType → List Bytes
  | ⟨_, typeParams, params, results⟩ =>
    (optFieldListRefs typeParams ++ params.refs ++ optFieldListRefs results).filter
      (· ∉ optFieldListNames typeParams)
termination_by structural x => x

def optFieldListRefs : Option FieldList → List Bytes
  | none => []
  | some l => l.refs
termination_by structural x => x

def FieldList.refs : FieldList → List Bytes
  | ⟨_, list, _⟩ => fieldRefs list
termination_by structural x => x

def fieldRefs : List Field → List Bytes
  | [] => []
  | f :: rest => f.refs ++ fieldRefs rest
termination_by structural x => x

def Field.refs : Field → List Bytes
  | ⟨_, _, type, _, _⟩ => type.refs
termination_by structural x => x

end

/-! ## Scopes and meanings -/

/-- What a name can be declared as, where `δ` are the declarations outside of the function. -/
inductive Declaration (δ : Type) where
  | outside (declaration : δ)
  | typeParameter (name : Bytes)
  | localName (name : Bytes)
deriving DecidableEq

/-- The declaration that each name stands for at a place, if it is declared there. -/
abbrev Scope (δ : Type) := Bytes → Option (Declaration δ)

/-- A block inside a scope declares names of its own. -/
def Scope.declare {δ : Type} (scope : Scope δ) (names : List Bytes)
    (as : Bytes → Declaration δ) : Scope δ :=
  fun name => if name ∈ names then some (as name) else scope name

/-- What a type denotes: its structure, over the declarations that its names stand for. -/
inductive Meaning (δ : Type) where
  | declared (declaration : Option (Declaration δ))
  | node (label : Bytes) (parts : List (Meaning δ))

namespace Meaning

def names {δ : Type} (ids : List Ident) : Meaning δ :=
  .node "names" (ids.map fun id => .node id.name [])

def ofChanDir : ChanDir → Bytes
  | .send => "chan<-"
  | .receive => "<-chan"
  | .both => "chan"

end Meaning

mutual

def Expr.denote {δ : Type} : Expr → Scope δ → Meaning δ
  | .ident id, s => .declared (s id.name)
  | .lit l, _ => .node l.text []
  | .ellipsis _ elem, s => .node "..." [optExprDenote elem s]
  | .func type _, s => type.denote s
  | .composite type _ elems _, s =>
    .node "composite" (optExprDenote type s :: exprDenotes elems s)
  | .paren _ x _, s => x.denote s
  | .selector x sel, s => .node "." [x.denote s, .node sel.name []]
  | .index x _ indices _, s => .node "index" (x.denote s :: exprDenotes indices s)
  | .slice x _ low high max _ _, s =>
    .node "slice" [x.denote s, optExprDenote low s, optExprDenote high s, optExprDenote max s]
  | .typeAssert x _ type _, s => .node "assert" [x.denote s, optExprDenote type s]
  | .call fn _ args _ _, s => .node "call" (fn.denote s :: exprDenotes args s)
  | .star _ x, s => .node "*" [x.denote s]
  | .unary _ op x, s => .node op.spelling [x.denote s]
  | .binary x _ op y, s => .node op.spelling [x.denote s, y.denote s]
  | .keyValue key _ value, s => .node ":" [key.denote s, value.denote s]
  | .array _ len elem, s => .node "array" [optExprDenote len s, elem.denote s]
  | .struct _ fields, s => .node "struct" (fields.denotes s)
  | .funcType type, s => type.denote s
  | .interface _ methods, s => .node "interface" (methods.denotes s)
  | .map _ key value, s => .node "map" [key.denote s, value.denote s]
  | .chan _ _ dir value, s => .node (Meaning.ofChanDir dir) [value.denote s]
termination_by structural x => x

def exprDenotes {δ : Type} : List Expr → Scope δ → List (Meaning δ)
  | [], _ => []
  | x :: rest, s => x.denote s :: exprDenotes rest s
termination_by structural x => x

def optExprDenote {δ : Type} : Option Expr → Scope δ → Meaning δ
  | none, _ => .node "none" []
  | some x, s => x.denote s
termination_by structural x => x

/-- A signature is read where its type parameters are declared. -/
def FuncType.denote {δ : Type} : FuncType → Scope δ → Meaning δ
  | ⟨_, typeParams, params, results⟩, s =>
    let inner := s.declare (optFieldListNames typeParams) .typeParameter
    .node "func" [.node "typeParams" (optFieldListDenotes typeParams inner),
      .node "params" (params.denotes inner), .node "results" (optFieldListDenotes results inner)]
termination_by structural x => x

def optFieldListDenotes {δ : Type} : Option FieldList → Scope δ → List (Meaning δ)
  | none, _ => []
  | some l, s => l.denotes s
termination_by structural x => x

def FieldList.denotes {δ : Type} : FieldList → Scope δ → List (Meaning δ)
  | ⟨_, list, _⟩, s => fieldDenotes list s
termination_by structural x => x

def fieldDenotes {δ : Type} : List Field → Scope δ → List (Meaning δ)
  | [], _ => []
  | f :: rest, s => f.denote s :: fieldDenotes rest s
termination_by structural x => x

def Field.denote {δ : Type} : Field → Scope δ → Meaning δ
  | ⟨_, names, type, tag, _⟩, s =>
    .node "field" [.names names, type.denote s, .node ((tag.map Lit.text).getD []) []]
termination_by structural x => x

end

/-! ## A type reads a scope through its names only -/

theorem Scope.declare_eq_iff {δ : Type} (s t : Scope δ) (names : List Bytes)
    (as : Bytes → Declaration δ) (name : Bytes) :
    s.declare names as name = t.declare names as name ↔ (name ∉ names → s name = t name) := by
  by_cases h : name ∈ names <;> simp [Scope.declare, h]

section

variable {δ : Type}

mutual

theorem Expr.denote_eq_iff : ∀ (x : Expr) (s t : Scope δ),
    x.denote s = x.denote t ↔ ∀ n ∈ x.refs, s n = t n
  | .ident id, s, t => by simp [Expr.denote, Expr.refs]
  | .lit l, s, t => by simp [Expr.denote, Expr.refs]
  | .ellipsis _ elem, s, t => by simp [Expr.denote, Expr.refs, optExprDenote_eq_iff elem s t]
  | .func type _, s, t => by simp [Expr.denote, Expr.refs, FuncType.denote_eq_iff type s t]
  | .composite type _ elems _, s, t => by
      simp [Expr.denote, Expr.refs, optExprDenote_eq_iff type s t, exprDenotes_eq_iff elems s t, or_imp,
        forall_and]
  | .paren _ x _, s, t => by simp [Expr.denote, Expr.refs, Expr.denote_eq_iff x s t]
  | .selector x sel, s, t => by simp [Expr.denote, Expr.refs, Expr.denote_eq_iff x s t]
  | .index x _ indices _, s, t => by
      simp [Expr.denote, Expr.refs, Expr.denote_eq_iff x s t, exprDenotes_eq_iff indices s t, or_imp,
        forall_and]
  | .slice x _ low high max _ _, s, t => by
      simp [Expr.denote, Expr.refs, Expr.denote_eq_iff x s t, optExprDenote_eq_iff low s t,
        optExprDenote_eq_iff high s t, optExprDenote_eq_iff max s t, or_imp, forall_and]
  | .typeAssert x _ type _, s, t => by
      simp [Expr.denote, Expr.refs, Expr.denote_eq_iff x s t, optExprDenote_eq_iff type s t, or_imp,
        forall_and]
  | .call fn _ args _ _, s, t => by
      simp [Expr.denote, Expr.refs, Expr.denote_eq_iff fn s t, exprDenotes_eq_iff args s t, or_imp,
        forall_and]
  | .star _ x, s, t => by simp [Expr.denote, Expr.refs, Expr.denote_eq_iff x s t]
  | .unary _ _ x, s, t => by simp [Expr.denote, Expr.refs, Expr.denote_eq_iff x s t]
  | .binary x _ _ y, s, t => by
      simp [Expr.denote, Expr.refs, Expr.denote_eq_iff x s t, Expr.denote_eq_iff y s t, or_imp, forall_and]
  | .keyValue key _ value, s, t => by
      simp [Expr.denote, Expr.refs, Expr.denote_eq_iff key s t, Expr.denote_eq_iff value s t, or_imp,
        forall_and]
  | .array _ len elem, s, t => by
      simp [Expr.denote, Expr.refs, optExprDenote_eq_iff len s t, Expr.denote_eq_iff elem s t, or_imp,
        forall_and]
  | .struct _ fields, s, t => by simp [Expr.denote, Expr.refs, FieldList.denotes_eq_iff fields s t]
  | .funcType type, s, t => by simp [Expr.denote, Expr.refs, FuncType.denote_eq_iff type s t]
  | .interface _ methods, s, t => by simp [Expr.denote, Expr.refs, FieldList.denotes_eq_iff methods s t]
  | .map _ key value, s, t => by
      simp [Expr.denote, Expr.refs, Expr.denote_eq_iff key s t, Expr.denote_eq_iff value s t, or_imp,
        forall_and]
  | .chan _ _ _ value, s, t => by simp [Expr.denote, Expr.refs, Expr.denote_eq_iff value s t]
termination_by structural x => x

theorem exprDenotes_eq_iff : ∀ (xs : List Expr) (s t : Scope δ),
    exprDenotes xs s = exprDenotes xs t ↔ ∀ n ∈ exprRefs xs, s n = t n
  | [], s, t => by simp [exprDenotes, exprRefs]
  | x :: rest, s, t => by
      simp [exprDenotes, exprRefs, Expr.denote_eq_iff x s t, exprDenotes_eq_iff rest s t, or_imp, forall_and]
termination_by structural x => x

theorem optExprDenote_eq_iff : ∀ (x : Option Expr) (s t : Scope δ),
    optExprDenote x s = optExprDenote x t ↔ ∀ n ∈ optExprRefs x, s n = t n
  | none, s, t => by simp [optExprDenote, optExprRefs]
  | some x, s, t => by simp [optExprDenote, optExprRefs, Expr.denote_eq_iff x s t]
termination_by structural x => x

theorem FuncType.denote_eq_iff : ∀ (type : FuncType) (s t : Scope δ),
    type.denote s = type.denote t ↔ ∀ n ∈ type.refs, s n = t n
  | ⟨_, typeParams, params, results⟩, s, t => by
      have h := Scope.declare_eq_iff s t (optFieldListNames typeParams) .typeParameter
      simp only [FuncType.denote, FuncType.refs, Meaning.node.injEq, List.cons.injEq, true_and,
        and_true, optFieldListDenotes_eq_iff typeParams _ _, FieldList.denotes_eq_iff params _ _,
        optFieldListDenotes_eq_iff results _ _, h, List.mem_filter, List.mem_append,
        decide_eq_true_eq, and_imp, or_imp, forall_and,
        and_assoc]
termination_by structural x => x

theorem optFieldListDenotes_eq_iff : ∀ (l : Option FieldList) (s t : Scope δ),
    optFieldListDenotes l s = optFieldListDenotes l t ↔ ∀ n ∈ optFieldListRefs l, s n = t n
  | none, s, t => by simp [optFieldListDenotes, optFieldListRefs]
  | some l, s, t => by simp [optFieldListDenotes, optFieldListRefs, FieldList.denotes_eq_iff l s t]
termination_by structural x => x

theorem FieldList.denotes_eq_iff : ∀ (l : FieldList) (s t : Scope δ),
    l.denotes s = l.denotes t ↔ ∀ n ∈ l.refs, s n = t n
  | ⟨_, list, _⟩, s, t => by simp [FieldList.denotes, FieldList.refs, fieldDenotes_eq_iff list s t]
termination_by structural x => x

theorem fieldDenotes_eq_iff : ∀ (fields : List Field) (s t : Scope δ),
    fieldDenotes fields s = fieldDenotes fields t ↔ ∀ n ∈ fieldRefs fields, s n = t n
  | [], s, t => by simp [fieldDenotes, fieldRefs]
  | f :: rest, s, t => by
      simp [fieldDenotes, fieldRefs, Field.denote_eq_iff f s t, fieldDenotes_eq_iff rest s t, or_imp,
        forall_and]
termination_by structural x => x

theorem Field.denote_eq_iff : ∀ (f : Field) (s t : Scope δ),
    f.denote s = f.denote t ↔ ∀ n ∈ f.refs, s n = t n
  | ⟨_, _, type, _, _⟩, s, t => by simp [Field.denote, Field.refs, Expr.denote_eq_iff type s t]
termination_by structural x => x

end

end

/-! ## The scopes of a function -/

/-- The names that the type of a receiver gives to the parameters of a generic type. -/
def receiverParams : Expr → List Bytes
  | .star _ x => receiverParams x
  | .paren _ x _ => receiverParams x
  | .index _ _ indices _ =>
    indices.filterMap fun
      | .ident id => some id.name
      | _ => none
  | _ => []
termination_by structural x => x

namespace FuncDecl

def typeParameters (d : FuncDecl) : List Bytes :=
  ((d.recv.map (·.list)).getD []).flatMap (receiverParams ·.type) ++
    optFieldListNames d.type.typeParams

/-- The receiver, the parameters and the named results. -/
def locals (d : FuncDecl) : List Bytes :=
  optFieldListNames d.recv ++ d.type.params.names ++ optFieldListNames d.type.results

/-- The scope of the signature, in a file with these declarations. -/
def signatureScope {δ : Type} (d : FuncDecl) (outside : Bytes → Option δ) : Scope δ :=
  Scope.declare (fun name => (outside name).map .outside) d.typeParameters .typeParameter

/-- The scope at the start of the body. -/
def bodyScope {δ : Type} (d : FuncDecl) (outside : Bytes → Option δ) : Scope δ :=
  (d.signatureScope outside).declare d.locals .localName

theorem signatureScope_ne_local {δ : Type} (d : FuncDecl) (outside : Bytes → Option δ)
    (name : Bytes) : d.signatureScope outside name ≠ some (.localName name) := by
  unfold signatureScope Scope.declare
  split
  · simp
  · cases outside name <;> simp

theorem bodyScope_eq_iff {δ : Type} (d : FuncDecl) (outside : Bytes → Option δ) (name : Bytes) :
    d.bodyScope outside name = d.signatureScope outside name ↔ name ∉ d.locals := by
  unfold bodyScope Scope.declare
  by_cases h : name ∈ d.locals
  · rw [if_pos h]
    exact iff_of_false (d.signatureScope_ne_local outside name).symm (not_not_intro h)
  · rw [if_neg h]
    exact iff_of_true rfl h

end FuncDecl

theorem mem_fieldRefs_of_getLast? {fields : List Field} {f : Field} {name : Bytes}
    (hlast : fields.getLast? = some f) (hname : name ∈ f.refs) : name ∈ fieldRefs fields := by
  obtain ⟨front, rfl⟩ := List.getLast?_eq_some_iff.mp hlast
  clear hlast
  induction front with
  | nil => exact List.mem_append_left _ hname
  | cons g front ih => exact List.mem_append_right _ ih

end RetryWeave.Syntax

namespace RetryWeave

open Syntax

/-- The results of a function that returns an error refer to `error`. -/
theorem Signature.error_mem_refs {signature : Signature} {results : FieldList}
    (h : signature.fallible? = some results) : Bytes.ofString "error" ∈ results.refs := by
  obtain ⟨opening, list, closing⟩ := results
  have hlast := (Option.filter_eq_some_iff.mp h).2
  dsimp only at hlast
  split at hlast
  · rename_i doc names id tag comment hget
    have hid : id.name = Bytes.ofString "error" := of_decide_eq_true hlast
    refine mem_fieldRefs_of_getLast? hget ?_
    simp [Field.refs, Expr.refs, hid]
  · cases hlast

namespace RetryLoop

/-- The result types of a function mean in its body what they mean in its signature if and only if
none of the names they refer to is its receiver, a parameter or a named result; and they always
refer to `error`. -/
theorem results_denote_same_iff {defaults : Defaults} {directive : Directive} {d : FuncDecl}
    {place : Position} {contextName : Option Bytes} {supply : NameSupply} {l : RetryLoop}
    (h : build defaults directive (some (.func d)) place contextName supply = .ok l)
    {δ : Type} (outside : Bytes → Option δ) :
    d.type.results = some l.results ∧ Bytes.ofString "error" ∈ l.results.refs ∧
    (∀ name ∈ l.results.refs,
      (d.bodyScope outside name = d.signatureScope outside name ↔ name ∉ d.locals)) ∧
    (l.results.denotes (d.bodyScope outside) = l.results.denotes (d.signatureScope outside) ↔
      ∀ name ∈ l.results.refs, name ∉ d.locals) := by
  obtain ⟨signature, hbuilt⟩ := built_of_build h
  obtain rfl : (⟨d.name.name, d.type, d.body⟩ : Signature) = signature :=
    Option.some.inj hbuilt.owner
  refine ⟨Signature.results_of_fallible? hbuilt.results, Signature.error_mem_refs hbuilt.results,
    fun name _ => d.bodyScope_eq_iff outside name, ?_⟩
  rw [FieldList.denotes_eq_iff]
  simp only [d.bodyScope_eq_iff outside]

/-- `func f(parameter int) (time.Duration, error)`, with an empty body. -/
def durationDecl (parameter : Bytes) : FuncDecl where
  doc := none
  recv := none
  name := .fresh "f"
  type := ⟨none, none,
    ⟨none, [⟨none, [.fresh parameter], .ident (.fresh "int"), none, none⟩], none⟩,
    some ⟨none, [
      ⟨none, [], .selector (.ident (.fresh "time")) (.fresh "Duration"), none, none⟩,
      ⟨none, [], .ident (.fresh "error"), none, none⟩], none⟩⟩
  body := some (block [])

/-- A file that imports `time`; `int` and `error` are predeclared. -/
def timeFile (name : Bytes) : Option Bool :=
  if name = Bytes.ofString "time" then some true
  else if name ∈ [Bytes.ofString "int", Bytes.ofString "error"] then some false
  else none

/-- A parameter `n` is not in the way of the result types. -/
theorem results_denote_same_iff_durationDecl :
    ∃ l, build ⟨3, "m"⟩ ⟨[], .unknown⟩ (some (.func (durationDecl "n"))) .unknown none
        ⟨.sequential, "retry", []⟩ = .ok l ∧
      l.results.refs = ["time", "error"] ∧
      l.results.denotes ((durationDecl "n").bodyScope timeFile) =
        l.results.denotes ((durationDecl "n").signatureScope timeFile) := by
  refine ⟨_, rfl, rfl, ?_⟩
  have hbuild : build ⟨3, "m"⟩ ⟨[], .unknown⟩ (some (.func (durationDecl "n"))) .unknown none
      ⟨.sequential, "retry", []⟩ = .ok _ := rfl
  exact (results_denote_same_iff hbuild timeFile).2.2.2.mpr (by decide)

/-- A parameter `time` is: the function is accepted all the same, and the package of its first
result stands for the parameter in its body. -/
theorem results_denote_parameter :
    ∃ l, build ⟨3, "m"⟩ ⟨[], .unknown⟩ (some (.func (durationDecl "time"))) .unknown none
        ⟨.sequential, "retry", []⟩ = .ok l ∧
      Bytes.ofString "time" ∈ l.results.refs ∧
      (durationDecl "time").signatureScope timeFile "time" = some (.outside true) ∧
      (durationDecl "time").bodyScope timeFile "time" = some (.localName "time") ∧
      l.results.denotes ((durationDecl "time").bodyScope timeFile) ≠
        l.results.denotes ((durationDecl "time").signatureScope timeFile) := by
  refine ⟨_, rfl, by decide, by decide, by decide, ?_⟩
  rw [Ne, FieldList.denotes_eq_iff]
  intro h
  have htime := h "time" (by decide)
  rw [FuncDecl.bodyScope_eq_iff] at htime
  exact htime (by decide)

end RetryLoop

end RetryWeave
