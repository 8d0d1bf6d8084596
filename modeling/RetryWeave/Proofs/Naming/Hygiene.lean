import RetryWeave.Proofs.Naming.Shape
import RetryWeave.Proofs.Syntax.Occurrence

/-! # Hygiene of introduced names

The names of an expansion are new to the file: none of them is captured by a declaration of the
file, and none of them captures an identifier of the body that moves into the closure. -/

namespace RetryWeave.RetryLoop

open Syntax

/-- What a name must satisfy to be introduced into a file, which imports packages under the last
elements of their paths where it gives no name. -/
structure NewName (f : File) (name : Bytes) : Prop where
  not_occurs : ¬ Occurs name (.file f)
  ne_import : ∀ lit path, (none, lit) ∈ f.imports → Quoted.unquote? lit.text = some path →
    name ≠ lastElement path
  isIdentifier : Syntax.isIdentifier name = true
  not_keyword : Tok.keyword? name = none
  ne_blank : name ≠ [Ascii.underscore]
  ne_nil : name ≠ Bytes.ofString "nil"
  ne_panic : name ≠ Bytes.ofString "panic"

theorem Built.newName {f : File} {defaults : Defaults} {directive : Directive}
    {target : Option Owner} {contextName : Option Bytes} {style : NameStyle} {stem : Bytes}
    {signature : Signature} {l : RetryLoop}
    (h : Built defaults directive target contextName ⟨style, stem, f.idents⟩ signature l)
    (hstem : NameSupply.isStem stem = true) {name : Bytes} (hname : name ∈ l.names) :
    NewName f name := by
  have hnew := h.notMem_taken hname
  have hshape := h.hasShape hname
  exact {
    not_occurs := fun hoccurs => hnew hoccurs.mem_idents
    ne_import := fun lit path himport hpath heq =>
      hnew (heq ▸ lastElement_mem_idents himport hpath)
    isIdentifier := hshape.isIdentifier hstem
    not_keyword := hshape.keyword?_eq_none
    ne_blank := hshape.ne_blank
    ne_nil := hshape.ne_nil
    ne_panic := hshape.ne_panic }

/-- The names that the expansion of a function introduces into its file are pairwise different and
new to the file, whatever the stem, the style and the seed. So the body and the result types, which
move under these names, mention none of them. -/
theorem introduced_names_hygienic {f : File} {d : FuncDecl} (hd : d ∈ f.funcs) {stem : Bytes}
    (hstem : NameSupply.isStem stem = true) {style : NameStyle} {defaults : Defaults}
    {directive : Directive} {place : Position} {contextName : Option Bytes} {l : RetryLoop}
    (h : build defaults directive (some (.func d)) place contextName ⟨style, stem, f.idents⟩ =
      .ok l) :
    l.names.Nodup ∧ ∀ name ∈ l.names, NewName f name ∧ ¬ Occurs name (.block l.body) ∧
      ¬ Occurs name (.fields l.results) := by
  obtain ⟨signature, hbuilt⟩ := built_of_build h
  obtain rfl : (⟨d.name.name, d.type, d.body⟩ : Signature) = signature :=
    Option.some.inj hbuilt.owner
  refine ⟨hbuilt.names_nodup, fun name hname => ?_⟩
  have hnew := hbuilt.newName hstem hname
  refine ⟨hnew, fun hbody => hnew.not_occurs (occurs_func hd ?_),
    fun hresults => hnew.not_occurs (occurs_func hd ?_)⟩
  · refine .under ?_ hbody
    simp [Part.children, show d.body = some l.body from hbuilt.body]
  · have hlist : d.type.results = some l.results := Signature.results_of_fallible? hbuilt.results
    have htype : Occurs name (.funcType d.type) := .under (by simp [Part.children, hlist]) hresults
    exact .under (by simp [Part.children]) htype

/-- `func f() error`, with a body that calls a function of the given name. -/
def callingDecl (callee : Bytes) : FuncDecl where
  doc := none
  recv := none
  name := .fresh "f"
  type := ⟨none, none, ⟨none, [], none⟩,
    some ⟨none, [⟨none, [], .ident (.fresh "error"), none, none⟩], none⟩⟩
  body := some (block [.ret none [call callee []]])

/-- `package p`, with this declaration. -/
def fileOf (d : FuncDecl) : File := ⟨none, none, .fresh "p", [.func d], [], ⟨[], 0, #[], []⟩⟩

/-- The name `goBlock` is in use, so the closure gets the next one. -/
theorem introduced_names_hygienic_callingDecl :
    let f := fileOf (callingDecl "goBlock")
    ∃ l, build ⟨3, "m"⟩ ⟨[], .unknown⟩ (some (.func (callingDecl "goBlock"))) .unknown none
        ⟨.sequential, "go", f.idents⟩ = .ok l ∧
      l.names = ["goBlock1", "goAttempts", "goErr"] ∧ l.names.Nodup ∧
      ∀ name ∈ l.names, NewName f name ∧ ¬ Occurs name (.block l.body) ∧
        ¬ Occurs name (.fields l.results) := by
  intro f
  refine ⟨_, rfl, by decide, ?_⟩
  have hd : callingDecl "goBlock" ∈ f.funcs := List.mem_singleton.mpr rfl
  have hbuild : build ⟨3, "m"⟩ ⟨[], .unknown⟩ (some (.func (callingDecl "goBlock"))) .unknown none
      ⟨.sequential, "go", f.idents⟩ = .ok _ := rfl
  exact introduced_names_hygienic hd (by decide) hbuild

end RetryWeave.RetryLoop
