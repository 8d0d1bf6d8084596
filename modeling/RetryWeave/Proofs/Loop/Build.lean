import RetryWeave.Proofs.Text.Integer
import RetryWeave.Expansion.Plan
import RetryWeave.Proofs.Naming.Fresh

/-! # What is known of a retry loop that was built -/

namespace RetryWeave

open Syntax

/-! ## What the checks ensure -/

/-- A budget is positive, and it fits into 64 bits with a sign if the default does. -/
theorem Directive.budget_bounds {args : List Bytes} {default n : Int}
    (h : Directive.budget args default = .ok n) : 0 < n ∧ (n = default ∨ n ≤ maxBudget) := by
  unfold Directive.budget at h
  split at h
  · split at h
    · cases h
    · obtain rfl := Except.ok.inj h
      exact ⟨by omega, .inl rfl⟩
  · split at h
    · cases h
    · split at h
      · cases h
      · rename_i read hread
        split at h
        · cases h
        · rename_i hfaults
          obtain rfl := Except.ok.inj h
          simp only [Bool.or_eq_true, decide_eq_true_eq, not_or] at hfaults
          have hbound := Integer.lt_of_read hread
          exact ⟨by omega, .inr (by rw [maxBudget]; omega)⟩
  · cases h

/-- A declaration that returns an error has a result. -/
theorem Signature.resultCount_pos {signature : Signature} {results : FieldList}
    (h : signature.fallible? = some results) : 0 < Signature.resultCount results := by
  obtain ⟨_, hlast⟩ := Option.filter_eq_some_iff.mp h
  cases hlist : results.list with
  | nil => simp [hlist] at hlast
  | cons f fs =>
      rw [Signature.resultCount, hlist, List.foldr_cons]
      omega

theorem Signature.results_of_fallible? {signature : Signature} {results : FieldList}
    (h : signature.fallible? = some results) : signature.type.results = some results :=
  (Option.filter_eq_some_iff.mp h).1

namespace RetryLoop

/-! ## The loop -/

/-- The names that an expansion introduces, in the order in which they are given out. -/
def names (l : RetryLoop) : List Bytes := l.helper :: l.counter :: (l.values ++ [l.error])

/-- The bases of the introduced names when `count` results stand before the error. -/
def bases (count : Nat) : List Bytes :=
  "block" :: "attempts" :: (valueBases count ++ [Bytes.ofString "err"])

/-- A loop that was built passed all checks and took its names from the supply. -/
structure Built (defaults : Defaults) (directive : Directive) (target : Option Owner)
    (contextName : Option Bytes) (supply : NameSupply) (signature : Signature) (l : RetryLoop) :
    Prop where
  owner : target.bind Signature.ofOwner? = some signature
  budget : Directive.budget directive.args defaults.retries = .ok l.retries
  results : signature.fallible? = some l.results
  body : signature.body = some l.body
  function : l.function = signature.name
  async : l.async = signature.beginsWithContext contextName
  message : l.message = defaults.message
  names_eq : l.names = (supply.freshAll (bases (Signature.resultCount l.results - 1))).1
  values_length : l.values.length = Signature.resultCount l.results - 1

theorem length_valueBases (count : Nat) : (valueBases count).length = count := by
  unfold valueBases
  split
  · rename_i h
    rw [h, List.length_singleton]
  · rw [List.length_map, List.length_range]

theorem built_of_build {defaults : Defaults} {directive : Directive} {target : Option Owner}
    {place : Position} {contextName : Option Bytes} {supply : NameSupply} {l : RetryLoop}
    (h : build defaults directive target place contextName supply = .ok l) :
    ∃ signature, Built defaults directive target contextName supply signature l := by
  unfold build at h
  split at h
  · cases h
  · rename_i retries hbudget
    split at h
    · cases h
    · rename_i signature howner
      split at h
      · cases h
      · rename_i results hresults
        split at h
        · cases h
        · rename_i body hbody
          obtain rfl := Except.ok.inj h
          refine ⟨signature, howner, hbudget, hresults, hbody, rfl, rfl, rfl, ?_, ?_⟩
          · simp only [bases, names, NameSupply.freshAll_cons, NameSupply.freshAll_append]
            rfl
          · exact (NameSupply.length_freshAll _ _).trans (length_valueBases _)

namespace Built

variable {defaults : Defaults} {directive : Directive} {target : Option Owner}
  {contextName : Option Bytes} {supply : NameSupply} {signature : Signature} {l : RetryLoop}

theorem names_nodup (h : Built defaults directive target contextName supply signature l) :
    l.names.Nodup :=
  h.names_eq ▸ (supply.freshAll_spec _).2

theorem notMem_taken (h : Built defaults directive target contextName supply signature l)
    {name : Bytes} (hname : name ∈ l.names) : name ∉ supply.taken :=
  (supply.freshAll_spec _).1 name (h.names_eq ▸ hname)

end Built

end RetryLoop

/-! ## The function that it was built for -/

/-- An expansion belongs to directives on a function, and its loop was built for the function. -/
structure Expansion.BuiltFor (o : Options) (name : Bytes) (f : File) (reserved : List Bytes)
    (d : DirectiveGroup) (e : Expansion) : Prop where
  owner : d.owner = some (.func e.decl)
  comments : e.comments = d.comments
  name_eq : e.name = (Owner.func e.decl).name
  position_eq : ∀ start, e.decl.start = some start → e.position = f.table.position start
  index_eq : e.index = f.funcs.findIdx fun d => d.start == e.decl.start
  built : ∃ directive signature, RetryLoop.Built o.defaults directive (some (.func e.decl))
    f.contextName? (o.names name e.name reserved) signature e.loop

namespace Plan

variable {o : Options} {name : Bytes} {f : File}

/-- What is expanded because of directives is the function that they document. -/
theorem builtFor_of_rule {reserved : List Bytes} {d : DirectiveGroup} {e : Expansion}
    (h : (rule o name f reserved d).expansion? = some e) : e.BuiltFor o name f reserved d := by
  unfold rule at h
  dsimp only at h
  split at h
  · cases h
  · rename_i loop decl hbuild howner
    cases h
    rw [howner] at hbuild
    obtain ⟨signature, hbuilt⟩ := RetryLoop.built_of_build hbuild
    exact {
      owner := howner
      comments := rfl
      name_eq := by simp [howner]
      position_eq := fun start hstart => by simp [howner, Owner.start, hstart]
      index_eq := rfl
      built := ⟨_, signature, by rw [howner]; exact hbuilt⟩ }
  · cases h

end Plan

end RetryWeave
