import RetryWeave.Proofs.Loop.Budget
import RetryWeave.Proofs.Loop.Build

/-! # The rules for a loop

A loop is built if and only if all rules are kept, and otherwise the first rule that is broken is
reported. Each rule is stated here on its own, without regard to those before it. -/

namespace RetryWeave

open Syntax

/-! ## What the rules speak of -/

/-- The number that arguments ask for: the default, or the value of the integer that the only
argument consists of. -/
def Directive.asked? (default : Int) : List Bytes → Option Int
  | [] => some default
  | [arg] => ((budgetText? arg).bind writtenInteger?).map fun (negative, lit) =>
    if negative then -(literalValue lit : Int) else literalValue lit
  | _ => none

/-- Functions are declared by function declarations, and by the fields of interfaces that have one
name and a function type. -/
inductive Owner.Declares : Owner → Signature → Prop where
  | func (d : FuncDecl) : Declares (.func d) ⟨d.name.name, d.type, d.body⟩
  | method {f : Field} {name : Ident} {type : FuncType} (hname : f.names = [name])
    (htype : f.type = .funcType type) : Declares (.field f true) ⟨name.name, type, none⟩

/-- The types of a list of fields, once for each name, and once for a field without names. -/
def Syntax.FieldList.types (fields : FieldList) : List Expr :=
  fields.list.flatMap fun f => List.replicate (max 1 f.names.length) f.type

namespace Signature

def resultTypes (s : Signature) : List Expr := (s.type.results.map FieldList.types).getD []

/-- The last result is an `error`. -/
def Throws (s : Signature) : Prop :=
  ∃ id, s.resultTypes.getLast? = some (.ident id) ∧ id.name = Bytes.ofString "error"

end Signature

namespace RetryLoop

/-- The target is a declaration of a function with this signature. -/
def Declared (target : Option Owner) (s : Signature) : Prop :=
  ∃ owner, target = some owner ∧ owner.Declares s

/-- What each rule demands of a directive and of what it is attached to. -/
def Keeps (default : Int) (directive : Directive) (target : Option Owner) : Fault → Prop
  | .invalidRetries => ∃ n, Directive.asked? default directive.args = some n
  | .nonPositiveRetries => ∃ n, Directive.asked? default directive.args = some n ∧ 0 < n ∧
      (directive.args = [] ∨ n < 2 ^ 63)
  | .notFunction => ∃ s, Declared target s
  | .notThrowing => ∃ s, Declared target s ∧ s.Throws
  | .noBody => ∃ s, Declared target s ∧ s.body.isSome = true

/-- The first rule in their order that is not kept. -/
def FirstBroken (default : Int) (directive : Directive) (target : Option Owner) (fault : Fault) :
    Prop :=
  ¬ Keeps default directive target fault ∧
    ∀ earlier, Fault.code earlier < fault.code → Keeps default directive target earlier

end RetryLoop

/-! ## The checks decide the rules -/

theorem Directive.budget_eq (args : List Bytes) (default : Int) :
    budget args default =
      match asked? default args with
      | none => .error .invalidRetries
      | some n =>
        if 0 < n ∧ (args = [] ∨ n < 2 ^ 63) then .ok n else .error .nonPositiveRetries := by
  match args with
  | [] =>
      by_cases hpos : 0 < default
      · rw [budget, if_neg (Int.not_le.mpr hpos)]
        simp [asked?, hpos]
      · rw [budget, if_pos (Int.not_lt.mp hpos)]
        simp [asked?, hpos]
  | [arg] =>
      cases harg : budgetText? arg with
      | none => simp [budget, asked?, harg]
      | some v =>
          cases hv : writtenInteger? v with
          | none => simp [budget_of_noLiteral harg hv, asked?, harg, hv]
          | some literal =>
              obtain ⟨negative, lit⟩ := literal
              rw [budget_of_literal harg hv]
              cases negative with
              | true => simp [asked?, harg, hv]
              | false =>
                  have hasked : asked? default [arg] = some (literalValue lit : Int) := by
                    simp [asked?, harg, hv]
                  simp only [hasked, Bool.false_eq_true, false_or, List.cons_ne_nil]
                  by_cases hfits : 0 < literalValue lit ∧ literalValue lit < 2 ^ 63
                  · rw [if_neg (by omega), if_pos (by omega)]
                  · rw [if_pos (by omega), if_neg (by omega)]
  | _ :: _ :: _ => rfl

theorem Signature.ofOwner?_eq_some_iff {owner : Owner} {s : Signature} :
    ofOwner? owner = some s ↔ owner.Declares s := by
  constructor
  · intro h
    unfold ofOwner? at h
    split at h
    · obtain rfl := Option.some.inj h
      exact .func _
    · obtain rfl := Option.some.inj h
      exact .method rfl rfl
    · cases h
  · rintro (d | ⟨hname, htype⟩)
    · rfl
    · rename_i f name type
      obtain ⟨doc, names, ftype, tag, comment⟩ := f
      obtain rfl := hname
      obtain rfl := htype
      rfl

theorem Syntax.FieldList.length_types (fields : FieldList) :
    fields.types.length = Signature.resultCount fields := by
  unfold types Signature.resultCount
  induction fields.list with
  | nil => rfl
  | cons f fs ih => rw [List.flatMap_cons, List.length_append, ih, List.length_replicate, List.foldr_cons]

/-- Each field declares at least one, so the last field has the last type. -/
theorem Syntax.FieldList.getLast?_types (fields : FieldList) :
    fields.types.getLast? = fields.list.getLast?.map (·.type) := by
  rcases List.eq_nil_or_concat fields.list with hnil | ⟨front, f, hlist⟩
  · simp [types, hnil]
  · have hpos : max 1 f.names.length ≠ 0 := by omega
    rw [types, hlist, List.concat_eq_append, List.flatMap_append, List.flatMap_singleton]
    simp [List.getLast?_append, List.getLast?_replicate, hpos]

theorem Signature.fallible?_eq_some_iff {s : Signature} {results : FieldList} :
    s.fallible? = some results ↔ s.type.results = some results ∧ s.Throws := by
  rw [fallible?, Option.filter_eq_some_iff]
  refine and_congr_right fun hresults => ?_
  have htypes : s.resultTypes = results.types := by rw [resultTypes, hresults]; rfl
  rw [Throws, htypes, results.getLast?_types]
  cases results.list.getLast? with
  | none => simp
  | some f =>
      obtain ⟨doc, names, type, tag, comment⟩ := f
      cases type <;> simp

theorem Signature.Throws.exists_fallible? {s : Signature} (h : s.Throws) :
    ∃ results, s.fallible? = some results := by
  obtain ⟨id, hlast, hid⟩ := h
  cases hresults : s.type.results with
  | none => simp [resultTypes, hresults] at hlast
  | some results => exact ⟨results, fallible?_eq_some_iff.mpr ⟨hresults, id, hlast, hid⟩⟩

namespace RetryLoop

theorem declared_iff {target : Option Owner} {s : Signature} :
    Declared target s ↔ target.bind Signature.ofOwner? = some s := by
  simp only [Declared, Option.bind_eq_some_iff, Signature.ofOwner?_eq_some_iff]

theorem forall_fault_iff {p : Fault → Prop} : (∀ fault, p fault) ↔
    p .invalidRetries ∧ p .nonPositiveRetries ∧ p .notFunction ∧ p .notThrowing ∧ p .noBody :=
  ⟨fun h => ⟨h _, h _, h _, h _, h _⟩, fun ⟨h₁, h₂, h₃, h₄, h₅⟩ fault => by cases fault <;> assumption⟩

section

variable {default n : Int} {directive : Directive} {target : Option Owner} {s : Signature}

theorem keeps_of_budget (target : Option Owner)
    (h : Directive.budget directive.args default = .ok n) :
    Directive.asked? default directive.args = some n ∧
      Keeps default directive target .invalidRetries ∧
      Keeps default directive target .nonPositiveRetries := by
  rw [Directive.budget_eq] at h
  split at h
  · cases h
  · rename_i m hasked
    split_ifs at h with hcount
    obtain rfl := Except.ok.inj h
    exact ⟨hasked, ⟨m, hasked⟩, m, hasked, hcount⟩

theorem firstBroken_of_budget {fault : Fault}
    (h : Directive.budget directive.args default = .error fault) :
    FirstBroken default directive target fault ∧ fault ≠ .noBody := by
  rw [Directive.budget_eq] at h
  split at h
  · rename_i hasked
    cases h
    exact ⟨by simp [FirstBroken, forall_fault_iff, Fault.code, Keeps, hasked], by decide⟩
  · rename_i m hasked
    split_ifs at h with hcount
    cases h
    have hbroken : ¬ Keeps default directive target .nonPositiveRetries := by
      rintro ⟨n, hn, hpositive⟩
      obtain rfl : m = n := Option.some.inj (hasked.symm.trans hn)
      exact hcount hpositive
    have hargs : Keeps default directive target .invalidRetries := ⟨m, hasked⟩
    exact ⟨by simp [FirstBroken, forall_fault_iff, Fault.code, hargs, hbroken], by decide⟩

theorem keeps_notFunction_iff :
    Keeps default directive target .notFunction ↔ (target.bind Signature.ofOwner?).isSome = true := by
  simp only [Keeps, declared_iff, Option.isSome_iff_exists]

theorem keeps_notThrowing_iff (hs : target.bind Signature.ofOwner? = some s) :
    Keeps default directive target .notThrowing ↔ s.fallible?.isSome = true := by
  simp only [Keeps, declared_iff, hs, Option.some.injEq, exists_eq_left', Option.isSome_iff_exists]
  exact ⟨Signature.Throws.exists_fallible?, fun ⟨_, h⟩ => (Signature.fallible?_eq_some_iff.mp h).2⟩

theorem keeps_noBody_iff (hs : target.bind Signature.ofOwner? = some s) :
    Keeps default directive target .noBody ↔ s.body.isSome = true := by
  simp only [Keeps, declared_iff, hs, Option.some.injEq, exists_eq_left']

end

variable {defaults : Defaults} {directive : Directive} {target : Option Owner} {place : Position}
  {contextName : Option Bytes} {supply : NameSupply}

/-- A loop that was built keeps all rules. -/
theorem Built.keeps {signature : Signature} {l : RetryLoop}
    (h : Built defaults directive target contextName supply signature l) :
    ∀ fault, Keeps defaults.retries directive target fault := by
  obtain ⟨-, hargs, hpositive⟩ := keeps_of_budget target h.budget
  refine forall_fault_iff.mpr ⟨hargs, hpositive, ?_, ?_, ?_⟩
  · rw [keeps_notFunction_iff, h.owner]
    rfl
  · rw [keeps_notThrowing_iff h.owner, h.results]
    rfl
  · rw [keeps_noBody_iff h.owner, h.body]
    rfl

/-- What is reported is the first rule that is broken. -/
theorem firstBroken_of_build {d : Diagnostic}
    (h : build defaults directive target place contextName supply = .error d) :
    FirstBroken defaults.retries directive target d.fault ∧
      d.position = if d.fault = .noBody then place else directive.position := by
  unfold build at h
  split at h
  · rename_i fault hbudget
    cases h
    obtain ⟨hfirst, hne⟩ := firstBroken_of_budget hbudget
    exact ⟨hfirst, by rw [if_neg hne]⟩
  · rename_i retries hbudget
    obtain ⟨-, hargs, hpositive⟩ := keeps_of_budget target hbudget
    split at h
    · rename_i howner
      cases h
      simp [FirstBroken, forall_fault_iff, Fault.code, hargs, hpositive, keeps_notFunction_iff, howner]
    · rename_i signature howner
      split at h
      · rename_i hresults
        cases h
        simp [FirstBroken, forall_fault_iff, Fault.code, hargs, hpositive, keeps_notFunction_iff, howner,
          keeps_notThrowing_iff howner, hresults]
      · rename_i results hresults
        split at h
        · rename_i hbody
          cases h
          simp [FirstBroken, forall_fault_iff, Fault.code, hargs, hpositive, keeps_notFunction_iff, howner,
            keeps_notThrowing_iff howner, hresults, keeps_noBody_iff howner, hbody]
        · cases h

/-- A directive is rejected where it stands, or where a declaration with a signature starts. -/
theorem position_of_build {diagnostic : Diagnostic}
    (h : build defaults directive target place contextName supply = .error diagnostic) :
    diagnostic.position = directive.position ∨
      diagnostic.position = place ∧ ∃ s, target.bind Signature.ofOwner? = some s := by
  obtain ⟨hfirst, hposition⟩ := firstBroken_of_build h
  by_cases hbody : diagnostic.fault = .noBody
  · have hfunction := hfirst.2 .notFunction (by rw [hbody]; decide)
    rw [if_pos hbody] at hposition
    exact .inr ⟨hposition, Option.isSome_iff_exists.mp (keeps_notFunction_iff.mp hfunction)⟩
  · rw [if_neg hbody] at hposition
    exact .inl hposition

theorem FirstBroken.unique {default : Int} {fault fault' : Fault}
    (h : FirstBroken default directive target fault)
    (h' : FirstBroken default directive target fault') : fault = fault' := by
  have hcode : ∀ a b : Fault, a.code = b.code → a = b := by
    intro a b
    cases a <;> cases b <;> decide
  rcases lt_trichotomy fault.code fault'.code with hlt | heq | hgt
  · exact absurd (h'.2 fault hlt) h.1
  · exact hcode _ _ heq
  · exact absurd (h.2 fault' hgt) h'.1

/-- A loop is built if and only if all rules are kept, and then it has the number of attempts that the
arguments ask for, the declared name, and a value for each result before the last. Otherwise the first rule
that is broken is reported, where the directive is, or where the declaration is if that has no body. -/
theorem build_validates (defaults : Defaults) (directive : Directive) (target : Option Owner)
    (place : Position) (contextName : Option Bytes) (supply : NameSupply) :
    let result := build defaults directive target place contextName supply
    ((∃ l, result = .ok l) ↔ ∀ fault, Keeps defaults.retries directive target fault) ∧
    (∀ l, result = .ok l → Directive.asked? defaults.retries directive.args = some l.retries ∧
      ∃ s, Declared target s ∧ s.Throws ∧ l.function = s.name ∧
        l.values.length + 1 = s.resultTypes.length) ∧
    (∀ d, result = .error d ↔ FirstBroken defaults.retries directive target d.fault ∧
      d.position = if d.fault = .noBody then place else directive.position) ∧
    ∀ d, result = .error d → (d.fault, d.message) ∈ ([
      (.invalidRetries, "Missing or invalid 'retries' parameter"),
      (.nonPositiveRetries, "Retries count must be positive"),
      (.notFunction, "Macro can only be applied to function declarations"),
      (.notThrowing, "Macro can only be applied to throwing functions"),
      (.noBody, "Function must have a body to apply retry logic")] : List (Fault × Bytes)) := by
  intro result
  have hok : ∀ l, result = .ok l → ∀ fault, Keeps defaults.retries directive target fault := by
    intro l hl
    obtain ⟨signature, hbuilt⟩ := built_of_build hl
    exact hbuilt.keeps
  refine ⟨⟨fun ⟨l, hl⟩ => hok l hl, fun hkeeps => ?_⟩, fun l hl => ?_, fun d => ⟨firstBroken_of_build, ?_⟩,
    fun ⟨fault, position⟩ _ => by cases fault <;> simp [Diagnostic.message, Fault.message]⟩
  · cases hresult : result with
    | ok l => exact ⟨l, rfl⟩
    | error d => exact absurd (hkeeps d.fault) (firstBroken_of_build hresult).1.1
  · obtain ⟨signature, hbuilt⟩ := built_of_build hl
    obtain ⟨hresults, hthrows⟩ := Signature.fallible?_eq_some_iff.mp hbuilt.results
    refine ⟨(keeps_of_budget target hbuilt.budget).1, signature, declared_iff.mpr hbuilt.owner, hthrows,
      hbuilt.function, ?_⟩
    have htypes : signature.resultTypes = l.results.types := by rw [Signature.resultTypes, hresults]; rfl
    have hpos := Signature.resultCount_pos hbuilt.results
    rw [hbuilt.values_length, htypes, FieldList.length_types]
    omega
  · rintro ⟨hfirst, hposition⟩
    cases hresult : result with
    | ok l => exact absurd (hok l hresult d.fault) hfirst.1
    | error d' =>
        obtain ⟨hfirst', hposition'⟩ := firstBroken_of_build hresult
        have hfault := hfirst'.unique hfirst
        obtain ⟨fault, position⟩ := d
        obtain ⟨fault', position'⟩ := d'
        obtain rfl : fault' = fault := hfault
        rw [show position' = position from hposition'.trans hposition.symm]

/-- A function with these results. -/
def functionReturning (results : List Bytes) (body : Option Block) : Option Owner :=
  some (.func ⟨none, none, .fresh "f", ⟨none, none, ⟨none, [], none⟩,
    some ⟨none, results.map fun r => ⟨none, [], name r, none, none⟩, none⟩⟩, body⟩)

def directivePlace : Position := ⟨"a.go", 3, 1, 11⟩

def functionPlace : Position := ⟨"a.go", 4, 1, 29⟩

/-- What is made of arguments and a target. -/
def made (default : Int) (args : List Bytes) (target : Option Owner) : Except Diagnostic RetryLoop :=
  build ⟨default, []⟩ ⟨args, directivePlace⟩ target functionPlace none ⟨.sequential, [], []⟩

/-- A fault is the first one, and is reported with a message. -/
def Reports (default : Int) (args : List Bytes) (target : Option Owner) (d : Diagnostic)
    (message : Bytes) : Prop :=
  made default args target = .error d ∧ FirstBroken default ⟨args, directivePlace⟩ target d.fault ∧
    d.message = message

/-- Each rule is broken where later ones are broken, too. With all rules kept there is a loop. -/
theorem build_validates_in_order :
    Reports 0 ["1", "2"] none ⟨.invalidRetries, directivePlace⟩
      "Missing or invalid 'retries' parameter" ∧
    Reports 0 [] none ⟨.nonPositiveRetries, directivePlace⟩ "Retries count must be positive" ∧
    Reports 3 [] none ⟨.notFunction, directivePlace⟩
      "Macro can only be applied to function declarations" ∧
    Reports 3 [] (functionReturning ["int"] none) ⟨.notThrowing, directivePlace⟩
      "Macro can only be applied to throwing functions" ∧
    Reports 3 [] (functionReturning ["int", "error"] none) ⟨.noBody, functionPlace⟩
      "Function must have a body to apply retry logic" ∧
    ∃ l, made 3 [] (functionReturning ["int", "error"] (some (block []))) = .ok l ∧
      l.retries = 3 ∧ l.function = "f" ∧ l.values.length = 1 := by
  have hall := fun (default : Int) (args : List Bytes) (target : Option Owner) =>
    build_validates ⟨default, []⟩ ⟨args, directivePlace⟩ target functionPlace none ⟨.sequential, [], []⟩
  have hreports : ∀ {default args target} {d : Diagnostic} {message : Bytes},
      made default args target = .error d → d.message = message →
        Reports default args target d message :=
    fun h hmessage => ⟨h, (((hall ..).2.2.1 _).mp h).1, hmessage⟩
  refine ⟨hreports rfl ?_, hreports rfl ?_, hreports rfl ?_, hreports rfl ?_, hreports rfl ?_, ?_⟩
  · simpa using (hall 0 ["1", "2"] none).2.2.2 ⟨.invalidRetries, directivePlace⟩ rfl
  · simpa using (hall 0 [] none).2.2.2 ⟨.nonPositiveRetries, directivePlace⟩ rfl
  · simpa using (hall 3 [] none).2.2.2 ⟨.notFunction, directivePlace⟩ rfl
  · simpa using (hall 3 [] (functionReturning ["int"] none)).2.2.2 ⟨.notThrowing, directivePlace⟩ rfl
  · simpa using (hall 3 [] (functionReturning ["int", "error"] none)).2.2.2
      ⟨.noBody, functionPlace⟩ rfl
  · exact ⟨_, rfl, rfl, rfl, rfl⟩

end RetryLoop

end RetryWeave
