import RetryWeave.Config
import RetryWeave.Files.Scan
import RetryWeave.Proofs.Text.Glob

/-! # Excluded files

A configuration is accepted only if each of its exclude patterns can be matched against every name, so
no pattern is passed over when files are looked for. -/

namespace RetryWeave

/-! ## Patterns that a configuration may hold -/

theorem Glob.matches?_eq_none_congr (pattern name name' : Bytes) :
    matches? pattern name = none ↔ matches? pattern name' = none := by
  rw [matches?_eq_none_iff, matches?_eq_none_iff]

namespace Config

variable {c : Config}

theorem validate_eq_ok_iff : c.validate = .ok () ↔ c.fault? = none := by
  rw [validate]
  cases c.fault? <;> simp

theorem fault?_eq_none_iff :
    c.fault? = none ↔ settingsFault? c.settings = none ∧ 0 ≤ c.concurrency ∧
      ∀ pattern ∈ c.exclude, Glob.matches? pattern [] ≠ none := by
  rw [fault?]
  cases settingsFault? c.settings with
  | some f => simp
  | none =>
      by_cases hnegative : c.concurrency < 0
      · simp [hnegative, Int.not_le.mpr hnegative]
      · simp [hnegative, Int.not_lt.mp hnegative]

/-- One probe of each pattern speaks for all names. -/
theorem validate_iff : c.validate = .ok () ↔ validate { c with exclude := [] } = .ok () ∧
    ∀ pattern ∈ c.exclude, ∀ name, Glob.matches? pattern name ≠ none := by
  simp only [validate_eq_ok_iff, fault?_eq_none_iff, List.not_mem_nil, false_imp_iff, implies_true,
    and_true, and_assoc]
  have hprobe : ∀ pattern : Bytes, Glob.matches? pattern [] ≠ none ↔
      ∀ name, Glob.matches? pattern name ≠ none := by
    intro pattern
    constructor
    · intro hsome name hnone
      exact hsome ((Glob.matches?_eq_none_congr pattern name []).mp hnone)
    · intro hall
      exact hall []
  simp only [hprobe]

end Config

/-! ## Files that are left alone -/

namespace Files

open Scan

/-- Where no pattern fails, a file is looked at only if each pattern was matched and does not match. -/
theorem isExcluded_eq_false_iff {exclude : List Bytes} {name rel : Bytes}
    (hname : ∀ pattern ∈ exclude, Glob.matches? pattern name ≠ none)
    (hrel : ∀ pattern ∈ exclude, Glob.matches? pattern rel ≠ none) :
    isExcluded exclude name rel = false ↔ ∀ pattern ∈ exclude,
      Glob.matches? pattern name = some false ∧ Glob.matches? pattern rel = some false := by
  have hanswer : ∀ r : Option Bool, r ≠ none → (r.getD false = false ↔ r = some false) := by
    intro r hr
    cases r with
    | none => exact absurd rfl hr
    | some matched => simp
  rw [isExcluded, List.any_eq_false]
  refine forall₂_congr fun pattern hpattern => ?_
  rw [Bool.not_eq_true, Bool.or_eq_false_iff, hanswer _ (hname pattern hpattern),
    hanswer _ (hrel pattern hpattern)]

/-- Whether a pattern is malformed does not depend on the name, so a configuration that is accepted has
no pattern that fails on some name, and only for such a pattern it is refused on their account. Its
patterns are never passed over: a file that is not excluded was matched against all of them. -/
theorem exclude_patterns_never_fail :
    (∀ pattern name name', Glob.matches? pattern name = none ↔ Glob.matches? pattern name' = none) ∧
    ∀ c : Config,
      (c.validate = .ok () ↔ Config.validate { c with exclude := [] } = .ok () ∧
        ∀ pattern ∈ c.exclude, ∀ name, Glob.matches? pattern name ≠ none) ∧
      (c.validate = .ok () → ∀ name rel, isExcluded c.exclude name rel = false ↔
        ∀ pattern ∈ c.exclude,
          Glob.matches? pattern name = some false ∧ Glob.matches? pattern rel = some false) := by
  refine ⟨Glob.matches?_eq_none_congr, fun c => ⟨Config.validate_iff, ?_⟩⟩
  intro hvalid name rel
  have hall := (Config.validate_iff.mp hvalid).2
  exact isExcluded_eq_false_iff (fun pattern hpattern => hall pattern hpattern name)
    fun pattern hpattern => hall pattern hpattern rel

/-- Two patterns that are accepted, the second of them with a class, and one that is not. -/
theorem exclude_patterns_never_fail_class :
    let c : Config := { Config.default with exclude := ["*.pb.go", "x[a-c]*"] }
    let d : Config := { Config.default with exclude := ["x[a-"] }
    c.validate = .ok () ∧ Glob.matches? "x[a-c]*" "y.go" = some false ∧
      isExcluded c.exclude "y.go" "z/y.go" = false ∧ d.validate ≠ .ok () := by
  intro c d
  have hvalid : c.validate = .ok () := by rfl
  have hbroken : Glob.matches? "x[a-" [] = none := by decide
  have hfree : isExcluded c.exclude "y.go" "z/y.go" = false := by decide
  have hall := ((exclude_patterns_never_fail.2 c).2 hvalid "y.go" "z/y.go").mp hfree
  refine ⟨hvalid, (hall "x[a-c]*" (by simp [c])).1, hfree, fun hd => ?_⟩
  exact ((exclude_patterns_never_fail.2 d).1.mp hd).2 "x[a-" (by simp [d]) [] hbroken

end Files

end RetryWeave
