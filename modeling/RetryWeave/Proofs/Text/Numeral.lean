import Mathlib.Data.List.TakeDrop
import Mathlib.Data.List.TakeWhile
import RetryWeave.Directive

/-! # Decimal numerals

A numeral is read back digit by digit, and the lexer takes it for an integer literal. -/

namespace RetryWeave.Bytes

/-! ## Digits -/

theorem toUInt8_toNat_digitChar {d : Nat} (h : d < 10) :
    d.digitChar.toNat.toUInt8 = (48 + d).toUInt8 := by
  have hd : d = 0 ∨ d = 1 ∨ d = 2 ∨ d = 3 ∨ d = 4 ∨ d = 5 ∨ d = 6 ∨ d = 7 ∨ d = 8 ∨ d = 9 := by
    omega
  rcases hd with rfl | rfl | rfl | rfl | rfl | rfl | rfl | rfl | rfl | rfl <;> rfl

theorem toNat_digit {d : Nat} (h : d < 10) : ((48 + d).toUInt8).toNat = 48 + d := by
  rw [Nat.toUInt8_eq, UInt8.toNat_ofNat']
  omega

theorem isDigit_digit {d : Nat} (h : d < 10) : Ascii.isDigit (48 + d).toUInt8 = true := by
  simp only [Ascii.isDigit, Bool.and_eq_true, decide_eq_true_eq, UInt8.le_iff_toNat_le,
    toNat_digit h]
  exact ⟨Nat.le_add_right 48 d, by show 48 + d ≤ 57; omega⟩

theorem digitValue_digit {d : Nat} (h : d < 10) : Ascii.digitValue (48 + d).toUInt8 = d := by
  rw [Ascii.digitValue, if_pos (isDigit_digit h), toNat_digit h]
  omega

theorem ofNat_of_lt {n : Nat} (h : n < 10) : ofNat n = [(48 + n).toUInt8] := by
  rw [ofNat, Nat.toDigits_of_lt_base h, List.map_singleton, toUInt8_toNat_digitChar h]

theorem ofNat_of_le {n : Nat} (h : 10 ≤ n) :
    ofNat n = ofNat (n / 10) ++ [(48 + n % 10).toUInt8] := by
  rw [ofNat, Nat.toDigits_of_base_le (by decide) h, List.map_append, List.map_singleton,
    toUInt8_toNat_digitChar (Nat.mod_lt n (by decide)), ofNat]

theorem ofNat_ne_nil (n : Nat) : ofNat n ≠ [] := by
  rw [ofNat, Ne, List.map_eq_nil_iff]
  exact Nat.toDigits_ne_nil

theorem isDigit_of_mem_ofNat (n : Nat) : ∀ b ∈ ofNat n, Ascii.isDigit b = true := by
  induction n using Nat.strongRecOn with
  | ind n ih =>
      intro b hb
      by_cases h : n < 10
      · rw [ofNat_of_lt h, List.mem_singleton] at hb
        exact hb ▸ isDigit_digit h
      · rw [ofNat_of_le (Nat.not_lt.mp h), List.mem_append, List.mem_singleton] at hb
        rcases hb with hb | rfl
        · exact ih (n / 10) (by omega) b hb
        · exact isDigit_digit (Nat.mod_lt n (by decide))

/-- Only zero has a numeral that begins with the digit zero. -/
theorem ofNat_head_ne_zero {n : Nat} (hpos : 0 < n) :
    ∃ b rest, ofNat n = b :: rest ∧ b ≠ Ascii.zero := by
  induction n using Nat.strongRecOn with
  | ind n ih =>
      by_cases h : n < 10
      · refine ⟨_, [], ofNat_of_lt h, fun hzero => ?_⟩
        have hn := congrArg UInt8.toNat hzero
        rw [toNat_digit h] at hn
        change 48 + n = 48 at hn
        omega
      · obtain ⟨b, rest, hrest, hb⟩ := ih (n / 10) (by omega) (by omega)
        exact ⟨b, rest ++ [(48 + n % 10).toUInt8],
          by rw [ofNat_of_le (Nat.not_lt.mp h), hrest, List.cons_append], hb⟩

theorem foldl_digitValue_ofNat (n : Nat) :
    (ofNat n).foldl (fun value b => value * 10 + Ascii.digitValue b) 0 = n := by
  induction n using Nat.strongRecOn with
  | ind n ih =>
      by_cases h : n < 10
      · simp only [ofNat_of_lt h, List.foldl_cons, List.foldl_nil, digitValue_digit h,
          Nat.zero_mul, Nat.zero_add]
      · rw [ofNat_of_le (Nat.not_lt.mp h), List.foldl_append, ih (n / 10) (by omega)]
        simp only [List.foldl_cons, List.foldl_nil, digitValue_digit (Nat.mod_lt n (by decide))]
        omega

theorem ofNat_injective {m n : Nat} (h : ofNat m = ofNat n) : m = n := by
  rw [← foldl_digitValue_ofNat m, h, foldl_digitValue_ofNat]

theorem ofInt_of_nonneg {i : Int} (h : 0 ≤ i) : ofInt i = ofNat i.toNat := by
  rw [ofInt, if_neg (Int.not_lt.mpr h)]
  congr 1
  omega

end RetryWeave.Bytes

/-! ## Numerals as literals -/

namespace RetryWeave.Syntax

theorem BaseMark.ofText_ofNat {n : Nat} (hpos : 0 < n) :
    BaseMark.ofText (Bytes.ofNat n) = (.decimal, [], Bytes.ofNat n) := by
  obtain ⟨b, rest, hrest, hb⟩ := Bytes.ofNat_head_ne_zero hpos
  rw [hrest]
  unfold BaseMark.ofText
  split
  · rename_i heq
    exact absurd (List.cons.inj heq).1 hb
  · rename_i heq
    exact absurd (List.cons.inj heq).1 hb
  · rfl

theorem ne_underscore_of_isDigit {b : UInt8} (h : Ascii.isDigit b = true) :
    b ≠ Ascii.underscore := by
  rintro rfl
  exact absurd h (by decide)

theorem digitSpan_of_isDigit {run : Bytes} (h : ∀ b ∈ run, Ascii.isDigit b = true) :
    digitSpan false run = (run, []) := by
  rw [digitSpan, List.span_eq_takeWhile_dropWhile, Prod.mk.injEq, List.takeWhile_eq_self_iff,
    List.dropWhile_eq_nil_iff]
  exact ⟨fun b hb => by simp [h b hb], fun b hb => by simp [h b hb]⟩

theorem separatorsOk_of_isDigit {run : Bytes} (h : ∀ b ∈ run, Ascii.isDigit b = true)
    (digit : Bool) : separatorsOk false digit false run = true := by
  induction run generalizing digit with
  | nil => rfl
  | cons b run ih =>
      have hb := h b (by simp)
      rw [separatorsOk, if_neg (ne_underscore_of_isDigit hb), if_pos (by simp [hb])]
      exact ih (fun c hc => h c (by simp [hc])) true

theorem hasDigit_ofNat (n : Nat) : hasDigit (Bytes.ofNat n) = true := by
  obtain ⟨b, hb⟩ := List.exists_mem_of_ne_nil _ (Bytes.ofNat_ne_nil n)
  rw [hasDigit, List.any_eq_true]
  exact ⟨b, hb, by simpa using ne_underscore_of_isDigit (Bytes.isDigit_of_mem_ofNat n b hb)⟩

/-- The lexer takes a numeral for an integer literal, and leaves nothing of it. -/
theorem number?_ofNat (n : Nat) :
    number? (Bytes.ofNat n) = some (.int, (Bytes.ofNat n).length) := by
  rcases Nat.eq_zero_or_pos n with rfl | hpos
  · rfl
  · have hspan := digitSpan_of_isDigit (Bytes.isDigit_of_mem_ofNat n)
    have hseparated := separatorsOk_of_isDigit (Bytes.isDigit_of_mem_ofNat n) false
    have hhex : (BaseMark.decimal == BaseMark.hex) = false := rfl
    simp [number?, BaseMark.ofText_ofNat hpos, hhex, hspan, hasDigit_ofNat, exponent?,
      BaseMark.fits, hseparated]

end RetryWeave.Syntax

namespace RetryWeave.Directive

theorem literalValue_ofNat (n : Nat) : literalValue (Bytes.ofNat n) = n := by
  rcases Nat.eq_zero_or_pos n with rfl | hpos
  · rfl
  · have hfilter : (Bytes.ofNat n).filter (· ≠ Ascii.underscore) = Bytes.ofNat n := by
      rw [List.filter_eq_self]
      intro b hb
      simpa using Syntax.ne_underscore_of_isDigit (Bytes.isDigit_of_mem_ofNat n b hb)
    simp only [literalValue, Syntax.BaseMark.ofText_ofNat hpos, hfilter]
    exact Bytes.foldl_digitValue_ofNat n

end RetryWeave.Directive
