import Mathlib
import RetryWeave.Directive
import RetryWeave.Proofs.Syntax.Extents

/-! # Integers of 64 bits

The lexer and the reader of integers have different grammars: one looks for the end of a literal and
checks its digits at the end, the other one goes through all of a text and watches the range. They
agree on the integer literals: every one is read, and its value is the value of its digits, unless this
does not fit into 64 bits. -/

namespace RetryWeave

/-! ## Digits -/

namespace Integer

/-- The number that `n` becomes with more digits, without any bound. -/
def valueFrom (base n : Nat) (digits : Bytes) : Nat :=
  (digits.filter (· ≠ Ascii.underscore)).foldl (fun n d => n * base + Ascii.digitValue d) n

theorem valueFrom_underscore (base n : Nat) (rest : Bytes) :
    valueFrom base n (Ascii.underscore :: rest) = valueFrom base n rest := by
  simp [valueFrom]

theorem valueFrom_digit {b : UInt8} (hb : b ≠ Ascii.underscore) (base n : Nat) (rest : Bytes) :
    valueFrom base n (b :: rest) = valueFrom base (n * base + Ascii.digitValue b) rest := by
  simp [valueFrom, hb]

theorem le_valueFrom {base : Nat} (hbase : 0 < base) (n : Nat) (digits : Bytes) :
    n ≤ valueFrom base n digits := by
  induction digits generalizing n with
  | nil => exact le_rfl
  | cons b rest ih =>
      by_cases hb : b = Ascii.underscore
      · rw [hb, valueFrom_underscore]
        exact ih n
      · rw [valueFrom_digit hb]
        calc n ≤ n * base := Nat.le_mul_of_pos_right n hbase
          _ ≤ n * base + Ascii.digitValue b := Nat.le_add_right _ _
          _ ≤ _ := ih _

/-- One more digit fits exactly if the cutoff is not reached and the sum does not wrap around. -/
theorem shift_cases {base d : Nat} (hbase : 2 ≤ base) (hbase' : base ≤ 16) (hd : d < base)
    (n : UInt64) :
    (2 ^ 64 ≤ n.toNat * base + d ∧ (cutoff base ≤ n ∨
      n * UInt64.ofNat base + UInt64.ofNat d < n * UInt64.ofNat base)) ∨
    (n.toNat * base + d < 2 ^ 64 ∧ ¬ cutoff base ≤ n ∧
      ¬ n * UInt64.ofNat base + UInt64.ofNat d < n * UInt64.ofNat base ∧
      (n * UInt64.ofNat base + UInt64.ofNat d).toNat = n.toNat * base + d) := by
  have hcutoff : cutoff base ≤ n ↔ 2 ^ 64 ≤ n.toNat * base := by
    have hdiv : 0xFFFFFFFFFFFFFFFF / base ≤ 0xFFFFFFFFFFFFFFFF / 2 := Nat.div_le_div_left hbase (by decide)
    rw [cutoff, UInt64.le_iff_toNat_le, UInt64.toNat_ofNat', Nat.mod_eq_of_lt (by omega),
      Nat.succ_le_iff, Nat.div_lt_iff_lt_mul (by omega)]
    omega
  rw [hcutoff, UInt64.lt_iff_toNat_lt, UInt64.toNat_add, UInt64.toNat_mul, UInt64.toNat_ofNat',
    UInt64.toNat_ofNat', Nat.mod_eq_of_lt (a := base) (by omega), Nat.mod_eq_of_lt (a := d) (by omega)]
  omega

/-- Digits of the base are read; only the range can be left. -/
theorem digitsFrom_eq {base : Nat} (hbase : 2 ≤ base) (hbase' : base ≤ 16) {digits : Bytes}
    (h : ∀ b ∈ digits, b ≠ Ascii.underscore → Ascii.digitValue b < base) (n : UInt64) :
    digitsFrom base n digits =
      if valueFrom base n.toNat digits < 2 ^ 64 then
        .ok (UInt64.ofNat (valueFrom base n.toNat digits))
      else .error .outOfRange := by
  induction digits generalizing n with
  | nil =>
      have hn : valueFrom base n.toNat [] = n.toNat := rfl
      rw [digitsFrom, hn, if_pos n.toNat_lt, UInt64.ofNat_toNat]
  | cons b rest ih =>
      rw [List.forall_mem_cons] at h
      obtain ⟨hb, hrest⟩ := h
      rw [digitsFrom]
      by_cases hunder : b = Ascii.underscore
      · rw [if_pos hunder, hunder, valueFrom_underscore]
        exact ih hrest n
      · have hd := hb hunder
        rw [if_neg hunder, if_neg (Nat.not_le.mpr hd), valueFrom_digit hunder]
        rcases shift_cases hbase hbase' hd n with ⟨hlarge, hstops⟩ | ⟨-, hcutoff, hwraps, hsum⟩
        · have hpos : 0 < base := by omega
          have hvalue := hlarge.trans (le_valueFrom hpos _ rest)
          simp only [Nat.not_lt.mpr hvalue, if_false]
          rcases hstops with hcutoff | hwraps
          · rw [if_pos hcutoff]
          · rw [if_pos hwraps, ite_self]
        · simp only [hcutoff, hwraps, if_false]
          rw [ih hrest, hsum]

/-! ## Underscores -/

/-- The lexer and the reader of integers have the same rule for underscores. -/
theorem separatesFrom_eq (hex : Bool) (before : Before) (digits : Bytes) :
    separatesFrom hex before digits =
      Syntax.separatorsOk hex (before = .digit) (before = .underscore) digits := by
  have hunder : Ascii.isDigit Ascii.underscore = false ∧
      Ascii.isHexDigit Ascii.underscore = false := by decide
  induction digits generalizing before with
  | nil => cases before <;> rfl
  | cons b rest ih =>
      rw [separatesFrom, Syntax.separatorsOk]
      by_cases hb : b = Ascii.underscore
      · subst hb
        simp [hunder, ih]
      · split <;> simp_all

/-! ## The range -/

theorem lt_of_withSign {negative : Bool} {size : UInt64} {n : Int}
    (h : withSign negative size = .ok n) : n < 2 ^ 63 := by
  rw [withSign] at h
  split at h <;> split at h <;> cases h <;> omega

theorem lt_of_read {text : Bytes} {n : Int} (h : read text = .ok n) : n < 2 ^ 63 := by
  have hsize : ∀ negative digits, (readUnsigned digits).bind (withSign negative) = .ok n →
      n < 2 ^ 63 := by
    intro negative digits hbind
    cases hread : readUnsigned digits with
    | error f =>
        rw [hread] at hbind
        cases hbind
    | ok size =>
        rw [hread] at hbind
        exact lt_of_withSign hbind
  unfold read at h
  split at h <;> exact hsize _ _ h

end Integer

/-! ## Integer literals -/

namespace Syntax

/-- An integer literal as the lexer takes it: its base mark, the text of the mark, and the digits. -/
structure IsInteger (lit : Bytes) (mark : BaseMark) (head whole : Bytes) : Prop where
  ofText_eq : BaseMark.ofText lit = (mark, head, whole)
  digits : ∀ b ∈ whole, b ≠ Ascii.underscore →
    (if mark == .hex then Ascii.isHexDigit b else Ascii.isDigit b) = true
  fits : mark.fits whole = true
  digit : mark = .zero ∨ hasDigit whole = true
  separated : if mark = .decimal ∨ mark = .zero then
    separatorsOk false false false (head ++ whole) = true
    else separatorsOk (mark == .hex) true false whole = true

theorem BaseMark.ofText_of_ne_zero {b : UInt8} (hb : b ≠ Ascii.zero) (rest : Bytes) :
    ofText (b :: rest) = (.decimal, [], b :: rest) := by
  unfold ofText
  split
  · rename_i heq
    exact absurd (List.cons.inj heq).1 hb
  · rename_i heq
    exact absurd (List.cons.inj heq).1 hb
  · rfl

theorem BaseMark.ofText_zero (b : UInt8) (rest : Bytes) :
    ofText (Ascii.zero :: b :: rest) = match Ascii.toLower b with
      | 120 => (.hex, [Ascii.zero, b], rest)
      | 111 => (.octal, [Ascii.zero, b], rest)
      | 98 => (.binary, [Ascii.zero, b], rest)
      | _ => (.zero, [Ascii.zero], b :: rest) :=
  rfl

/-- The forms of a base mark: none, a zero that is no letter's, or a zero and a letter. -/
theorem BaseMark.ofText_cases {lit head whole : Bytes} {mark : BaseMark}
    (h : ofText lit = (mark, head, whole)) :
    (mark = .decimal ∧ head = [] ∧ lit = whole ∧ lit.head? ≠ some Ascii.zero) ∨
    (mark = .zero ∧ head = [Ascii.zero] ∧ lit = Ascii.zero :: whole ∧ ∀ b, whole.head? = some b →
      Ascii.toLower b ≠ 120 ∧ Ascii.toLower b ≠ 111 ∧ Ascii.toLower b ≠ 98) ∨
    ∃ b, head = [Ascii.zero, b] ∧ lit = Ascii.zero :: b :: whole ∧
      (mark = .hex ∧ Ascii.toLower b = 120 ∨ mark = .octal ∧ Ascii.toLower b = 111 ∨
        mark = .binary ∧ Ascii.toLower b = 98) := by
  rcases lit with _ | ⟨b, rest⟩
  · obtain ⟨rfl, hpair⟩ := Prod.mk.inj h
    obtain ⟨rfl, rfl⟩ := Prod.mk.inj hpair
    exact .inl ⟨rfl, rfl, rfl, nofun⟩
  by_cases hb : b = Ascii.zero
  · subst hb
    rcases rest with _ | ⟨c, rest⟩
    · obtain ⟨rfl, hpair⟩ := Prod.mk.inj h
      obtain ⟨rfl, rfl⟩ := Prod.mk.inj hpair
      exact .inr (.inl ⟨rfl, rfl, rfl, nofun⟩)
    · rw [ofText_zero] at h
      split at h
      all_goals
        rename_i hc
        obtain ⟨rfl, hpair⟩ := Prod.mk.inj h
        obtain ⟨rfl, rfl⟩ := Prod.mk.inj hpair
      · exact .inr (.inr ⟨c, rfl, rfl, .inl ⟨rfl, hc⟩⟩)
      · exact .inr (.inr ⟨c, rfl, rfl, .inr (.inl ⟨rfl, hc⟩)⟩)
      · exact .inr (.inr ⟨c, rfl, rfl, .inr (.inr ⟨rfl, hc⟩)⟩)
      · rename_i hhex hoctal
        refine .inr (.inl ⟨rfl, rfl, rfl, ?_⟩)
        rintro d ⟨⟩
        exact ⟨hhex, hoctal, hc⟩
  · rw [ofText_of_ne_zero hb] at h
    obtain ⟨rfl, hpair⟩ := Prod.mk.inj h
    obtain ⟨rfl, rfl⟩ := Prod.mk.inj hpair
    exact .inl ⟨rfl, rfl, rfl, by simpa using hb⟩

/-- The base mark of a text is that of each of its starts that has a digit. -/
theorem BaseMark.ofText_start {text head whole rest : Bytes} {mark : BaseMark}
    (h : ofText text = (mark, head, whole ++ rest)) (hwhole : mark = .zero ∨ whole ≠ []) :
    ofText (head ++ whole) = (mark, head, whole) := by
  rcases ofText_cases h with ⟨rfl, rfl, rfl, hhead⟩ | ⟨rfl, rfl, -, hhead⟩ | ⟨b, rfl, -, hb⟩
  · obtain ⟨b, whole, rfl⟩ := List.exists_cons_of_ne_nil (hwhole.resolve_left nofun)
    exact ofText_of_ne_zero (by simpa using hhead) whole
  · cases whole with
    | nil => rfl
    | cons b whole =>
        obtain ⟨hhex, hoctal, hbinary⟩ := hhead b rfl
        rw [List.singleton_append, ofText_zero]
        split <;> first | contradiction | rfl
  · rw [List.cons_append, List.cons_append, List.nil_append, ofText_zero]
    rcases hb with ⟨rfl, hb⟩ | ⟨rfl, hb⟩ | ⟨rfl, hb⟩ <;> rw [hb] <;> rfl

theorem digit_of_mem_digitSpan {hex : Bool} {text : Bytes} {b : UInt8}
    (h : b ∈ (digitSpan hex text).1) (hb : b ≠ Ascii.underscore) :
    (if hex then Ascii.isHexDigit b else Ascii.isDigit b) = true := by
  rw [digitSpan, List.span_eq_takeWhile_dropWhile] at h
  simpa [hb] using List.mem_takeWhile_imp h

/-- What the lexer takes for an integer is one. -/
theorem isInteger_of_number? {text : Bytes} {n : Nat} (h : number? text = some (.int, n)) :
    ∃ mark head whole, text.take n = head ++ whole ∧ IsInteger (text.take n) mark head whole := by
  obtain ⟨htext, -⟩ := BaseMark.ofText_append text
  unfold number? at h
  rcases hmark : BaseMark.ofText text with ⟨mark, head, rest⟩
  rw [hmark] at h htext
  have happend := digitSpan_append (mark == .hex) rest
  have hdigits : ∀ b ∈ (digitSpan (mark == .hex) rest).1, b ≠ Ascii.underscore → _ :=
    fun b => digit_of_mem_digitSpan
  rcases hspan : digitSpan (mark == .hex) rest with ⟨whole, after⟩
  rw [hspan] at happend hdigits
  simp only [hspan, Option.bind_eq_bind, Option.bind_none, Option.ite_none_left_eq_some,
    Option.bind_eq_some_iff, Option.pure_def, Option.some.injEq, Prod.mk.injEq] at h
  obtain ⟨-, hdigit, ⟨power, afterPower⟩, hpower, -, hfits, hseparated, hkind, hn⟩ := h
  cases himag : afterPower.head? == some 105 with
  | true => simp [himag] at hkind
  | false =>
      cases hfloat : after.head? == some Ascii.dot || !power.isEmpty with
      | true => simp [himag, hfloat] at hkind
      | false =>
          obtain ⟨hpoint, hpower⟩ := Bool.or_eq_false_iff.mp hfloat
          obtain rfl : power = [] := by simpa using hpower
          simp [himag, hpoint] at hdigit hfits hseparated hn
          have htake : text.take n = head ++ whole := by
            rw [← htext, ← hn, ← happend, ← List.append_assoc, ← List.length_append, List.take_left]
          have hwhole : mark = .zero ∨ hasDigit whole = true := by
            by_cases hzero : mark = .zero
            · exact .inl hzero
            · refine .inr ?_
              by_contra hnone
              cases hdigit hzero (Bool.not_eq_true _ |>.mp hnone)
          have hstart : BaseMark.ofText (head ++ whole) = (mark, head, whole) := by
            rw [← happend] at hmark
            refine BaseMark.ofText_start hmark (hwhole.imp_right fun hdigit hnil => ?_)
            rw [hnil] at hdigit
            cases hdigit
          refine ⟨mark, head, whole, htake, htake ▸ hstart, hdigits, hfits, hwhole, ?_⟩
          cases mark <;> simpa using hseparated

end Syntax

namespace Integer

open Syntax

/-- The base that a mark stands for. -/
def baseOfMark : BaseMark → Nat
  | .decimal => 10
  | .zero | .octal => 8
  | .hex => 16
  | .binary => 2

theorem baseOf_zero (mark b : UInt8) (rest : Bytes) :
    baseOf (Ascii.zero :: mark :: b :: rest) = match Ascii.toLower mark with
      | 98 => (2, b :: rest)
      | 111 => (8, b :: rest)
      | 120 => (16, b :: rest)
      | _ => (8, mark :: b :: rest) :=
  rfl

theorem separates_zero (mark : UInt8) (rest : Bytes) :
    separates (Ascii.zero :: mark :: rest) = match Ascii.toLower mark with
      | 98 | 111 => separatesFrom false .digit rest
      | 120 => separatesFrom true .digit rest
      | _ => separatesFrom false .start (Ascii.zero :: mark :: rest) :=
  rfl

section

variable {lit head whole : Bytes} {mark : BaseMark} (h : IsInteger lit mark head whole)

include h

theorem baseOf_eq : baseOf lit = (baseOfMark mark, whole) := by
  have hne : mark = .zero ∨ whole ≠ [] := h.digit.imp_right fun hdigit hnil => by
    rw [hnil] at hdigit
    cases hdigit
  rcases BaseMark.ofText_cases h.ofText_eq with
    ⟨rfl, -, rfl, hhead⟩ | ⟨rfl, -, rfl, hhead⟩ | ⟨b, -, rfl, hb⟩
  · obtain ⟨b, whole, rfl⟩ := List.exists_cons_of_ne_nil (hne.resolve_left nofun)
    have hb : b ≠ Ascii.zero := by simpa using hhead
    unfold baseOf
    split
    · rename_i heq
      exact absurd (List.cons.inj heq).1 hb
    · rename_i heq
      exact absurd (List.cons.inj heq).1 hb
    · rfl
  · rcases whole with _ | ⟨b, _ | ⟨c, whole⟩⟩
    · rfl
    · rfl
    · obtain ⟨hhex, hoctal, hbinary⟩ := hhead b rfl
      rw [baseOf_zero]
      split <;> first | contradiction | rfl
  · have hnotZero : mark ≠ .zero := by rcases hb with ⟨rfl, -⟩ | ⟨rfl, -⟩ | ⟨rfl, -⟩ <;> nofun
    obtain ⟨c, whole, rfl⟩ := List.exists_cons_of_ne_nil (hne.resolve_left hnotZero)
    rw [baseOf_zero]
    rcases hb with ⟨rfl, hb⟩ | ⟨rfl, hb⟩ | ⟨rfl, hb⟩ <;> rw [hb] <;> rfl

theorem separates_eq : separates lit = true := by
  have hseparated := h.separated
  -- without a letter all of the literal is looked at
  have hplain : separatesFrom false .start lit = true →
      (∀ b rest, lit = Ascii.zero :: b :: rest →
        Ascii.toLower b ≠ 120 ∧ Ascii.toLower b ≠ 111 ∧ Ascii.toLower b ≠ 98) →
      separates lit = true := by
    intro hstart hnone
    unfold separates
    split
    · rename_i b rest
      obtain ⟨hhex, hoctal, hbinary⟩ := hnone b rest rfl
      split <;> first | contradiction | exact hstart
    · exact hstart
  rcases BaseMark.ofText_cases h.ofText_eq with
    ⟨rfl, rfl, rfl, hhead⟩ | ⟨rfl, rfl, rfl, hhead⟩ | ⟨b, rfl, rfl, hb⟩
  · refine hplain ((separatesFrom_eq _ _ _).trans hseparated) fun b rest heq => ?_
    rw [heq] at hhead
    exact absurd rfl hhead
  · refine hplain ((separatesFrom_eq _ _ _).trans hseparated) fun b rest heq => ?_
    exact hhead b (by rw [(List.cons.inj heq).2]; rfl)
  · rw [separates_zero]
    rcases hb with ⟨rfl, hb⟩ | ⟨rfl, hb⟩ | ⟨rfl, hb⟩ <;> rw [hb] <;>
      exact (separatesFrom_eq _ _ _).trans hseparated

theorem digitValue_lt {b : UInt8} (hb : b ∈ whole) (hunder : b ≠ Ascii.underscore) :
    Ascii.digitValue b < baseOfMark mark := by
  have hvalue : ∀ b, (Ascii.isDigit b = true → Ascii.digitValue b < 10) ∧
      (Ascii.isHexDigit b = true → Ascii.digitValue b < 16) ∧
      (Ascii.isOctalDigit b = true → Ascii.digitValue b < 8) :=
    Ascii.forall_byte (by decide +kernel)
  obtain ⟨hdecimal, hhex, hoctal⟩ := hvalue b
  have hdigit := h.digits b hb hunder
  have hfits := h.fits
  cases mark with
  | decimal => exact hdecimal hdigit
  | hex => exact hhex hdigit
  | zero | octal =>
      have hall := List.all_eq_true.mp hfits b hb
      exact hoctal (by simpa [hunder] using hall)
  | binary =>
      have hall := List.all_eq_true.mp hfits b hb
      have hbits : b = 48 ∨ b = 49 := by simpa [hunder] using hall
      rcases hbits with rfl | rfl <;> decide

theorem literalValue_eq : Directive.literalValue lit = valueFrom (baseOfMark mark) 0 whole := by
  rw [Directive.literalValue, h.ofText_eq, valueFrom]
  cases mark <;> rfl

theorem exists_first : ∃ b rest, lit = b :: rest ∧ b ≠ Ascii.plus ∧ b ≠ Ascii.minus := by
  have hzero : Ascii.zero ≠ Ascii.plus ∧ Ascii.zero ≠ Ascii.minus := by decide
  rcases BaseMark.ofText_cases h.ofText_eq with
    ⟨rfl, -, rfl, -⟩ | ⟨-, -, rfl, -⟩ | ⟨b, -, rfl, -⟩
  · cases lit with
    | nil => cases h.digit.resolve_left nofun
    | cons b rest =>
        refine ⟨b, rest, rfl, ?_, ?_⟩ <;>
        · rintro rfl
          cases h.digits _ List.mem_cons_self (by decide)
  · exact ⟨_, _, rfl, hzero⟩
  · exact ⟨_, _, rfl, hzero⟩

theorem read_eq_readUnsigned : read lit = (readUnsigned lit).bind (withSign false) := by
  obtain ⟨b, rest, rfl, hplus, hminus⟩ := exists_first h
  unfold read
  split
  · exact absurd (List.cons.inj ‹_›).1 hplus
  · exact absurd (List.cons.inj ‹_›).1 hminus
  · rfl

/-- An integer literal is read; only the range can be left. -/
theorem read_of_isInteger : read lit =
    if Directive.literalValue lit < 2 ^ 63 then .ok (Directive.literalValue lit)
    else .error .outOfRange := by
  have hbase : 2 ≤ baseOfMark mark ∧ baseOfMark mark ≤ 16 := by cases mark <;> decide
  have hdigits := digitsFrom_eq hbase.1 hbase.2 (fun b => digitValue_lt h) 0
  rw [UInt64.toNat_zero, ← literalValue_eq h] at hdigits
  have hne : lit ≠ [] := by
    obtain ⟨b, rest, rfl, -⟩ := exists_first h
    exact List.cons_ne_nil b rest
  rw [read_eq_readUnsigned h, readUnsigned, if_neg hne, baseOf_eq h]
  simp only [hdigits, separates_eq h, Bool.not_true, Bool.and_false, Bool.false_eq_true, if_false]
  by_cases hfits : Directive.literalValue lit < 2 ^ 64
  · have hsize := UInt64.toNat_ofNat_of_lt' hfits
    rw [if_pos hfits]
    simp only [Except.bind, withSign, hsize, Bool.false_eq_true, if_false]
    by_cases hsigned : Directive.literalValue lit < 2 ^ 63
    · rw [if_pos hsigned, if_neg (by omega)]
    · rw [if_neg hsigned, if_pos (by omega)]
  · rw [if_neg hfits, if_neg (by omega)]
    rfl

end

end Integer

end RetryWeave
