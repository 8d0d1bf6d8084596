import Mathlib.Data.List.TakeDrop
import Mathlib.Data.List.TakeWhile
import Mathlib.Tactic.ByContra
import RetryWeave.Proofs.Text.Pieces
import RetryWeave.Proofs.Text.Runes

/-! # The extent of tokens

A token lies within the text that it is read from, and it does not end in white space. -/

namespace RetryWeave.Syntax

/-- A byte that neither separates tokens nor ends a line. -/
def isSolid (b : UInt8) : Bool := !Ascii.isBlank b && b != Ascii.newline && b != Ascii.cr

/-- A text whose last byte, if there is one, is no white space. -/
def EndsSolid (text : Bytes) : Prop := ∀ b, text.getLast? = some b → isSolid b = true

theorem EndsSolid.of_forall {text : Bytes} (h : ∀ b ∈ text, isSolid b = true) : EndsSolid text :=
  fun b hb => h b (List.mem_of_getLast? hb)

/-- What no white space is, is solid. -/
theorem isSolid_of_not {p : UInt8 → Prop}
    (h : ¬ p Ascii.space ∧ ¬ p Ascii.tab ∧ ¬ p Ascii.newline ∧ ¬ p Ascii.cr) {b : UInt8}
    (hb : p b) : isSolid b = true := by
  obtain ⟨hspace, htab, hnewline, hcr⟩ := h
  have hne : ∀ c, ¬ p c → b ≠ c := fun c hc hbc => hc (hbc ▸ hb)
  simp only [isSolid, Ascii.isBlank, Bool.and_eq_true, Bool.not_eq_true', Bool.or_eq_false_iff,
    beq_eq_false_iff_ne, bne_iff_ne]
  exact ⟨⟨⟨hne _ hspace, hne _ htab⟩, hne _ hnewline⟩, hne _ hcr⟩

theorem isSolid_of_le {b : UInt8} (h : 0x80 ≤ b) : isSolid b = true :=
  isSolid_of_not (p := fun b => 0x80 ≤ b) (by decide) h

/-! ## Identifiers -/

theorem identLength_le (skip : Nat) (text : Bytes) : identLength skip text ≤ text.length := by
  induction text generalizing skip with
  | nil => simp [identLength]
  | cons b rest ih =>
      cases skip with
      | succ skip =>
          have h := ih skip
          simp only [identLength, List.length_cons]
          omega
      | zero =>
          have h := ih ((Rune.first b rest).raw.length - 1)
          simp only [identLength, List.length_cons]
          split <;> omega

theorem identLength_pos {b : UInt8} {rest : Bytes}
    (h : isIdentStart (Rune.first b rest).char = true) : 0 < identLength 0 (b :: rest) := by
  have hpart : isIdentPart (Rune.first b rest).char = true := by rw [isIdentPart, h, Bool.true_or]
  simp only [identLength, if_pos hpart]
  omega

theorem isSolid_of_isTail {b : UInt8} (h : Rune.isTail b = true) : isSolid b = true := by
  simp only [Rune.isTail, Bool.and_eq_true, decide_eq_true_eq] at h
  exact isSolid_of_le h.1

theorem isSolid_of_isSecondOfThree {a b : UInt8} (h : Rune.isSecondOfThree a b = true) :
    isSolid b = true := by
  apply isSolid_of_le
  simp only [Rune.isSecondOfThree, Rune.isTail] at h
  split at h
  · simp only [Bool.and_eq_true, decide_eq_true_eq] at h
    exact UInt8.le_trans (by decide) h.1
  · split at h <;> simp only [Bool.and_eq_true, decide_eq_true_eq] at h <;> exact h.1

theorem isSolid_of_isSecondOfFour {a b : UInt8} (h : Rune.isSecondOfFour a b = true) :
    isSolid b = true := by
  apply isSolid_of_le
  simp only [Rune.isSecondOfFour, Rune.isTail] at h
  split at h
  · simp only [Bool.and_eq_true, decide_eq_true_eq] at h
    exact UInt8.le_trans (by decide) h.1
  · split at h <;> simp only [Bool.and_eq_true, decide_eq_true_eq] at h <;> exact h.1

/-- The bytes after the first one of a rune are no white space. -/
theorem isSolid_of_mem_tail {a b : UInt8} {rest : Bytes}
    (h : b ∈ rest.take ((Rune.first a rest).raw.length - 1)) : isSolid b = true := by
  unfold Rune.first at h
  split at h
  · simp at h
  · split at h
    · split at h
      · split at h
        · rename_i hb
          simp only [List.length_cons, List.length_nil, Nat.zero_add, Nat.add_one_sub_one,
            List.take_succ_cons, List.take_zero, List.mem_singleton] at h
          exact h ▸ isSolid_of_isTail hb
        · simp at h
      · simp at h
    · split at h
      · split at h
        · split at h
          · rename_i hb
            rw [Bool.and_eq_true] at hb
            simp only [List.length_cons, List.length_nil, Nat.zero_add, Nat.reduceAdd,
              Nat.add_one_sub_one, List.take_succ_cons, List.take_zero, List.mem_cons,
              List.not_mem_nil, or_false] at h
            rcases h with rfl | rfl
            · exact isSolid_of_isSecondOfThree hb.1
            · exact isSolid_of_isTail hb.2
          · simp at h
        · simp at h
      · split at h
        · split at h
          · split at h
            · rename_i hb
              rw [Bool.and_eq_true, Bool.and_eq_true] at hb
              simp only [List.length_cons, List.length_nil, Nat.zero_add, Nat.reduceAdd,
                Nat.add_one_sub_one, List.take_succ_cons, List.take_zero, List.mem_cons,
                List.not_mem_nil, or_false] at h
              rcases h with rfl | rfl | rfl
              · exact isSolid_of_isSecondOfFour hb.1.1
              · exact isSolid_of_isTail hb.1.2
              · exact isSolid_of_isTail hb.2
            · simp at h
          · simp at h
        · simp at h

/-- White space is read as itself, and is no part of an identifier. -/
theorem isSolid_of_isIdentPart {b : UInt8} {rest : Bytes}
    (h : isIdentPart (Rune.first b rest).char = true) : isSolid b = true := by
  have hread : ∀ c : UInt8, c < 0x80 → isIdentPart (Char.ofNat c.toNat) = false →
      ¬ isIdentPart (Rune.first c rest).char = true := by
    intro c hlt hpart
    rw [Rune.first_of_lt hlt, hpart]
    exact Bool.false_ne_true
  exact isSolid_of_not (p := fun c => isIdentPart (Rune.first c rest).char = true)
    ⟨hread _ (by decide) (by decide), hread _ (by decide) (by decide),
      hread _ (by decide) (by decide), hread _ (by decide) (by decide)⟩ h

theorem isSolid_of_mem_ident {b : UInt8} {skip : Nat} {text : Bytes}
    (hskip : ∀ c ∈ text.take skip, isSolid c = true)
    (h : b ∈ text.take (identLength skip text)) : isSolid b = true := by
  induction text generalizing skip with
  | nil => simp at h
  | cons a rest ih =>
      cases skip with
      | succ skip =>
          simp only [List.take_succ_cons, List.mem_cons, forall_eq_or_imp] at hskip
          simp only [identLength, Nat.add_comm 1, List.take_succ_cons, List.mem_cons] at h
          rcases h with rfl | h
          · exact hskip.1
          · exact ih hskip.2 h
      | zero =>
          simp only [identLength] at h
          split at h
          · rename_i hpart
            simp only [Nat.add_comm 1, List.take_succ_cons, List.mem_cons] at h
            rcases h with rfl | h
            · exact isSolid_of_isIdentPart hpart
            · exact ih (fun c hc => isSolid_of_mem_tail hc) h
          · simp at h

theorem endsSolid_ident (text : Bytes) : EndsSolid (text.take (identLength 0 text)) :=
  .of_forall fun _ hb => isSolid_of_mem_ident (by simp) hb

/-! ## Numbers -/

theorem isSolid_of_mem_digitSpan {hex : Bool} {text : Bytes} {b : UInt8}
    (h : b ∈ (digitSpan hex text).1) : isSolid b = true := by
  have hdigit := isSolid_of_not (b := b)
    (p := fun c => (Ascii.isHexDigit c || Ascii.isDigit c || c == Ascii.underscore) = true)
    (by decide)
  rw [digitSpan, List.span_eq_takeWhile_dropWhile] at h
  have hb := List.mem_takeWhile_imp h
  apply hdigit
  cases hex with
  | false =>
      simp only [Bool.false_eq_true, if_false, Bool.or_eq_true] at hb
      simp only [Bool.or_eq_true]
      exact hb.imp_left Or.inr
  | true =>
      simp only [if_true, Bool.or_eq_true] at hb
      simp only [Bool.or_eq_true]
      exact hb.imp_left Or.inl

theorem digitSpan_append (hex : Bool) (text : Bytes) :
    (digitSpan hex text).1 ++ (digitSpan hex text).2 = text := by
  rw [digitSpan, List.span_eq_takeWhile_dropWhile, List.takeWhile_append_dropWhile]

theorem BaseMark.ofText_append (text : Bytes) :
    (ofText text).2.1 ++ (ofText text).2.2 = text ∧ ∀ b ∈ (ofText text).2.1, isSolid b = true := by
  have hmark : ∀ b : UInt8, Ascii.toLower b = 120 ∨ Ascii.toLower b = 111 ∨ Ascii.toLower b = 98 →
      isSolid b = true :=
    fun _ => isSolid_of_not
      (p := fun b => Ascii.toLower b = 120 ∨ Ascii.toLower b = 111 ∨ Ascii.toLower b = 98)
      (by decide)
  have hzero : isSolid Ascii.zero = true := by decide
  unfold ofText
  split
  · split <;> rename_i h <;> simp [hzero, hmark, h]
  · simp [hzero]
  · simp

/-- The digits of an exponent after its mark and its sign. -/
theorem exponent_append {e : UInt8} {sign rest : Bytes} (he : isSolid e = true)
    (hsign : ∀ b ∈ sign, isSolid b = true) :
    e :: sign ++ (digitSpan false rest).1 ++ (digitSpan false rest).2 = e :: (sign ++ rest) ∧
      ∀ b ∈ e :: sign ++ (digitSpan false rest).1, isSolid b = true := by
  refine ⟨by simp [digitSpan_append], ?_⟩
  simp only [List.cons_append, List.mem_cons, List.mem_append]
  rintro b (rfl | hb | hb)
  · exact he
  · exact hsign b hb
  · exact isSolid_of_mem_digitSpan hb

/-- What `exponent?` splits off is at the start of the text and has no white space. -/
theorem exponent?_spec {m : BaseMark} {text power rest : Bytes}
    (h : exponent? m text = some (power, rest)) :
    power ++ rest = text ∧ ∀ b ∈ power, isSolid b = true := by
  have hmark : ∀ b : UInt8, (Ascii.toLower b == 101 || Ascii.toLower b == 112) = true →
      isSolid b = true :=
    fun _ => isSolid_of_not
      (p := fun b => (Ascii.toLower b == 101 || Ascii.toLower b == 112) = true) (by decide)
  have hsign : ∀ b : UInt8, (b == Ascii.plus || b == Ascii.minus) = true → isSolid b = true :=
    fun _ => isSolid_of_not (p := fun b => (b == Ascii.plus || b == Ascii.minus) = true)
      (by decide)
  cases text with
  | nil =>
      simp only [exponent?, Option.some.injEq, Prod.mk.injEq] at h
      simp [← h.1, ← h.2]
  | cons e tail =>
      simp only [exponent?] at h
      split at h
      · rename_i he
        have he := hmark e he
        rw [Option.ite_none_left_eq_some, Option.ite_none_left_eq_some] at h
        obtain ⟨-, -, h⟩ := h
        rw [Option.ite_none_right_eq_some, Option.some.injEq, Prod.mk.injEq] at h
        obtain ⟨-, rfl, rfl⟩ := h
        split
        · split
          · rename_i s more hs
            exact exponent_append he (by simpa using hsign s hs)
          · exact exponent_append he (by simp)
        · exact exponent_append he (by simp)
      · simp only [Option.some.injEq, Prod.mk.injEq] at h
        simp [← h.1, ← h.2]

/-- The point of a number and the digits after it. -/
theorem fraction_append (hex : Bool) (rest : Bytes) :
    let point := rest.head? == some Ascii.dot
    let fraction := if point then digitSpan hex rest.tail else ([], rest)
    (if point then [Ascii.dot] else []) ++ fraction.1 ++ fraction.2 = rest ∧
      ∀ b ∈ (if point then [Ascii.dot] else []) ++ fraction.1, isSolid b = true := by
  have hdot : isSolid Ascii.dot = true := by decide
  cases rest with
  | nil => simp
  | cons b rest =>
      by_cases hb : b = Ascii.dot
      · subst hb
        simp only [List.head?_cons, beq_self_eq_true, if_true, List.tail_cons, List.mem_append,
          List.mem_singleton]
        refine ⟨by simp [digitSpan_append], ?_⟩
        rintro c (rfl | hc)
        · exact hdot
        · exact isSolid_of_mem_digitSpan hc
      · simp [hb]

/-- The mark of an imaginary number. -/
theorem suffix_append (rest : Bytes) (float : Bool) :
    let suffix : Bytes × Tok := if rest.head? == some 105 then ([105], .imag)
      else if float then ([], .float) else ([], .int)
    ∃ rest', suffix.1 ++ rest' = rest ∧ ∀ b ∈ suffix.1, isSolid b = true := by
  have hi : isSolid 105 = true := by decide
  cases rest with
  | nil => exact ⟨[], by cases float <;> simp⟩
  | cons b rest =>
      by_cases hb : b = 105
      · exact ⟨rest, by simp [hb, hi]⟩
      · exact ⟨b :: rest, by cases float <;> simp [hb]⟩

theorem number?_spec {text : Bytes} {kind : Tok} {n : Nat} (h : number? text = some (kind, n)) :
    n ≤ text.length ∧ (∀ b ∈ text.take n, isSolid b = true) ∧
      (kind = .imag ∨ kind = .float ∨ kind = .int) := by
  obtain ⟨hmark, hhead⟩ := BaseMark.ofText_append text
  unfold number? at h
  generalize BaseMark.ofText text = marked at h hmark hhead
  obtain ⟨mark, head, rest⟩ := marked
  have hwhole := digitSpan_append (mark == .hex) rest
  have hwholeSolid : ∀ b ∈ (digitSpan (mark == .hex) rest).1, isSolid b = true :=
    fun b hb => isSolid_of_mem_digitSpan hb
  generalize hspan : digitSpan (mark == .hex) rest = spanned at hwhole hwholeSolid
  obtain ⟨whole, afterWhole⟩ := spanned
  obtain ⟨hpoint, hpointSolid⟩ := fraction_append (mark == .hex) afterWhole
  simp only [hspan, Option.bind_eq_bind, Option.bind_none, Option.ite_none_left_eq_some,
    Option.bind_eq_some_iff, Option.pure_def, Option.some.injEq, Prod.mk.injEq] at h
  generalize (if (afterWhole.head? == some Ascii.dot) = true then
    digitSpan (mark == .hex) afterWhole.tail else ([], afterWhole)) = fraction at h hpoint hpointSolid
  generalize (if (afterWhole.head? == some Ascii.dot) = true then [Ascii.dot] else []) = point
    at h hpoint hpointSolid
  obtain ⟨-, -, ⟨power, afterPower⟩, hpower, -, -, -, hkind, hn⟩ := h
  obtain ⟨hexp, hexpSolid⟩ := exponent?_spec hpower
  obtain ⟨rest', hsuffix, hsuffixSolid⟩ :=
    suffix_append afterPower (afterWhole.head? == some Ascii.dot || !power.isEmpty)
  simp only at hmark hhead hwhole hwholeSolid hpoint hsuffix hsuffixSolid hn
  generalize (if (afterPower.head? == some 105) = true then (([105], .imag) : Bytes × Tok)
    else if (afterWhole.head? == some Ascii.dot || !power.isEmpty) = true then ([], .float)
    else ([], .int)) = suffix at hsuffix hsuffixSolid hn
  have htext : text = head ++ (whole ++ point ++ fraction.1 ++ power ++ suffix.1) ++ rest' := by
    rw [← hmark, ← hwhole, ← hpoint, ← hexp, ← hsuffix]
    simp only [List.append_assoc]
  have hkinds : kind = .imag ∨ kind = .float ∨ kind = .int := by
    rw [← hkind]
    split
    · exact .inl rfl
    · split
      · exact .inr (.inl rfl)
      · exact .inr (.inr rfl)
  rw [← hn, htext]
  refine ⟨by simp, ?_, hkinds⟩
  rw [List.take_left]
  intro b hb
  simp only [List.mem_append] at hb hpointSolid
  rcases hb with hb | (((hb | hb) | hb) | hb) | hb
  · exact hhead b hb
  · exact hwholeSolid b hb
  · exact hpointSolid b (.inl hb)
  · exact hpointSolid b (.inr hb)
  · exact hexpSolid b hb
  · exact hsuffixSolid b hb

/-! ## Literals between delimiters -/

theorem quotedLength?_spec {delim : UInt8} {skip : Nat} {text : Bytes} {n chars : Nat}
    (h : quotedLength? delim skip text = some (n, chars)) :
    n ≤ text.length ∧ (text.take n).getLast? = some delim := by
  induction text generalizing skip n chars with
  | nil => simp [quotedLength?] at h
  | cons b rest ih =>
      -- a byte in front of a literal that ends with its delimiter
      have hcons {m : Nat} (hm : m ≤ rest.length ∧ (rest.take m).getLast? = some delim) :
          m + 1 ≤ (b :: rest).length ∧ ((b :: rest).take (m + 1)).getLast? = some delim := by
        refine ⟨Nat.succ_le_succ hm.1, ?_⟩
        rw [List.take_succ_cons, List.getLast?_cons, hm.2, Option.getD_some]
      cases skip with
      | succ skip =>
          simp only [quotedLength?, Option.map_eq_some_iff, Prod.exists, Prod.mk.injEq] at h
          obtain ⟨m, k, hm, rfl, -⟩ := h
          exact hcons (ih hm)
      | zero =>
          simp only [quotedLength?] at h
          split at h
          · rename_i hb
            cases h
            simp [hb]
          · rw [Option.ite_none_left_eq_some] at h
            have h := h.2
            split at h <;>
            · simp only [Option.bind_eq_bind, Option.bind_eq_some_iff, Option.pure_def,
                Option.some.injEq, Prod.exists, Prod.mk.injEq] at h
              obtain ⟨more, -, m, k, hm, rfl, -⟩ := h
              exact hcons (ih hm)

theorem rawLength?_spec {text : Bytes} {n : Nat} (h : rawLength? text = some n) :
    n ≤ text.length ∧ (text.take n).getLast? = some Ascii.backquote := by
  induction text generalizing n with
  | nil => simp [rawLength?] at h
  | cons b rest ih =>
      simp only [rawLength?] at h
      split at h
      · rename_i hb
        cases h
        simp [hb]
      · obtain ⟨m, hm, rfl⟩ := Option.map_eq_some_iff.mp h
        obtain ⟨hle, hlast⟩ := ih hm
        refine ⟨Nat.succ_le_succ hle, ?_⟩
        rw [List.take_succ_cons, List.getLast?_cons, hlast, Option.getD_some]

theorem blockLength?_le {text : Bytes} {n : Nat} (h : blockLength? text = some n) :
    n ≤ text.length := by
  induction text generalizing n with
  | nil => simp [blockLength?] at h
  | cons b rest ih =>
      unfold blockLength? at h
      split at h
      · cases h
        simp
      · obtain ⟨m, hm, rfl⟩ := Option.map_eq_some_iff.mp h
        exact Nat.succ_le_succ (ih hm)

/-! ## Spelled tokens -/

theorem spelling_of_keyword? {text : Bytes} {k : Tok} (h : Tok.keyword? text = some k) :
    k.spelling = text := by
  have hspelling := List.find?_some h
  exact beq_iff_eq.mp hspelling

theorem operator?_spec {text : Bytes} {k : Tok} {n : Nat} (h : Tok.operator? text = some (k, n)) :
    text.take n = k.spelling ∧ n = k.spelling.length ∧ k ∈ Tok.operators := by
  obtain ⟨t, ht, heq⟩ := Option.map_eq_some_iff.mp h
  obtain ⟨rfl, rfl⟩ := Prod.mk.inj heq
  have hstart := List.find?_some ht
  obtain ⟨rest, hrest⟩ := Option.isSome_iff_exists.mp hstart
  rw [Bytes.stripStart?_eq_some_iff.mp hrest]
  exact ⟨List.take_left, rfl, List.mem_of_find?_eq_some ht⟩

theorem isSolid_of_mem_spelling {k : Tok} (hk : k ∈ Tok.operators) :
    ∀ b ∈ k.spelling, isSolid b = true := by
  have hall : (Tok.operators.all fun k => k.spelling.all isSolid) = true := by decide
  exact List.all_eq_true.mp (List.all_eq_true.mp hall k hk)

end RetryWeave.Syntax
