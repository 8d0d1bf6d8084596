import RetryWeave.Proofs.Syntax.SignedLiterals

/-! # The budget that arguments ask for

The budget is read from the tokens of one argument, by the value of its literal. Reading the number of
a literal can fail by its size only. -/

namespace RetryWeave

namespace Syntax

/-! ## The texts of integer tokens -/

/-- The text of a lexeme is an integer literal if it is an integer. -/
def Lexeme.SpellsInteger : Lexeme → Prop
  | .comment _ _ => True
  | .token t _ => t.kind = .int → ∃ mark head whole, IsInteger t.text mark head whole

theorem spellsInteger_of_kind_ne {t : Token} (line : Nat) (h : t.kind ≠ .int) :
    (Lexeme.token t line).SpellsInteger :=
  fun hkind => absurd hkind h

theorem Lexeme.IsImplied.spellsInteger {x : Lexeme} (h : x.IsImplied) : x.SpellsInteger := by
  cases x with
  | comment => trivial
  | token t line =>
      have hsemi := h.2.2 (by simpa [Lexeme.isWritten] using h.1)
      exact spellsInteger_of_kind_ne line (by simp [hsemi])

theorem LexState.comment_spellsInteger {s : LexState} {name raw : Bytes} {length next size : Nat}
    {st : LexStep} (h : s.comment name raw length next size = some st) :
    ∀ x ∈ st.lexemes, x.SpellsInteger := by
  obtain ⟨-, implied, hlexemes, himplied⟩ := LexState.lexemes_comment h
  rw [hlexemes]
  intro x hx
  rcases List.mem_cons.mp hx with rfl | hx
  · trivial
  · exact (himplied x hx).spellsInteger

/-- Integers come from numbers only, whose texts are integer literals. -/
theorem LexState.step_spellsInteger {s : LexState} {name : Bytes} {size : Nat} {b : UInt8}
    {rest : Bytes} {st : LexStep} (h : s.step name size b rest = some st) :
    ∀ x ∈ st.lexemes, x.SpellsInteger := by
  have htoken : ∀ {kind : Tok} {text : Bytes} {n : Nat},
      (kind = .int → ∃ mark head whole, IsInteger text mark head whole) →
      ∀ x ∈ (s.token kind text n).lexemes, x.SpellsInteger := by
    intro kind text n hkind x hx
    rw [List.mem_singleton.mp hx]
    exact hkind
  cases LexState.finds_step h with
  | blank himplied => exact fun x hx => (himplied x hx).spellsInteger
  | word =>
      refine htoken fun hint => ?_
      cases hkeyword : Tok.keyword? ((b :: rest).take (identLength 0 (b :: rest))) with
      | none => simp [hkeyword] at hint
      | some k =>
          have hmem : k ∈ Tok.keywords := List.mem_of_find?_eq_some hkeyword
          rw [hkeyword, Option.getD_some] at hint
          exact absurd (hint ▸ hmem) (by decide)
  | number hb hnumber =>
      refine htoken fun hint => ?_
      obtain ⟨mark, head, whole, -, hinteger⟩ := isInteger_of_number? (hint ▸ hnumber)
      exact ⟨mark, head, whole, hinteger⟩
  | text => exact htoken nofun
  | char => exact htoken nofun
  | lineComment hcomment => exact comment_spellsInteger hcomment
  | blockComment hblock hcomment => exact comment_spellsInteger hcomment
  | operator hb hoperator =>
      obtain ⟨-, -, hmem⟩ := operator?_spec hoperator
      exact htoken fun hint => absurd (hint ▸ hmem) (by decide)

theorem spellsInteger_of_lexFrom {name : Bytes} {size : Nat} {lexemes : List Lexeme}
    {infos : List LineInfo} (text : Bytes) (skip : Nat) (s : LexState) (seen : List Lexeme)
    (hseen : ∀ x ∈ seen, x.SpellsInteger)
    (h : lexFrom name size skip s seen text = some (lexemes, infos)) :
    ∀ x ∈ lexemes, x.SpellsInteger := by
  induction text generalizing skip s seen with
  | nil =>
      rw [lexFrom] at h
      obtain ⟨rfl, -⟩ := Prod.mk.inj (Option.some.inj h)
      intro x hx
      rw [List.mem_reverse, List.mem_cons] at hx
      rcases hx with rfl | hx
      · exact spellsInteger_of_kind_ne _ (by simp)
      · split at hx
        · rcases List.mem_cons.mp hx with rfl | hx
          · exact spellsInteger_of_kind_ne _ (by simp)
          · exact hseen x hx
        · exact hseen x hx
  | cons b rest ih =>
      cases skip with
      | succ skip => exact ih skip (s.advance b) seen hseen h
      | zero =>
          simp only [lexFrom] at h
          split at h
          · cases h
          · rename_i st hst
            refine ih _ _ _ (fun x hx => ?_) h
            rcases List.mem_append.mp hx with hx | hx
            · exact LexState.step_spellsInteger hst x (List.mem_reverse.mp hx)
            · exact hseen x hx

/-- The text of an integer token is an integer literal. -/
theorem isInteger_of_lex? {name src : Bytes} {l : Lexed} (h : lex? name src = some l) {t : Token}
    (ht : t ∈ l.tokens) (hkind : t.kind = .int) :
    ∃ mark head whole, IsInteger t.text mark head whole := by
  obtain ⟨skip, lexemes, infos, hlex, -, hattached, -⟩ := exists_lexemes_of_lex? h
  obtain ⟨u, line, hu, hsame, htext, -⟩ := hattached.exists_token ht
  rw [htext]
  exact spellsInteger_of_lexFrom src skip .start [] (by simp) hlex _ hu (hsame ▸ hkind)

/-! ## The literal that a text consists of -/

/-- The integer literal with an optional sign that a text consists of, but for comments and the end
of the line: whether it is negative, and its text. -/
def writtenInteger? (text : Bytes) : Option (Bool × Bytes) :=
  (lex? [] text).bind fun l => signedInteger? (contents l.tokens)

theorem parseExpr?_bind_signedInteger? (text : Bytes) :
    (parseExpr? text).bind Expr.signedInteger? = writtenInteger? text := by
  rw [parseExpr?, writtenInteger?]
  cases hlex : lex? [] text with
  | none => rfl
  | some l =>
      have hends : EndsFile l.tokens := (placed_of_lex? hlex).ends
      rw [Option.bind_some, ← Grammar.signedInteger?_contents (n := 3 * l.tokens.length + 6) hends 0]
      exact Option.bind_assoc ((Grammar.lone _).run ⟨l.tokens, 0⟩) (fun x => some x.1) _

theorem exists_token_of_signedInteger? {ts : List Token} {negative : Bool} {lit : Bytes}
    (h : signedInteger? ts = some (negative, lit)) : ∃ t ∈ ts, t.kind = .int ∧ t.text = lit := by
  rcases signedInteger?_eq_some h with ⟨t, rfl, hkind, heq⟩ | ⟨s, t, rfl, -, hkind, heq⟩
  · exact ⟨t, by simp, hkind, (Prod.mk.inj heq).2.symm⟩
  · exact ⟨t, by simp, hkind, (Prod.mk.inj heq).2.symm⟩

theorem isInteger_of_writtenInteger? {text lit : Bytes} {negative : Bool}
    (h : writtenInteger? text = some (negative, lit)) :
    ∃ mark head whole, IsInteger lit mark head whole := by
  obtain ⟨l, hlex, hsigned⟩ := Option.bind_eq_some_iff.mp h
  obtain ⟨t, ht, hkind, rfl⟩ := exists_token_of_signedInteger? hsigned
  exact isInteger_of_lex? hlex ((prefix_contents l.tokens).subset ht) hkind

end Syntax

namespace Directive

open Syntax

variable {arg v lit : Bytes} {negative : Bool} {default : Int}

theorem signedLiteral?_eq (text : Bytes) : signedLiteral? text = writtenInteger? text := by
  rw [← parseExpr?_bind_signedInteger?, signedLiteral?]
  cases parseExpr? text with
  | none => rfl
  | some x =>
      rw [Option.bind_some]
      unfold Expr.signedInteger?
      cases x with
      | unary p k y =>
          cases k <;> cases y <;> first | rfl | simp
      | _ => first | rfl | simp

/-! ## What stands after the equals sign -/

theorem budgetText?_of_notMem (h : Ascii.equal ∉ arg) : budgetText? arg = some arg := by
  rw [budgetText?, show Bytes.ofString "=" = [Ascii.equal] by decide, Bytes.cut?_of_notMem h]

theorem budgetText?_append {key : Bytes} (h : Ascii.equal ∉ key) (v : Bytes) :
    budgetText? (key ++ Ascii.equal :: v) =
      if key = Bytes.ofString "retries" then some v else none := by
  rw [budgetText?, show Bytes.ofString "=" = [Ascii.equal] by decide, Bytes.cut?_append_cons h]

/-! ## One argument -/

theorem budget_of_noLiteral (harg : budgetText? arg = some v) (h : writtenInteger? v = none) :
    budget [arg] default = .error .invalidRetries := by
  simp only [budget, harg, Option.bind_some, signedLiteral?_eq, h]

theorem budget_of_literal (harg : budgetText? arg = some v)
    (h : writtenInteger? v = some (negative, lit)) : budget [arg] default =
      if negative = true ∨ literalValue lit = 0 ∨ 2 ^ 63 - 1 < literalValue lit then
        .error .nonPositiveRetries
      else .ok (literalValue lit) := by
  obtain ⟨mark, head, whole, hinteger⟩ := isInteger_of_writtenInteger? h
  simp only [budget, harg, Option.bind_some, signedLiteral?_eq, h,
    Integer.read_of_isInteger hinteger]
  by_cases hfits : literalValue lit < 2 ^ 63
  · have hrange : ¬ 2 ^ 63 - 1 < literalValue lit := by omega
    simp only [if_pos hfits, hrange, or_false, Bool.or_eq_true, decide_eq_true_eq,
      Int.natCast_nonpos_iff]
  · have hrange : 2 ^ 63 - 1 < literalValue lit := by omega
    simp only [if_neg hfits, hrange, or_true, if_true]

/-- What a list of arguments asks for. Without an argument it is the default, if that is positive.
Several arguments ask for nothing, and no argument does with another key than `retries`. One argument,
or what it gives for that key, asks for the value of the integer literal that it consists of, which has
to be positive and to fit into 64 bits; a minus is always a fault. And no integer in a text is malformed
when it is read as a number. -/
theorem budget_spec (default : Int) :
    budget [] default = (if 0 < default then .ok default else .error .nonPositiveRetries) ∧
    (∀ args, 2 ≤ args.length → budget args default = .error .invalidRetries) ∧
    (∀ key v, Ascii.equal ∉ key → key ≠ Bytes.ofString "retries" →
      budget [key ++ Ascii.equal :: v] default = .error .invalidRetries) ∧
    (∀ arg v, Ascii.equal ∉ arg ∧ v = arg ∨ arg = Bytes.ofString "retries" ++ Ascii.equal :: v →
      (writtenInteger? v = none → budget [arg] default = .error .invalidRetries) ∧
      ∀ negative lit, writtenInteger? v = some (negative, lit) → budget [arg] default =
        if negative = true ∨ literalValue lit = 0 ∨ 2 ^ 63 - 1 < literalValue lit then
          .error .nonPositiveRetries
        else .ok (literalValue lit)) ∧
    ∀ name src l, lex? name src = some l → ∀ t ∈ l.tokens, t.kind = .int →
      Integer.read t.text ≠ .error .malformed := by
  have hgives : ∀ arg v,
      Ascii.equal ∉ arg ∧ v = arg ∨ arg = Bytes.ofString "retries" ++ Ascii.equal :: v →
      budgetText? arg = some v := by
    rintro arg v (⟨harg, rfl⟩ | rfl)
    · exact budgetText?_of_notMem harg
    · rw [budgetText?_append (by decide), if_pos rfl]
  refine ⟨?_, fun args hargs => ?_, fun key v hequal hkey => ?_, fun arg v harg =>
    ⟨budget_of_noLiteral (hgives arg v harg), fun negative lit => budget_of_literal (hgives arg v harg)⟩,
    fun name src l hlex t ht hkind => ?_⟩
  · rw [budget]
    by_cases hpos : 0 < default
    · rw [if_pos hpos, if_neg (Int.not_le.mpr hpos)]
    · rw [if_neg hpos, if_pos (Int.not_lt.mp hpos)]
  · match args, hargs with
    | _ :: _ :: _, _ => rfl
  · rw [budget, budgetText?_append hequal, if_neg hkey]
    rfl
  · obtain ⟨mark, head, whole, hinteger⟩ := isInteger_of_lex? hlex ht hkind
    rw [Integer.read_of_isInteger hinteger]
    split <;> nofun

theorem budget_spec_signedHex :
    budget [Bytes.ofString "retries=+0x_1F/* thirty-one */"] 3 = .ok 31 := by
  have hwritten : writtenInteger? (Bytes.ofString "+0x_1F/* thirty-one */") =
      some (false, Bytes.ofString "0x_1F") := by decide
  exact ((budget_spec 3).2.2.2.1 _ (Bytes.ofString "+0x_1F/* thirty-one */") (.inr (by decide))).2
    false (Bytes.ofString "0x_1F") hwritten

end Directive

end RetryWeave
