import RetryWeave.Proofs.Syntax.CommentGroups
import RetryWeave.Proofs.Syntax.Reading
import RetryWeave.Syntax.Node

/-! # The places of function declarations

A function declaration is read from left to right: its keyword, its results and its body are tokens
in this order, and the functions of a file follow one another. -/

namespace RetryWeave.Syntax

variable {α β : Type}

/-! ## What a successful reader did -/

namespace Parse

variable {c c' : Cursor}

theorem bind_eq_some {p : Parse α} {f : α → Parse β} {b : β} :
    (p >>= f) c = some (b, c') ↔ ∃ a c₁, p c = some (a, c₁) ∧ f a c₁ = some (b, c') :=
  Option.bind_eq_some_iff.trans Prod.exists

theorem pure_eq_some {a b : α} : (pure a : Parse α) c = some (b, c') ↔ a = b ∧ c = c' :=
  Option.some_inj.trans Prod.mk_inj

theorem map_eq_some {p : Parse α} {f : α → β} {b : β} :
    (f <$> p) c = some (b, c') ↔ ∃ a, p c = some (a, c') ∧ f a = b := by
  refine (bind_eq_some (p := p) (f := pure ∘ f)).trans (exists_congr fun a => ?_)
  simp only [Function.comp_apply, pure_eq_some, exists_eq_right_right]

theorem refuse_eq_some {a : α} : (refuse : Parse α) c = some (a, c') ↔ False :=
  iff_false_intro nofun

theorem current_eq_some {t : Token} :
    current c = some (t, c') ↔ c.rest.headD endToken = t ∧ c = c' :=
  Option.some_inj.trans Prod.mk_inj

theorem kind_eq_some {k : Tok} :
    kind c = some (k, c') ↔ (c.rest.headD endToken).kind = k ∧ c = c' :=
  Option.some_inj.trans Prod.mk_inj

/-- What holds of the empty list where a reader stops, and of a longer one when a step is put in
front of it, holds of all that the reader reads. -/
theorem many_induction {step : Parse (Option α)} {P : List α → Cursor → Cursor → Prop}
    (stops : ∀ c c', step c = some (none, c') → P [] c c')
    (goes : ∀ c c₁ c' a as, step c = some (some a, c₁) → P as c₁ c' → P (a :: as) c c')
    {as : List α} (h : many step c = some (as, c')) : P as c c' := by
  have hwithin : ∀ bound c as, manyWithin step bound c = some (as, c') → P as c c' := by
    intro bound
    induction bound with
    | nil =>
        intro c as h
        obtain ⟨a, c₁, hstep, h⟩ := bind_eq_some.mp h
        cases a with
        | none =>
            obtain ⟨rfl, rfl⟩ := pure_eq_some.mp h
            exact stops c c₁ hstep
        | some a => exact (refuse_eq_some.mp h).elim
    | cons t bound ih =>
        intro c as h
        obtain ⟨a, c₁, hstep, h⟩ := bind_eq_some.mp h
        cases a with
        | none =>
            obtain ⟨rfl, rfl⟩ := pure_eq_some.mp h
            exact stops c c₁ hstep
        | some a =>
            obtain ⟨rest, c₂, hrest, h⟩ := bind_eq_some.mp h
            obtain ⟨rfl, rfl⟩ := pure_eq_some.mp h
            exact goes c c₁ c₂ a rest hstep (ih c₁ rest hrest)
  exact hwithin c.rest c as h

end Parse

/-! ## Tokens that are passed -/

/-- The last token is the end of the file. -/
def EndsFile (ts : List Token) : Prop := ∃ t, ts.getLast? = some t ∧ t.kind = .eof

theorem EndsFile.ne_nil {ts : List Token} (h : EndsFile ts) : ts ≠ [] := by
  rintro rfl
  obtain ⟨t, ht, -⟩ := h
  cases ht

theorem Cursor.Within.endsFile {ts : List Token} {c : Cursor} (h : c.Within ts)
    (hts : EndsFile ts) : EndsFile c.rest := by
  obtain ⟨t, ht, hkind⟩ := hts
  obtain ⟨front, rfl⟩ := h.suffix
  refine ⟨t, ?_, hkind⟩
  rwa [List.getLast?_append_of_ne_nil _ h.ne_nil] at ht

/-- A reader that moves forward, whatever the tokens. -/
theorem Cursor.within_of_forward {p : Parse α} (hp : ∀ ts, Forward ts p) {c c' : Cursor} {a : α}
    (hc : EndsFile c.rest) (h : p c = some (a, c')) : c'.Within c.rest :=
  (hp c.rest).within ⟨List.suffix_rfl, hc.ne_nil⟩ h

namespace Parse

variable {c c' : Cursor}

theorem next_rest {t : Token} {rest : List Token} (hc : EndsFile c.rest)
    (hrest : c.rest = t :: rest) (ht : t.kind ≠ .eof) (h : next c = some ((), c')) :
    c'.rest = rest := by
  cases rest with
  | nil =>
      rw [hrest] at hc
      obtain ⟨u, hu, hkind⟩ := hc
      obtain rfl : t = u := Option.some.inj hu
      exact absurd hkind ht
  | cons u rest =>
      have hnext : next c = some ((), { c with rest := u :: rest }) := by
        cases c
        cases hrest
        rfl
      cases h.symm.trans hnext
      rfl

/-- A reader that passes one token of a given kind. -/
theorem pass_eq_some {k : Tok} (hk : k ≠ .eof) {f : Token → α} {a : α} (hc : EndsFile c.rest)
    (h : (do let t ← current
             if t.kind == k then next; return f t
             else refuse : Parse α) c = some (a, c')) :
    ∃ t, c.rest = t :: c'.rest ∧ t.kind = k ∧ a = f t := by
  obtain ⟨t, _, ht, h⟩ := bind_eq_some.mp h
  obtain ⟨hhead, rfl⟩ := current_eq_some.mp ht
  cases hrest : c.rest with
  | nil => exact absurd hrest hc.ne_nil
  | cons u rest =>
      obtain rfl : u = t := by rw [← hhead, hrest, List.headD_cons]
      split at h
      · rename_i hkind
        have hkind := eq_of_beq hkind
        obtain ⟨_, c₁, hnext, h⟩ := bind_eq_some.mp h
        obtain ⟨rfl, rfl⟩ := pure_eq_some.mp h
        rw [next_rest hc hrest (fun heof => hk (hkind.symm.trans heof)) hnext]
        exact ⟨u, rfl, hkind, rfl⟩
      · exact (refuse_eq_some.mp h).elim

theorem expect_eq_some {k : Tok} (hk : k ≠ .eof) {p : Pos} (hc : EndsFile c.rest)
    (h : expect k c = some (p, c')) :
    ∃ t, c.rest = t :: c'.rest ∧ t.kind = k ∧ p = some t.start :=
  pass_eq_some hk hc h

theorem ident_eq_some {id : Ident} (hc : EndsFile c.rest) (h : ident c = some (id, c')) :
    ∃ t, c.rest = t :: c'.rest ∧ t.kind = .ident ∧ id = ⟨some t.start, t.text⟩ :=
  pass_eq_some (by decide) hc h

end Parse

/-- Two tokens that open and close something. -/
def IsPair (k k' : Tok) (opening closing : Pos) (ts : List Token) : Prop :=
  ∃ l r, ts = [l, r] ∧ l.kind = k ∧ r.kind = k' ∧ opening = some l.start ∧ closing = some r.start

open Parse in
/-- A reader between an opening and a closing token. -/
theorem exists_pair {k k' : Tok} (hk : k ≠ .eof) (hk' : k' ≠ .eof) {p : Parse α}
    (hp : ∀ ts, Forward ts p) {f : Pos → α → Pos → β} {c c' : Cursor} {b : β}
    (hc : EndsFile c.rest)
    (h : (do let opening ← expect k; let a ← p; let closing ← expect k'
             return f opening a closing : Parse β) c = some (b, c')) :
    ∃ opening a closing ts, b = f opening a closing ∧ IsPair k k' opening closing ts ∧
      (ts ++ c'.rest).Sublist c.rest := by
  obtain ⟨opening, c₁, hopening, h⟩ := bind_eq_some.mp h
  obtain ⟨a, c₂, ha, h⟩ := bind_eq_some.mp h
  obtain ⟨closing, c₃, hclosing, h⟩ := bind_eq_some.mp h
  obtain ⟨rfl, rfl⟩ := pure_eq_some.mp h
  have hc₁ := (Cursor.within_of_forward (fun _ => expect_forward k) hc hopening).endsFile hc
  have hwithin := Cursor.within_of_forward hp hc₁ ha
  obtain ⟨l, hl, hlkind, hlstart⟩ := expect_eq_some hk hc hopening
  obtain ⟨r, hr, hrkind, hrstart⟩ := expect_eq_some hk' (hwithin.endsFile hc₁) hclosing
  refine ⟨opening, a, closing, [l, r], rfl, ⟨l, r, rfl, hlkind, hrkind, hlstart, hrstart⟩, ?_⟩
  rw [hl, List.cons_append, List.singleton_append, ← hr]
  exact hwithin.suffix.sublist.cons_cons l

/-! ## Signatures and bodies -/

/-- The tokens around a result list in parentheses; otherwise the list is a single type, and if that
is a name its token. -/
def ResultsMarked (results : Option FieldList) (ts : List Token) : Prop :=
  ∀ l, results = some l → IsPair .lparen .rparen l.opening l.closing ts ∨
    ∃ type, l = ⟨none, [⟨none, [], type, none, none⟩], none⟩ ∧
      ∀ id, type = .ident id → ∃ t, ts = [t] ∧ t.kind = .ident ∧ id = ⟨some t.start, t.text⟩

namespace Grammar

open Parse

variable {r : Nested} (hr : ∀ ts, r.Forward ts) {c c' : Cursor}

section

include hr

theorem block_eq_some {b : Block} (hc : EndsFile c.rest) (h : block r c = some (b, c')) :
    ∃ ts, IsPair .lbrace .rbrace b.lbrace b.rbrace ts ∧ (ts ++ c'.rest).Sublist c.rest := by
  obtain ⟨lbrace, stmts, rbrace, ts, rfl, hpair, hsublist⟩ :=
    exists_pair (by decide) (by decide) (fun ts => stmtList_forward (hr ts)) hc h
  exact ⟨ts, hpair, hsublist⟩

theorem parameters_eq_some {variadic : Bool} {l : FieldList} (hc : EndsFile c.rest)
    (h : parameters r variadic c = some (l, c')) :
    ∃ ts, IsPair .lparen .rparen l.opening l.closing ts ∧ (ts ++ c'.rest).Sublist c.rest := by
  obtain ⟨opening, fields, closing, ts, rfl, hpair, hsublist⟩ :=
    exists_pair (by decide) (by decide)
      (fun ts => paramList_forward (hr ts) .rparen variadic none none)
      hc h
  exact ⟨ts, hpair, hsublist⟩

end

theorem typeName_eq_some {id : Ident} (hc : EndsFile c.rest)
    (h : typeName none c = some (.ident id, c')) :
    ∃ t, t.kind = .ident ∧ id = ⟨some t.start, t.text⟩ ∧ (t :: c'.rest).Sublist c.rest := by
  obtain ⟨id', c₁, hid, h⟩ := bind_eq_some.mp h
  obtain ⟨t, ht, hkind, rfl⟩ := ident_eq_some hc hid
  obtain ⟨dotted, c₂, haccept, h⟩ := bind_eq_some.mp h
  cases dotted with
  | true =>
      obtain ⟨sel, c₃, -, h⟩ := bind_eq_some.mp h
      cases (pure_eq_some.mp h).1
  | false =>
      obtain ⟨heq, rfl⟩ := pure_eq_some.mp h
      cases heq
      have hc₁ := (Cursor.within_of_forward (fun _ => ident_forward) hc hid).endsFile hc
      have hwithin := Cursor.within_of_forward (fun _ => accept_forward _) hc₁ haccept
      exact ⟨t, hkind, rfl, ht ▸ hwithin.suffix.sublist.cons_cons t⟩

theorem chanType_ne_ident {id : Ident} : ¬ chanType r c = some (.ident id, c') := by
  intro h
  obtain ⟨t, c₁, -, h⟩ := bind_eq_some.mp h
  split at h
  · obtain ⟨_, c₂, -, h⟩ := bind_eq_some.mp h
    obtain ⟨u, c₃, -, h⟩ := bind_eq_some.mp h
    obtain ⟨arrow, c₄, -, h⟩ := bind_eq_some.mp h
    split at h <;> simp [map_eq_some] at h
  · simp [bind_eq_some, map_eq_some] at h

/-- A type that is a name consists of its token. -/
theorem type?_eq_some {id : Ident} (hc : EndsFile c.rest)
    (h : type? r c = some (some (.ident id), c')) :
    ∃ t, t.kind = .ident ∧ id = ⟨some t.start, t.text⟩ ∧ (t :: c'.rest).Sublist c.rest := by
  obtain ⟨k, _, hk, h⟩ := bind_eq_some.mp h
  obtain ⟨-, rfl⟩ := kind_eq_some.mp hk
  split at h
  case h_1 =>
    obtain ⟨x, c₁, hname, h⟩ := bind_eq_some.mp h
    obtain ⟨heq, rfl⟩ := pure_eq_some.mp h
    cases heq
    obtain ⟨name, c₂, hfirst, h⟩ := bind_eq_some.mp hname
    obtain ⟨k', _, hk', h⟩ := bind_eq_some.mp h
    obtain ⟨-, rfl⟩ := kind_eq_some.mp hk'
    split at h
    · simp only [typeInstance, bind_eq_some] at h
      obtain ⟨_, _, _, args, _, _, _, _, _, h⟩ := h
      split at h
      · exact (refuse_eq_some.mp h).elim
      · cases (pure_eq_some.mp h).1
    · obtain ⟨rfl, rfl⟩ := pure_eq_some.mp h
      exact typeName_eq_some hc hfirst
  case h_8 | h_9 =>
    obtain ⟨x, c₁, hchan, h⟩ := bind_eq_some.mp h
    obtain ⟨heq, rfl⟩ := pure_eq_some.mp h
    cases heq
    exact (chanType_ne_ident hchan).elim
  all_goals
    simp [bind_eq_some, pure_eq_some, map_eq_some, arrayType, structType, mapType,
      interfaceType] at h

theorem nested_type?_eq_some {depth : Nat} {id : Ident} (hc : EndsFile c.rest)
    (h : (nested depth).type? c = some (some (.ident id), c')) :
    ∃ t, t.kind = .ident ∧ id = ⟨some t.start, t.text⟩ ∧ (t :: c'.rest).Sublist c.rest := by
  cases depth with
  | zero => cases h
  | succ depth => exact type?_eq_some hc h

theorem nested_block_eq_some {depth : Nat} {b : Block} (hc : EndsFile c.rest)
    (h : (nested depth).block c = some (b, c')) :
    ∃ ts, IsPair .lbrace .rbrace b.lbrace b.rbrace ts ∧ (ts ++ c'.rest).Sublist c.rest := by
  cases depth with
  | zero => cases h
  | succ depth => exact block_eq_some (fun _ => nested_forward depth) hc h

theorem results_eq_some {depth : Nat} {results : Option FieldList} (hc : EndsFile c.rest)
    (h : Grammar.results (nested depth) c = some (results, c')) :
    ∃ ts, ResultsMarked results ts ∧ (ts ++ c'.rest).Sublist c.rest := by
  have hr : ∀ ts, (nested depth).Forward ts := fun _ => nested_forward depth
  obtain ⟨k, _, hk, h⟩ := bind_eq_some.mp h
  obtain ⟨-, rfl⟩ := kind_eq_some.mp hk
  split at h
  · obtain ⟨l, c₁, hl, h⟩ := bind_eq_some.mp h
    obtain ⟨rfl, rfl⟩ := pure_eq_some.mp h
    obtain ⟨ts, hpair, hsublist⟩ := parameters_eq_some hr hc hl
    exact ⟨ts, fun l' hl' => .inl (Option.some.inj hl' ▸ hpair), hsublist⟩
  · obtain ⟨type, c₁, hread, h⟩ := bind_eq_some.mp h
    cases type with
    | none =>
        obtain ⟨rfl, rfl⟩ := pure_eq_some.mp h
        have hwithin := Cursor.within_of_forward (fun ts => (hr ts).type?) hc hread
        exact ⟨[], nofun, hwithin.suffix.sublist⟩
    | some type =>
        obtain ⟨rfl, rfl⟩ := pure_eq_some.mp h
        have hwithin := Cursor.within_of_forward (fun ts => (hr ts).type?) hc hread
        by_cases hid : ∃ id, type = .ident id
        · obtain ⟨id, rfl⟩ := hid
          obtain ⟨t, hkind, hid, hsublist⟩ := nested_type?_eq_some hc hread
          refine ⟨[t], fun l hl => .inr ⟨.ident id, (Option.some.inj hl).symm, ?_⟩, hsublist⟩
          rintro id' heq
          cases heq
          exact ⟨t, rfl, hkind, hid⟩
        · exact ⟨[], fun l hl => .inr ⟨type, (Option.some.inj hl).symm,
            fun id heq => (hid ⟨id, heq⟩).elim⟩, hwithin.suffix.sublist⟩

/-- What stands after the optional part of a declaration. -/
theorem optional_eq_some {p : Parse α} (hp : ∀ ts, Forward ts p) {f : Option α → Parse β}
    {present : Bool} {b : β} (hc : EndsFile c.rest)
    (h : (if present then (some <$> p) >>= f else pure none >>= f) c = some (b, c')) :
    ∃ a c₁, c₁.Within c.rest ∧ f a c₁ = some (b, c') := by
  split at h
  · obtain ⟨a, c₁, ha, h⟩ := bind_eq_some.mp h
    obtain ⟨x, hx, rfl⟩ := map_eq_some.mp ha
    exact ⟨some x, c₁, Cursor.within_of_forward hp hc hx, h⟩
  · obtain ⟨a, c₁, ha, h⟩ := bind_eq_some.mp h
    obtain ⟨rfl, rfl⟩ := pure_eq_some.mp ha
    exact ⟨none, c, ⟨List.suffix_rfl, hc.ne_nil⟩, h⟩

end Grammar

/-! ## Function declarations -/

/-- The tokens of a function declaration that an expansion looks at. -/
structure FuncMarks where
  func : Token
  results : List Token
  body : List Token

def FuncMarks.tokens (m : FuncMarks) : List Token := m.func :: (m.results ++ m.body)

/-- A function declaration was read from its marks. -/
structure FuncDecl.MarkedBy (d : FuncDecl) (m : FuncMarks) : Prop where
  kind : m.func.kind = .kwFunc
  start : d.start = some m.func.start
  doc : d.doc = m.func.lead
  results : ResultsMarked d.type.results m.results
  body : ∀ b, d.body = some b → IsPair .lbrace .rbrace b.lbrace b.rbrace m.body

namespace Grammar

open Parse

variable {depth : Nat} {c c' : Cursor}

theorem signature_eq_some {pos : Pos} {typeParams : Option FieldList} {type : FuncType}
    (hc : EndsFile c.rest) (h : signature (nested depth) pos typeParams c = some (type, c')) :
    type.func = pos ∧ ∃ ts, ResultsMarked type.results ts ∧ (ts ++ c'.rest).Sublist c.rest := by
  obtain ⟨params, c₁, hparams, h⟩ := bind_eq_some.mp h
  obtain ⟨results, c₂, hresults, h⟩ := bind_eq_some.mp h
  obtain ⟨rfl, rfl⟩ := pure_eq_some.mp h
  have hwithin :=
    Cursor.within_of_forward (fun _ => parameters_forward (nested_forward depth) true) hc hparams
  obtain ⟨ts, hmarked, hsublist⟩ := results_eq_some (hwithin.endsFile hc) hresults
  exact ⟨rfl, ts, hmarked, hsublist.trans hwithin.suffix.sublist⟩

theorem funcDecl_eq_some {d : FuncDecl} (hc : EndsFile c.rest)
    (h : funcDecl (nested depth) c = some (d, c')) :
    ∃ m, d.MarkedBy m ∧ (m.tokens ++ c'.rest).Sublist c.rest := by
  have hr : ∀ ts, (nested depth).Forward ts := fun ts => nested_forward depth
  obtain ⟨t, _, hcurrent, h⟩ := bind_eq_some.mp h
  obtain ⟨hhead, rfl⟩ := current_eq_some.mp hcurrent
  obtain ⟨pos, c₁, hpos, h⟩ := bind_eq_some.mp h
  have hc₁ := (Cursor.within_of_forward (fun _ => expect_forward _) hc hpos).endsFile hc
  obtain ⟨u, hu, hkind, hstart⟩ := expect_eq_some (by decide) hc hpos
  obtain rfl : u = t := by rw [← hhead, hu, List.headD_cons]
  obtain ⟨k, _, hk, h⟩ := bind_eq_some.mp h
  obtain ⟨-, rfl⟩ := kind_eq_some.mp hk
  obtain ⟨recv, c₂, hrecv, h⟩ := optional_eq_some (fun ts => parameters_forward (hr ts) true) hc₁ h
  have hc₂ := hrecv.endsFile hc₁
  obtain ⟨name, c₃, hname, h⟩ := bind_eq_some.mp h
  have hnameWithin := Cursor.within_of_forward (fun _ => ident_forward) hc₂ hname
  have hc₃ := hnameWithin.endsFile hc₂
  obtain ⟨k, _, hk, h⟩ := bind_eq_some.mp h
  obtain ⟨-, rfl⟩ := kind_eq_some.mp hk
  obtain ⟨typeParams, c₄, htypeParams, h⟩ :=
    optional_eq_some (fun ts => typeParameters_forward (hr ts)) hc₃ h
  have hc₄ := htypeParams.endsFile hc₃
  obtain ⟨type, c₅, htype, h⟩ := bind_eq_some.mp h
  have htypeWithin := Cursor.within_of_forward (fun ts => signature_forward (hr ts) _ _) hc₄ htype
  obtain ⟨hfunc, results, hresults, hsublist⟩ := signature_eq_some hc₄ htype
  have hfront : (u :: (results ++ c₅.rest)).Sublist c.rest := by
    rw [hu]
    exact (hsublist.trans (htypeParams.suffix.trans
      (hnameWithin.suffix.trans hrecv.suffix)).sublist).cons_cons u
  have hc₅ := htypeWithin.endsFile hc₄
  -- without a body no token is marked after the results
  have hbare : c'.Within c₅.rest → d = ⟨u.lead, recv, name, type, none⟩ →
      ∃ m, d.MarkedBy m ∧ (m.tokens ++ c'.rest).Sublist c.rest := by
    rintro hwithin rfl
    refine ⟨⟨u, results, []⟩, ⟨hkind, hfunc.trans hstart, rfl, hresults, nofun⟩, ?_⟩
    refine List.Sublist.trans ?_ hfront
    simpa [FuncMarks.tokens] using hwithin.suffix.sublist
  obtain ⟨k, _, hk, h⟩ := bind_eq_some.mp h
  obtain ⟨-, rfl⟩ := kind_eq_some.mp hk
  split at h
  · obtain ⟨b, c₆, hb, h⟩ := bind_eq_some.mp h
    obtain ⟨trail, c₇, hsemi, h⟩ := bind_eq_some.mp h
    obtain ⟨rfl, rfl⟩ := pure_eq_some.mp h
    have hbWithin := Cursor.within_of_forward (fun ts => (hr ts).block) hc₅ hb
    have hsemiWithin := Cursor.within_of_forward (fun _ => expectSemi_forward)
      (hbWithin.endsFile hc₅) hsemi
    obtain ⟨body, hpair, hbody⟩ := nested_block_eq_some hc₅ hb
    refine ⟨⟨u, results, body⟩, ⟨hkind, hfunc.trans hstart, rfl, hresults, ?_⟩, ?_⟩
    · rintro b' hb'
      exact Option.some.inj hb' ▸ hpair
    · refine List.Sublist.trans ?_ hfront
      simpa [FuncMarks.tokens] using
        (hsemiWithin.suffix.sublist.append_left body).trans hbody
  · obtain ⟨_, c₆, hnext, h⟩ := bind_eq_some.mp h
    obtain ⟨k, _, hk, h⟩ := bind_eq_some.mp h
    obtain ⟨-, rfl⟩ := kind_eq_some.mp hk
    split at h
    · exact (refuse_eq_some.mp h).elim
    · obtain ⟨heq, rfl⟩ := pure_eq_some.mp h
      exact hbare (Cursor.within_of_forward (fun _ => next_forward) hc₅ hnext) heq.symm
  · obtain ⟨trail, c₆, hsemi, h⟩ := bind_eq_some.mp h
    obtain ⟨heq, rfl⟩ := pure_eq_some.mp h
    exact hbare (Cursor.within_of_forward (fun _ => expectSemi_forward) hc₅ hsemi) heq.symm

/-- The function declarations among some declarations. -/
def funcsOf (decls : List Decl) : List FuncDecl :=
  decls.filterMap fun
    | .func d => some d
    | .gen _ => none

/-- The functions that the declarations of a file hold, one after another. -/
theorem decls_eq_some {decls : List Decl} (hc : EndsFile c.rest)
    (h : many (decl (nested depth)) c = some (decls, c')) :
    ∃ ms, List.Forall₂ FuncDecl.MarkedBy (funcsOf decls) ms ∧
      (ms.flatMap FuncMarks.tokens).Sublist c.rest := by
  have hr : ∀ ts, (nested depth).Forward ts := fun ts => nested_forward depth
  refine many_induction (P := fun decls c _ => EndsFile c.rest →
    ∃ ms, List.Forall₂ FuncDecl.MarkedBy (funcsOf decls) ms ∧
      (ms.flatMap FuncMarks.tokens).Sublist c.rest) ?_ ?_ h hc
  · intro c c' _ _
    exact ⟨[], .nil, List.nil_sublist _⟩
  · intro c c₁ c' d decls hd ih hc
    obtain ⟨k, _, hk, hd⟩ := bind_eq_some.mp hd
    obtain ⟨-, rfl⟩ := kind_eq_some.mp hk
    split at hd
    · cases (pure_eq_some.mp hd).1
    · obtain ⟨f, c₂, hf, hd⟩ := bind_eq_some.mp hd
      obtain ⟨heq, rfl⟩ := pure_eq_some.mp hd
      cases heq
      obtain ⟨m, hm, hmarks⟩ := funcDecl_eq_some hc hf
      have hwithin := Cursor.within_of_forward (fun ts => funcDecl_forward (hr ts)) hc hf
      obtain ⟨ms, hms, hsublist⟩ := ih (hwithin.endsFile hc)
      exact ⟨m :: ms, .cons hm hms, (hsublist.append_left m.tokens).trans hmarks⟩
    · obtain ⟨g, c₂, hg, hd⟩ := bind_eq_some.mp hd
      obtain ⟨heq, rfl⟩ := pure_eq_some.mp hd
      cases heq
      have hwithin := Cursor.within_of_forward (fun ts => localDecl_forward (hr ts)) hc hg
      obtain ⟨ms, hms, hsublist⟩ := ih (hwithin.endsFile hc)
      exact ⟨ms, hms, hsublist.trans hwithin.suffix.sublist⟩

theorem imports_eq_some {decls : List Decl}
    (h : many (do if (← kind) == .kwImport then return some (Decl.gen (← importDecl))
                  else return none) c = some (decls, c')) : funcsOf decls = [] := by
  refine many_induction (P := fun decls _ _ => funcsOf decls = []) (fun _ _ _ => rfl) ?_ h
  intro c c₁ c' d decls hd ih
  obtain ⟨k, _, -, hd⟩ := bind_eq_some.mp hd
  split at hd
  · obtain ⟨g, c₂, -, hd⟩ := bind_eq_some.mp hd
    cases (pure_eq_some.mp hd).1
    exact ih
  · cases (pure_eq_some.mp hd).1

end Grammar

/-! ## Files -/

set_option mvcgen.warning false in
open Parse Grammar in
/-- A file has the comments and the lines of its text, and its functions are read from the tokens
of the text in order. -/
theorem parseFile?_eq_some {name src : Bytes} {f : File} (h : parseFile? name src = some f) :
    ∃ l, lex? name src = some l ∧ f.comments = l.comments ∧ f.table = l.table ∧
      ∃ ms, List.Forall₂ FuncDecl.MarkedBy f.funcs ms ∧
        (ms.flatMap FuncMarks.tokens).Sublist l.tokens := by
  obtain ⟨l, hl, h⟩ := Option.bind_eq_some_iff.mp h
  obtain ⟨⟨f', c'⟩, hread, h⟩ := Option.bind_eq_some_iff.mp h
  obtain rfl := Option.some.inj h
  have hc : EndsFile l.tokens := (placed_of_lex? hl).ends
  obtain ⟨t, _, ht, hread⟩ := bind_eq_some.mp hread
  obtain ⟨-, rfl⟩ := current_eq_some.mp ht
  obtain ⟨package, c₁, hpackage, hread⟩ := bind_eq_some.mp hread
  obtain ⟨id, c₂, hid, hread⟩ := bind_eq_some.mp hread
  obtain ⟨trail, c₃, htrail, hread⟩ := bind_eq_some.mp hread
  obtain ⟨imports, c₄, himports, hread⟩ := bind_eq_some.mp hread
  obtain ⟨decls, c₅, hdecls, hread⟩ := bind_eq_some.mp hread
  obtain ⟨rfl, rfl⟩ := pure_eq_some.mp hread
  have h₀ : Cursor.Within l.tokens ⟨l.tokens, 0⟩ := ⟨List.suffix_rfl, hc.ne_nil⟩
  have h₁ := (expect_forward _).within h₀ hpackage
  have h₂ := ident_forward.within h₁ hid
  have h₃ := expectSemi_forward.within h₂ htrail
  have h₄ := (many_forward (by mvcgen)).within h₃ himports
  obtain ⟨ms, hms, hsublist⟩ := decls_eq_some (h₄.endsFile hc) hdecls
  refine ⟨l, hl, rfl, rfl, ms, ?_, hsublist.trans h₄.suffix.sublist⟩
  change List.Forall₂ FuncDecl.MarkedBy (funcsOf (imports ++ decls)) ms
  rwa [funcsOf, List.filterMap_append, ← funcsOf, ← funcsOf, imports_eq_some himports,
    List.nil_append]

/-! ## Order in the text -/

/-- One function was read from tokens before those of another. -/
def FuncDecl.Before (tokens : List Token) (d d' : FuncDecl) : Prop :=
  ∃ m m', d.MarkedBy m ∧ d'.MarkedBy m' ∧ (m.tokens ++ m'.tokens).Sublist tokens

/-- Where the tokens and the functions of a file stand. -/
structure FilePlaced (src : Bytes) (tokens : List Token) (f : File) : Prop where
  placed : Placed src tokens f.comments
  marked : ∀ d ∈ f.funcs, ∃ m, d.MarkedBy m ∧ m.tokens.Sublist tokens
  ordered : f.funcs.Pairwise (FuncDecl.Before tokens)

theorem exists_marks {funcs : List FuncDecl} {ms : List FuncMarks} {tokens : List Token}
    (hms : List.Forall₂ FuncDecl.MarkedBy funcs ms)
    (hsublist : (ms.flatMap FuncMarks.tokens).Sublist tokens) {d : FuncDecl} (hd : d ∈ funcs) :
    ∃ m, d.MarkedBy m ∧ m.tokens.Sublist tokens := by
  induction hms generalizing tokens with
  | nil => cases hd
  | @cons d₁ m₁ funcs ms hm hms ih =>
      rw [List.flatMap_cons] at hsublist
      rcases List.mem_cons.mp hd with rfl | hd
      · exact ⟨m₁, hm, (List.sublist_append_left _ _).trans hsublist⟩
      · exact ih ((List.sublist_append_right _ _).trans hsublist) hd

theorem pairwise_before {funcs : List FuncDecl} {ms : List FuncMarks} {tokens : List Token}
    (hms : List.Forall₂ FuncDecl.MarkedBy funcs ms)
    (hsublist : (ms.flatMap FuncMarks.tokens).Sublist tokens) :
    funcs.Pairwise (FuncDecl.Before tokens) := by
  induction hms generalizing tokens with
  | nil => exact .nil
  | @cons d m funcs ms hm hms ih =>
      rw [List.flatMap_cons] at hsublist
      refine List.pairwise_cons.mpr ⟨fun d' hd' => ?_,
        ih ((List.sublist_append_right _ _).trans hsublist)⟩
      obtain ⟨m', hm', hsub⟩ := exists_marks hms (List.Sublist.refl _) hd'
      exact ⟨m, m', hm, hm', (hsub.append_left m.tokens).trans hsublist⟩

theorem exists_filePlaced {name src : Bytes} {f : File} (h : parseFile? name src = some f) :
    ∃ l, lex? name src = some l ∧ FilePlaced src l.tokens f := by
  obtain ⟨l, hl, hcomments, -, ms, hms, hsublist⟩ := parseFile?_eq_some h
  exact ⟨l, hl, hcomments ▸ placed_of_lex? hl, fun d hd => exists_marks hms hsublist hd,
    pairwise_before hms hsublist⟩

section

variable {src : Bytes} {tokens : List Token} {groups : List CommentGroup}

theorem Placed.implied_eq_false (h : Placed src tokens groups) {t : Token} (ht : t ∈ tokens)
    (hkind : t.kind ≠ .semicolon) : t.implied = false := by
  cases himplied : t.implied with
  | false => rfl
  | true => exact absurd (h.implied_kind t ht himplied) hkind

theorem Placed.fits (h : Placed src tokens groups) {t : Token} (ht : t ∈ tokens)
    (hkind : t.kind ≠ .semicolon) : t.Fits src :=
  h.token_fits t ht (h.implied_eq_false ht hkind)

/-- Tokens that are read one after the other stand one after the other. -/
theorem Placed.stop_le_start (h : Placed src tokens groups) {t u : Token}
    (hsublist : [t, u].Sublist tokens) (ht : t.kind ≠ .semicolon) (hu : u.kind ≠ .semicolon) :
    t.stop ≤ u.start := by
  have hmem := hsublist.subset
  refine (List.pairwise_cons.mp (h.tokens_ordered.sublist hsublist)).1 u List.mem_cons_self
    (h.implied_eq_false (hmem List.mem_cons_self) ht) (h.implied_eq_false (hmem (by simp)) hu)

/-- Two tokens with text are the same or stand one after the other. -/
theorem Placed.token_cases (h : Placed src tokens groups) {t u : Token} (ht : t ∈ tokens)
    (hu : u ∈ tokens) (htw : t.implied = false) (huw : u.implied = false) :
    t = u ∨ t.stop ≤ u.start ∨ u.stop ≤ t.start := by
  by_cases heq : t = u
  · exact .inl heq
  · have : Std.Symm fun t u : Token => t.implied = false → u.implied = false →
        t.stop ≤ u.start ∨ u.stop ≤ t.start := ⟨fun _ _ h hu ht => (h ht hu).symm⟩
    have heither : tokens.Pairwise fun t u : Token => t.implied = false → u.implied = false →
        t.stop ≤ u.start ∨ u.stop ≤ t.start :=
      h.tokens_ordered.imp fun hlt ht hu => .inl (hlt ht hu)
    exact .inr (heither.forall ht hu heq htw huw)

theorem Token.Fits.stop_eq {t : Token} (h : t.Fits src) (hkind : t.kind ≠ .string) :
    t.stop = t.start + t.text.length := by
  have hlength := congrArg List.length (h.text hkind)
  rw [Bytes.slice, List.length_take, List.length_drop] at hlength
  have hstart := h.start_le
  have hstop := h.stop_le
  omega

/-- A keyword or delimiter stands where it is read. -/
theorem Token.Fits.spelling_eq {t : Token} (h : t.Fits src) (hkind : t.kind ≠ .string)
    (hspelling : t.kind.spelling ≠ []) :
    Bytes.slice src t.start t.stop = t.kind.spelling ∧
      t.stop = t.start + t.kind.spelling.length :=
  ⟨(h.text hkind).trans (h.spelled hspelling), h.spelled hspelling ▸ h.stop_eq hkind⟩

theorem Token.Fits.getElem?_of_spelling {t : Token} (h : t.Fits src) (hkind : t.kind ≠ .string)
    {b : UInt8} (hb : t.kind.spelling = [b]) :
    t.stop = t.start + 1 ∧ src[t.start]? = some b := by
  obtain ⟨hslice, hstop⟩ := h.spelling_eq hkind (by simp [hb])
  rw [hb] at hslice hstop
  refine ⟨hstop, ?_⟩
  have hhead := congrArg List.head? hslice
  rwa [Bytes.slice, hstop, List.length_singleton, Nat.add_sub_cancel_left, List.head?_take,
    if_neg one_ne_zero, List.head?_drop] at hhead

end

/-- Where a function with a body stands: its keyword and its braces. -/
structure FuncDecl.Stands (src : Bytes) (d : FuncDecl) (start lb rb : Nat) : Prop where
  start_eq : d.start = some start
  lbrace_eq : d.body.bind (·.lbrace) = some lb
  rbrace_eq : d.body.bind (·.rbrace) = some rb
  keyword : Bytes.slice src start (start + 4) = Tok.kwFunc.spelling
  lbrace : src[lb]? = some Ascii.lbrace
  rbrace : src[rb]? = some Ascii.rbrace
  keyword_le : start + 4 ≤ lb
  lt : lb < rb

namespace FuncMarks

variable {m m' : FuncMarks} {tokens : List Token} {t u : Token}

theorem func_sublist (h : m.tokens.Sublist tokens) (ht : t ∈ m.results ++ m.body) :
    [m.func, t].Sublist tokens :=
  ((List.singleton_sublist.mpr ht).cons_cons m.func).trans h

theorem body_sublist (h : m.tokens.Sublist tokens) : m.body.Sublist tokens :=
  ((List.sublist_append_right m.results m.body).cons m.func).trans h

theorem results_sublist (h : m.tokens.Sublist tokens) : m.results.Sublist tokens :=
  ((List.sublist_append_left m.results m.body).cons m.func).trans h

theorem results_body_sublist (h : m.tokens.Sublist tokens) (ht : t ∈ m.results)
    (hu : u ∈ m.body) : [t, u].Sublist tokens :=
  (((List.singleton_sublist.mpr ht).append (List.singleton_sublist.mpr hu)).cons m.func).trans h

theorem sublist_of_before (h : (m.tokens ++ m'.tokens).Sublist tokens) (ht : t ∈ m.tokens) :
    [t, m'.func].Sublist tokens :=
  ((List.singleton_sublist.mpr ht).append (List.singleton_sublist.mpr List.mem_cons_self)).trans h

end FuncMarks

namespace FilePlaced

variable {src : Bytes} {tokens : List Token} {f : File} {d d' : FuncDecl}

theorem keyword_spec (hf : FilePlaced src tokens f) {m : FuncMarks} (hm : d.MarkedBy m)
    (hsublist : m.tokens.Sublist tokens) :
    Bytes.slice src m.func.start (m.func.start + 4) = Tok.kwFunc.spelling ∧
      m.func.stop = m.func.start + 4 := by
  have hmem : m.func ∈ tokens := hsublist.subset List.mem_cons_self
  have hfits := hf.placed.fits hmem (by simp [hm.kind])
  obtain ⟨hslice, hstop⟩ := hfits.spelling_eq (by simp [hm.kind]) (by rw [hm.kind]; decide)
  rw [hm.kind] at hslice hstop
  rw [hstop] at hslice
  exact ⟨hslice, hstop⟩

theorem exists_stands (hf : FilePlaced src tokens f) (hd : d ∈ f.funcs) {b : Block}
    (hb : d.body = some b) : ∃ start lb rb, d.Stands src start lb rb := by
  obtain ⟨m, hm, hsublist⟩ := hf.marked d hd
  obtain ⟨l, r, hbody, hlkind, hrkind, hlstart, hrstart⟩ := hm.body b hb
  obtain ⟨hslice, hstop⟩ := hf.keyword_spec hm hsublist
  have hbraces : [l, r].Sublist tokens := hbody ▸ FuncMarks.body_sublist hsublist
  have hlfits := hf.placed.fits (hbraces.subset List.mem_cons_self) (by simp [hlkind])
  have hrmem : r ∈ tokens := hbraces.subset (by simp)
  have hrfits := hf.placed.fits hrmem (by simp [hrkind])
  obtain ⟨hlstop, hlbrace⟩ := hlfits.getElem?_of_spelling (by simp [hlkind])
    (show _ = [Ascii.lbrace] by rw [hlkind]; rfl)
  obtain ⟨-, hrbrace⟩ := hrfits.getElem?_of_spelling (by simp [hrkind])
    (show _ = [Ascii.rbrace] by rw [hrkind]; rfl)
  have hkeyword := hf.placed.stop_le_start
    (FuncMarks.func_sublist hsublist (t := l) (by simp [hbody])) (by simp [hm.kind])
    (by simp [hlkind])
  have hlt := hf.placed.stop_le_start hbraces (by simp [hlkind]) (by simp [hrkind])
  refine ⟨m.func.start, l.start, r.start, hm.start, ?_, ?_, hslice, hlbrace, hrbrace,
    hstop ▸ hkeyword, by omega⟩
  · rw [hb, Option.bind_some, hlstart]
  · rw [hb, Option.bind_some, hrstart]

/-- The comments that document a function stand before its keyword. -/
theorem doc_before (hf : FilePlaced src tokens f) (hd : d ∈ f.funcs) {g : CommentGroup}
    (hg : d.doc = some g) : g ∈ f.comments ∧ ∀ start, d.start = some start →
      ∀ c ∈ g.list, c.reach src ≤ start := by
  obtain ⟨m, hm, hsublist⟩ := hf.marked d hd
  have hmem : m.func ∈ tokens := hsublist.subset List.mem_cons_self
  have hlead : m.func.lead = some g := hm.doc.symm.trans hg
  refine ⟨hf.placed.lead_mem _ hmem g hlead, fun start hstart c hc => ?_⟩
  obtain rfl : m.func.start = start := Option.some.inj (hm.start.symm.trans hstart)
  exact hf.placed.lead_before _ hmem (hf.placed.implied_eq_false hmem (by simp [hm.kind])) g
    hlead c hc

/-- A function is over when the comments of the next one begin. -/
theorem stands_before (hf : FilePlaced src tokens f) (h : FuncDecl.Before tokens d d')
    {start lb rb start' : Nat} (hd : d.Stands src start lb rb) (hd' : d'.start = some start') :
    rb < start' ∧ ∀ g, d'.doc = some g → ∀ c ∈ g.list, rb < c.start := by
  obtain ⟨m, m', hm, hm', hsublist⟩ := h
  obtain ⟨b, hb, hlbrace⟩ := Option.bind_eq_some_iff.mp hd.lbrace_eq
  have hrbrace := hd.rbrace_eq
  rw [hb, Option.bind_some] at hrbrace
  obtain ⟨l, r, hbody, hlkind, hrkind, hlstart, hrstart⟩ := hm.body b hb
  obtain rfl : r.start = rb := Option.some.inj (hrstart.symm.trans hrbrace)
  obtain rfl : m'.func.start = start' := Option.some.inj (hm'.start.symm.trans hd')
  have hpair : [r, m'.func].Sublist tokens :=
    FuncMarks.sublist_of_before hsublist (by simp [FuncMarks.tokens, hbody])
  have hrmem : r ∈ tokens := hpair.subset List.mem_cons_self
  have hrwritten := hf.placed.implied_eq_false hrmem (by simp [hrkind])
  obtain ⟨hrstop, -⟩ := (hf.placed.token_fits r hrmem hrwritten).getElem?_of_spelling
    (by simp [hrkind]) (show _ = [Ascii.rbrace] by rw [hrkind]; rfl)
  have hfunc := hf.placed.stop_le_start hpair (by simp [hrkind]) (by simp [hm'.kind])
  refine ⟨by omega, fun g hg c hc => ?_⟩
  have hlead := (List.pairwise_cons.mp (hf.placed.lead_after.sublist hpair)).1 m'.func
    List.mem_cons_self hrwritten g (hm'.doc.symm.trans hg) c hc
  omega

/-- The keywords of the functions stand in their order. -/
theorem start_lt_start (hf : FilePlaced src tokens f) (h : FuncDecl.Before tokens d d')
    {start start' : Nat} (hd : d.start = some start) (hd' : d'.start = some start') :
    start < start' := by
  obtain ⟨m, m', hm, hm', hsublist⟩ := h
  obtain rfl : m.func.start = start := Option.some.inj (hm.start.symm.trans hd)
  obtain rfl : m'.func.start = start' := Option.some.inj (hm'.start.symm.trans hd')
  obtain ⟨-, hstop⟩ := hf.keyword_spec hm ((List.sublist_append_left _ _).trans hsublist)
  have hle := hf.placed.stop_le_start (FuncMarks.sublist_of_before hsublist List.mem_cons_self)
    (by simp [hm.kind]) (by simp [hm'.kind])
  omega

end FilePlaced

end RetryWeave.Syntax
