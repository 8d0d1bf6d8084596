import RetryWeave.Proofs.Syntax.Placement
import RetryWeave.Proofs.Text.Integer

/-! # Literals with a sign

A text is read as a literal with an optional sign exactly if its tokens are these and nothing else. For
one direction, nothing else that the reader returns is a literal, or has an operator in front. -/

namespace RetryWeave.Syntax

variable {α β : Type}

/-! ## What a reader returns -/

/-- Everything that a reader returns has a property. -/
def Returns (P : α → Prop) (p : Parse α) : Prop := ∀ c a c', p c = some (a, c') → P a

namespace Returns

open Parse

variable {P : α → Prop}

theorem pure {a : α} (h : P a) : Returns P (pure a : Parse α) :=
  fun _ _ _ heq => (pure_eq_some.mp heq).1 ▸ h

theorem refuse : Returns P Parse.refuse := fun _ _ _ heq => (refuse_eq_some.mp heq).elim

theorem bind {p : Parse β} {f : β → Parse α} (h : ∀ b, Returns P (f b)) : Returns P (p >>= f) := by
  intro c a c' heq
  obtain ⟨b, c₁, -, hrest⟩ := bind_eq_some.mp heq
  exact h b c₁ a c' hrest

theorem bind_of {Q : β → Prop} {p : Parse β} {f : β → Parse α} (hp : Returns Q p)
    (h : ∀ b, Q b → Returns P (f b)) : Returns P (p >>= f) := by
  intro c a c' heq
  obtain ⟨b, c₁, hfirst, hrest⟩ := bind_eq_some.mp heq
  exact h b (hp c b c₁ hfirst) c₁ a c' hrest

theorem ite {condition : Prop} [Decidable condition] {p q : Parse α} (hp : Returns P p)
    (hq : Returns P q) : Returns P (if condition then p else q) := by
  split
  · exact hp
  · exact hq

end Returns

/-- A reader that returns nothing where it stands, or something with a property. -/
def Extends (Q : α → Prop) (p : Parse (Option α)) : Prop :=
  ∀ c o c', p c = some (o, c') → (o = none ∧ c' = c) ∨ ∃ a, o = some a ∧ Q a

namespace Extends

open Parse

variable {Q : α → Prop}

theorem none : Extends Q (pure Option.none) := by
  intro c o c' h
  obtain ⟨rfl, rfl⟩ := pure_eq_some.mp h
  exact .inl ⟨rfl, rfl⟩

theorem some {p : Parse α} (hp : Returns Q p) : Extends Q (do return Option.some (← p)) := by
  intro c o c' h
  obtain ⟨a, c₁, ha, h⟩ := bind_eq_some.mp h
  obtain ⟨rfl, rfl⟩ := pure_eq_some.mp h
  exact .inr ⟨a, rfl, hp c a c₁ ha⟩

theorem ofReturns {p : Parse (Option α)} (hp : Returns (fun o => ∃ a, o = Option.some a ∧ Q a) p) :
    Extends Q p :=
  fun c o c' h => .inr (hp c o c' h)

/-- Looking at what is next does not move a reader on. -/
theorem look {p : Parse β} {f : β → Parse (Option α)}
    (hp : ∀ c b c', p c = Option.some (b, c') → c' = c) (h : ∀ b, Extends Q (f b)) :
    Extends Q (p >>= f) := by
  intro c o c' heq
  obtain ⟨b, c₁, hfirst, hrest⟩ := bind_eq_some.mp heq
  obtain rfl := hp c b c₁ hfirst
  exact h b c₁ o c' hrest

theorem ite {condition : Prop} [Decidable condition] {p q : Parse (Option α)} (hp : Extends Q p)
    (hq : Extends Q q) : Extends Q (if condition then p else q) := by
  split
  · exact hp
  · exact hq

end Extends

/-- What is extended stays as it is, with the reader where it was, or a last step has made the
result. -/
theorem Parse.grow_cases {step : α → Parse (Option α)} {Q : α → Prop}
    (hstep : ∀ a, Extends Q (step a)) {a b : α} {c c' : Cursor}
    (h : grow step a c = some (b, c')) : (b = a ∧ c' = c) ∨ Q b := by
  have hwithin : ∀ bound a c, growWithin step bound a c = some (b, c') →
      (b = a ∧ c' = c) ∨ Q b := by
    intro bound
    induction bound with
    | nil =>
        intro a c h
        obtain ⟨o, c₁, hfirst, hrest⟩ := bind_eq_some.mp h
        rcases hstep a c o c₁ hfirst with ⟨rfl, rfl⟩ | ⟨x, rfl, -⟩
        · obtain ⟨rfl, rfl⟩ := pure_eq_some.mp hrest
          exact .inl ⟨rfl, rfl⟩
        · exact (refuse_eq_some.mp hrest).elim
    | cons t bound ih =>
        intro a c h
        obtain ⟨o, c₁, hfirst, hrest⟩ := bind_eq_some.mp h
        rcases hstep a c o c₁ hfirst with ⟨rfl, rfl⟩ | ⟨x, rfl, hx⟩
        · obtain ⟨rfl, rfl⟩ := pure_eq_some.mp hrest
          exact .inl ⟨rfl, rfl⟩
        · rcases ih x c₁ hrest with ⟨rfl, -⟩ | hb
          · exact .inr hx
          · exact .inr hb
  exact hwithin c.rest a c h

/-! ## Literals and operators in front -/

/-- Neither a literal nor an expression with an operator in front. -/
def Expr.IsBuilt : Expr → Prop
  | .lit _ | .unary _ _ _ => False
  | _ => True

/-- A type that is there is neither a literal nor an expression with an operator in front. -/
def OptBuilt (o : Option Expr) : Prop := ∀ x, o = some x → x.IsBuilt

theorem optBuilt_none : OptBuilt none := nofun

theorem optBuilt_some {x : Expr} (h : x.IsBuilt) : OptBuilt (some x) := by
  rintro _ ⟨⟩
  exact h

namespace Grammar

open Parse

variable (r : Nested)

theorem typeName_returns (first : Option Ident) : Returns Expr.IsBuilt (typeName first) := by
  unfold typeName
  split
  all_goals
    refine .bind fun _ => .bind fun _ => .ite (.bind fun _ => .pure trivial) (.pure trivial)

theorem typeInstance_returns (type : Expr) : Returns Expr.IsBuilt (typeInstance r type) :=
  .bind fun _ => .bind fun _ => .bind fun _ => .ite .refuse (.pure trivial)

theorem qualifiedName_returns (first : Option Ident) :
    Returns Expr.IsBuilt (qualifiedName r first) :=
  .bind_of (typeName_returns first) fun name hname =>
    .bind fun _ => .ite (typeInstance_returns r name) (.pure hname)

theorem arrayType_returns (lbrack : Pos) (length : Option Expr) :
    Returns Expr.IsBuilt (arrayType r lbrack length) := by
  unfold arrayType
  split
  all_goals exact .bind fun _ => .bind fun _ => .bind fun _ => .pure trivial

theorem structType_returns : Returns Expr.IsBuilt (structType r) :=
  .bind fun _ => .bind fun _ => .bind fun _ => .bind fun _ => .pure trivial

theorem interfaceType_returns : Returns Expr.IsBuilt (interfaceType r) :=
  .bind fun _ => .bind fun _ => .bind fun _ => .bind fun _ => .pure trivial

theorem mapType_returns : Returns Expr.IsBuilt (mapType r) :=
  .bind fun _ => .bind fun _ => .bind fun _ => .bind fun _ => .bind fun _ => .pure trivial

theorem chanType_returns : Returns Expr.IsBuilt (chanType r) :=
  .bind fun _ => .ite
    (.bind fun _ => .bind fun _ => .bind fun _ =>
      .ite (.bind fun _ => .pure trivial) (.bind fun _ => .pure trivial))
    (.bind fun _ => .bind fun _ => .bind fun _ => .pure trivial)

theorem type?_returns : Returns OptBuilt (type? r) := by
  refine .bind fun k => ?_
  split
  · exact .bind_of (qualifiedName_returns r none) fun _ h => .pure (optBuilt_some h)
  · exact .bind fun _ => .bind_of (arrayType_returns r _ none) fun _ h => .pure (optBuilt_some h)
  · exact .bind_of (structType_returns r) fun _ h => .pure (optBuilt_some h)
  · exact .bind fun _ => .bind fun _ => .pure (optBuilt_some trivial)
  · exact .bind fun _ => .pure (optBuilt_some trivial)
  · exact .bind_of (interfaceType_returns r) fun _ h => .pure (optBuilt_some h)
  · exact .bind_of (mapType_returns r) fun _ h => .pure (optBuilt_some h)
  · exact .bind_of (chanType_returns r) fun _ h => .pure (optBuilt_some h)
  · exact .bind_of (chanType_returns r) fun _ h => .pure (optBuilt_some h)
  · exact .bind fun _ => .bind fun _ => .bind fun _ => .pure (optBuilt_some trivial)
  · exact .pure optBuilt_none

theorem funcTypeOrLit_returns : Returns Expr.IsBuilt (funcTypeOrLit r) :=
  .bind fun _ => .bind fun _ => .ite (.bind fun _ => .pure trivial) (.pure trivial)

theorem typeAssertion_returns (x : Expr) : Returns Expr.IsBuilt (typeAssertion r x) := by
  refine .bind fun _ => .bind fun _ => ?_
  dsimp only
  exact .ite (.bind fun _ => .bind fun _ => .pure trivial)
    (.bind fun _ => .bind fun _ => .pure trivial)

/-- Whatever place the closing bracket has. -/
def AlwaysBuilt (build : Pos → Expr) : Prop := ∀ rbrack, (build rbrack).IsBuilt

theorem atLevel_returns {P : α → Prop} {f : Int → Int} {p : Parse α} (hp : Returns P p) :
    Returns P (atLevel f p) :=
  .bind fun _ => .bind fun _ => .bind_of hp fun _ ha => .bind fun _ => .pure ha

theorem indexOrSlice_returns (x : Expr) : Returns Expr.IsBuilt (indexOrSlice r x) := by
  refine .bind fun lbrack => .bind_of (Q := AlwaysBuilt) (atLevel_returns ?_) fun build hbuild =>
    .bind fun rbrack => .pure (hbuild rbrack)
  refine .bind fun _ => ?_
  dsimp only
  refine .ite (.bind fun _ => .bind fun _ => ?_) (.bind fun _ => .bind fun _ => ?_)
  all_goals
    split
    · refine .bind fun _ => .bind fun _ => .bind fun _ => ?_
      exact .ite (.bind fun _ => .ite .refuse (.pure fun _ => trivial)) (.pure fun _ => trivial)
    · exact .bind fun _ => .pure fun _ => trivial
    · exact .pure fun _ => trivial
    · exact .refuse

theorem call_returns (fn : Expr) : Returns Expr.IsBuilt (call r fn) :=
  .bind fun _ => .bind fun _ => .bind fun _ => .pure trivial

theorem literalValue_returns (type : Option Expr) :
    Returns Expr.IsBuilt (literalValue r type) :=
  .bind fun _ => .bind fun _ => .bind fun _ => .pure trivial

/-! ## Reading back -/

section

variable {r} {c c' : Cursor} {x : Expr}

/-- An operand is a single literal, or it is neither a literal nor has it an operator in front. -/
theorem operand_cases (hc : EndsFile c.rest) (h : operand r c = some (x, c')) :
    (∃ t, c.rest = t :: c'.rest ∧ x = .lit ⟨some t.start, some t.stop, t.kind, t.text⟩) ∨
      x.IsBuilt := by
  obtain ⟨k, _, hk, h⟩ := bind_eq_some.mp h
  obtain ⟨hkind, rfl⟩ := kind_eq_some.mp hk
  have hliteral : k ≠ .eof → (do return .lit (← literal) : Parse Expr) c = some (x, c') →
      ∃ t, c.rest = t :: c'.rest ∧ x = .lit ⟨some t.start, some t.stop, t.kind, t.text⟩ := by
    intro hne h
    obtain ⟨lit, _, hlit, h⟩ := bind_eq_some.mp h
    obtain ⟨rfl, rfl⟩ := pure_eq_some.mp h
    obtain ⟨t, _, ht, h⟩ := bind_eq_some.mp hlit
    obtain ⟨hhead, rfl⟩ := current_eq_some.mp ht
    obtain ⟨_, c₁, hnext, h⟩ := bind_eq_some.mp h
    obtain ⟨rfl, rfl⟩ := pure_eq_some.mp h
    obtain ⟨u, rest, hrest⟩ := List.exists_cons_of_ne_nil hc.ne_nil
    rw [hrest, List.headD_cons] at hhead hkind
    subst hhead
    exact ⟨u, by rw [hrest, next_rest hc hrest (hkind ▸ hne) hnext], rfl⟩
  split at h
  · exact .inr (Returns.bind (fun _ => .pure trivial) c x c' h)
  · exact .inl (hliteral nofun h)
  · exact .inl (hliteral nofun h)
  · exact .inl (hliteral nofun h)
  · exact .inl (hliteral nofun h)
  · exact .inl (hliteral nofun h)
  · refine .inr (Returns.bind (fun _ => ?_) c x c' h)
    exact .bind fun _ => .bind fun _ => .pure trivial
  · exact .inr (funcTypeOrLit_returns r c x c' h)
  · refine .inr (Returns.bind_of (type?_returns r) (fun o ho => ?_) c x c' h)
    split
    · exact .pure (ho _ rfl)
    · exact .refuse

theorem kind_stays (c : Cursor) (k : Tok) (c' : Cursor) (h : kind c = some (k, c')) : c' = c :=
  (kind_eq_some.mp h).2.symm

theorem current_stays (c : Cursor) (t : Token) (c' : Cursor) (h : current c = some (t, c')) :
    c' = c :=
  (current_eq_some.mp h).2.symm

/-- What follows an operand leaves it as it is, or makes something else of it. -/
theorem primaryFrom_cases (hr : ∀ type, Returns Expr.IsBuilt (r.literalValue type)) {y : Expr}
    (h : primaryFrom r x c = some (y, c')) : (y = x ∧ c' = c) ∨ y.IsBuilt := by
  refine grow_cases (Q := Expr.IsBuilt) (fun x => .look kind_stays fun k => ?_) h
  split
  · refine .ofReturns (.bind fun _ => .bind fun _ => ?_)
    split
    · exact .bind fun _ => .pure ⟨_, rfl, trivial⟩
    · exact .bind_of (typeAssertion_returns r x) fun _ hx => .pure ⟨_, rfl, hx⟩
    · exact .refuse
  · exact .some (indexOrSlice_returns r x)
  · exact .some (call_returns r x)
  · refine .look (fun c b c' h => ?_) fun _ => .ite (.ite ?_ (.some (hr (some x)))) .none
    · cases h
      rfl
    · exact .ofReturns .refuse
  · exact .none

/-- Operators after an operand make something else of it. -/
theorem binaryFrom_cases {bound : Nat} {y : Expr} (h : binaryFrom r bound x c = some (y, c')) :
    (y = x ∧ c' = c) ∨ y.IsBuilt := by
  refine grow_cases (Q := Expr.IsBuilt) (fun x => .look current_stays fun t => ?_) h
  exact .ite .none (.ofReturns (.bind fun _ => .bind fun _ => .pure ⟨_, rfl, trivial⟩))

theorem isBuilt_of_receiveChan {arrow : Pos} {type : Expr} (h : receiveChan arrow x = some type) :
    type.IsBuilt := by
  unfold receiveChan at h
  split at h
  · split at h
    · cases h
    · cases h
      trivial
    · obtain ⟨value, -, rfl⟩ := Option.map_eq_some_iff.mp h
      trivial
  · cases h

/-- An expression with an operator in front has been read as one, or a single literal has, or it is
neither. -/
theorem unaryExpr_cases (hr : ∀ type, Returns Expr.IsBuilt (r.literalValue type))
    (hc : EndsFile c.rest) (h : unaryExpr r c = some (x, c')) :
    (∃ t, c.rest = t :: c'.rest ∧ x = .lit ⟨some t.start, some t.stop, t.kind, t.text⟩) ∨
    (∃ t c₁ y, c.rest = t :: c₁.rest ∧ r.unary c₁ = some (y, c') ∧
      x = .unary (some t.start) t.kind y) ∨ x.IsBuilt := by
  obtain ⟨t, _, ht, h⟩ := bind_eq_some.mp h
  obtain ⟨hhead, rfl⟩ := current_eq_some.mp ht
  obtain ⟨u, rest, hrest⟩ := List.exists_cons_of_ne_nil hc.ne_nil
  rw [hrest, List.headD_cons] at hhead
  subst hhead
  have hnext : ∀ {c₁ : Cursor}, u.kind ≠ .eof → next c = some ((), c₁) → c.rest = u :: c₁.rest :=
    fun hne hnext => by rw [hrest, next_rest hc hrest hne hnext]
  -- the cases of the operators that make an expression with themselves in front
  have hoperator : u.kind ≠ .eof →
      (do next; return .unary (some u.start) u.kind (← r.unary) : Parse Expr) c = some (x, c') →
      ∃ t c₁ y, c.rest = t :: c₁.rest ∧ r.unary c₁ = some (y, c') ∧
        x = .unary (some t.start) t.kind y := by
    intro hne h
    obtain ⟨_, c₁, hmove, h⟩ := bind_eq_some.mp h
    obtain ⟨y, c₂, hy, h⟩ := bind_eq_some.mp h
    obtain ⟨rfl, rfl⟩ := pure_eq_some.mp h
    exact ⟨u, c₁, y, hnext hne hmove, hy, rfl⟩
  generalize hk : u.kind = k at h
  split at h
  iterate 6
    · rw [hk] at hoperator
      exact .inr (.inl (hoperator nofun h))
  · obtain ⟨_, c₁, hmove, h⟩ := bind_eq_some.mp h
    obtain ⟨y, c₂, hy, h⟩ := bind_eq_some.mp h
    cases y with
    | chan =>
        dsimp only at h
        generalize hreceive : receiveChan _ _ = o at h
        cases o with
        | some type =>
            obtain ⟨rfl, rfl⟩ := pure_eq_some.mp h
            exact .inr (.inr (isBuilt_of_receiveChan hreceive))
        | none => exact (refuse_eq_some.mp h).elim
    | _ =>
        obtain ⟨rfl, rfl⟩ := pure_eq_some.mp h
        rw [← hk]
        exact .inr (.inl ⟨u, c₁, _, hnext (by rw [hk]; nofun) hmove, hy, rfl⟩)
  · exact .inr (.inr (Returns.bind (fun _ => .bind fun _ => .pure trivial) c x c' h))
  · obtain ⟨y, c₁, hy, h⟩ := bind_eq_some.mp h
    rcases primaryFrom_cases hr h with ⟨rfl, rfl⟩ | hbuilt
    · exact (operand_cases hc hy).imp_right .inr
    · exact .inr (.inr hbuilt)

end

end Grammar

/-! ## The tokens of a lone expression -/

/-- A semicolon that stands for the end of a line. -/
def Token.EndsLine (t : Token) : Prop := t.kind = .semicolon ∧ t.implied = true

instance (t : Token) : Decidable t.EndsLine := inferInstanceAs (Decidable (_ ∧ _))

/-- The tokens in front of the end of the file, but for one semicolon that stands for the end of a line
there. -/
def contents (tokens : List Token) : List Token :=
  let before := tokens.takeWhile fun t => t.kind ≠ .eof
  if ∃ t ∈ before.getLast?, t.EndsLine then before.dropLast else before

variable {t : Token} {ts rest : List Token}

theorem EndsFile.tail (h : EndsFile (t :: rest)) (ht : t.kind ≠ .eof) : EndsFile rest := by
  obtain ⟨u, hu, hkind⟩ := h
  cases rest with
  | nil =>
      cases hu
      exact absurd hkind ht
  | cons v rest => exact ⟨u, by rwa [List.getLast?_cons_cons] at hu, hkind⟩

theorem prefix_contents (ts : List Token) : contents ts <+: ts := by
  rw [contents]
  split
  · exact (List.dropLast_prefix _).trans (List.takeWhile_prefix _)
  · exact List.takeWhile_prefix _

/-- A token that neither ends the file nor a line is one of the contents. -/
theorem contents_cons (heof : t.kind ≠ .eof) (hsemi : t.kind ≠ .semicolon) :
    contents (t :: rest) = t :: contents rest := by
  have hends : ¬ t.EndsLine := fun h => hsemi h.1
  rw [contents, contents, List.takeWhile_cons_of_pos (by simpa using heof)]
  cases rest.takeWhile fun t => t.kind ≠ .eof with
  | nil => simp [hends]
  | cons u before =>
      simp only [List.getLast?_cons_cons, List.dropLast_cons_cons]
      split <;> rfl

theorem contents_eq_cons {more : List Token} (h : contents ts = t :: more) (heof : t.kind ≠ .eof)
    (hsemi : t.kind ≠ .semicolon) : ∃ rest, ts = t :: rest ∧ contents rest = more := by
  obtain ⟨rest, hrest⟩ := prefix_contents ts
  rw [h, List.cons_append] at hrest
  refine ⟨more ++ rest, hrest.symm, ?_⟩
  rw [← hrest, contents_cons heof hsemi] at h
  exact (List.cons.inj h).2

theorem contents_of_eof (h : t.kind = .eof) : contents (t :: rest) = [] := by
  rw [contents, List.takeWhile_cons_of_neg (by simp [h])]
  rfl

/-- Where nothing is left but the end of the file, and perhaps that of a line. -/
theorem contents_eq_nil_iff (hts : EndsFile ts) : contents ts = [] ↔
    ∃ e more, e.kind = .eof ∧ (ts = e :: more ∨ ∃ t, t.EndsLine ∧ ts = t :: e :: more) := by
  constructor
  · intro hnil
    obtain ⟨t, rest, rfl⟩ := List.exists_cons_of_ne_nil hts.ne_nil
    by_cases heof : t.kind = .eof
    · exact ⟨t, rest, heof, .inl rfl⟩
    by_cases hsemi : t.kind = .semicolon
    · rw [contents, List.takeWhile_cons_of_pos (by simpa using heof)] at hnil
      split at hnil
      · rename_i hends
        cases rest with
        | nil =>
            obtain ⟨u, hu, hkind⟩ := hts
            cases hu
            exact absurd hkind heof
        | cons e more =>
            by_cases he : e.kind = .eof
            · rw [List.takeWhile_cons_of_neg (by simp [he])] at hends
              exact ⟨e, more, he, .inr ⟨t, by simpa using hends, rfl⟩⟩
            · rw [List.takeWhile_cons_of_pos (by simpa using he)] at hnil
              cases hnil
      · cases hnil
    · rw [contents_cons heof hsemi] at hnil
      cases hnil
  · rintro ⟨e, more, he, rfl | ⟨t, ht, rfl⟩⟩
    · exact contents_of_eof he
    · have hne : t.kind ≠ .eof := by
        rw [ht.1]
        nofun
      rw [contents, List.takeWhile_cons_of_pos (by simpa using hne),
        List.takeWhile_cons_of_neg (by simp [he])]
      simp [ht]

/-- One integer literal, with a sign in front or without: whether the sign is a minus, and the text of
the literal. -/
def signedInteger? : List Token → Option (Bool × Bytes)
  | [t] => if t.kind = .int then some (false, t.text) else none
  | [s, t] =>
    if t.kind ≠ .int then none
    else if s.kind = .sub then some (true, t.text)
    else if s.kind = .add then some (false, t.text)
    else none
  | _ => none

theorem signedInteger?_eq_some {ts : List Token} {r : Bool × Bytes}
    (h : signedInteger? ts = some r) :
    (∃ t, ts = [t] ∧ t.kind = .int ∧ r = (false, t.text)) ∨
      ∃ s t, ts = [s, t] ∧ (s.kind = .sub ∨ s.kind = .add) ∧ t.kind = .int ∧
        r = (s.kind == .sub, t.text) := by
  unfold signedInteger? at h
  split at h
  · rename_i t
    split_ifs at h with hkind
    exact .inl ⟨t, rfl, hkind, (Option.some.inj h).symm⟩
  · rename_i s t
    split_ifs at h with hkind hs hs
    · exact .inr ⟨s, t, rfl, .inl hs, not_not.mp hkind, by rw [hs]; exact (Option.some.inj h).symm⟩
    · exact .inr ⟨s, t, rfl, .inr hs, not_not.mp hkind, by rw [hs]; exact (Option.some.inj h).symm⟩
  · cases h

namespace Grammar

open Parse

variable {c c' : Cursor} {x : Expr} {n : Nat}

theorem expect_eof {p : Pos} (hc : EndsFile c.rest) (h : expect .eof c = some (p, c')) :
    ∃ e more, c.rest = e :: more ∧ e.kind = .eof := by
  obtain ⟨e, more, hrest⟩ := List.exists_cons_of_ne_nil hc.ne_nil
  obtain ⟨t, _, ht, h⟩ := bind_eq_some.mp h
  obtain ⟨hhead, rfl⟩ := current_eq_some.mp ht
  rw [hrest, List.headD_cons] at hhead
  subst hhead
  split at h
  · rename_i hkind
    exact ⟨e, more, hrest, eq_of_beq hkind⟩
  · exact (refuse_eq_some.mp h).elim

/-- A lone expression leaves nothing but the end of the file. -/
theorem lone_cases {r : Nested} (hr : ∀ ts, r.Forward ts) (hc : EndsFile c.rest)
    (h : lone r c = some (x, c')) : ∃ c₁, r.expr c = some (x, c₁) ∧ contents c₁.rest = [] := by
  obtain ⟨y, c₁, hx, h⟩ := bind_eq_some.mp h
  have hc₁ : EndsFile c₁.rest :=
    (Cursor.within_of_forward (fun ts => (hr ts).binary 1) hc hx).endsFile hc
  obtain ⟨t, _, ht, h⟩ := bind_eq_some.mp h
  obtain ⟨hhead, rfl⟩ := current_eq_some.mp ht
  obtain ⟨u, rest, hrest⟩ := List.exists_cons_of_ne_nil hc₁.ne_nil
  rw [hrest, List.headD_cons] at hhead
  subst hhead
  have hreturn : ∀ {c₂ : Cursor}, (do let _ ← expect .eof; return y : Parse Expr) c₂ = some (x, c') →
      y = x ∧ ∃ p c₃, expect .eof c₂ = some (p, c₃) := by
    intro c₂ h
    obtain ⟨p, c₃, hp, h⟩ := bind_eq_some.mp h
    exact ⟨(pure_eq_some.mp h).1, p, c₃, hp⟩
  dsimp only at h
  split at h
  · rename_i hends
    obtain ⟨_, c₂, hnext, h⟩ := bind_eq_some.mp h
    obtain ⟨rfl, p, c₃, hp⟩ := hreturn h
    simp only [Bool.and_eq_true, beq_iff_eq] at hends
    have hc₂ : EndsFile c₂.rest :=
      (Cursor.within_of_forward (fun _ => next_forward) hc₁ hnext).endsFile hc₁
    obtain ⟨e, more, he, hkind⟩ := expect_eof hc₂ hp
    have hne : u.kind ≠ .eof := by
      rw [hends.1]
      nofun
    refine ⟨c₁, hx, (contents_eq_nil_iff hc₁).mpr ⟨e, more, hkind, .inr ⟨u, hends, ?_⟩⟩⟩
    rw [hrest, ← he, next_rest hc₁ hrest hne hnext]
  · obtain ⟨rfl, p, c₃, hp⟩ := hreturn h
    obtain ⟨e, more, he, hkind⟩ := expect_eof hc₁ hp
    exact ⟨c₁, hx, (contents_eq_nil_iff hc₁).mpr ⟨e, more, hkind, .inl he⟩⟩

/-- The readers for literal values return composite literals. -/
theorem nested_literalValue_returns (n : Nat) (type : Option Expr) :
    Returns Expr.IsBuilt ((nested n).literalValue type) := by
  cases n with
  | zero => exact .refuse
  | succ n => exact literalValue_returns (nested n) type

theorem unary_cases (hc : EndsFile c.rest) (h : (nested n).unary c = some (x, c')) :
    (∃ t, c.rest = t :: c'.rest ∧ x = .lit ⟨some t.start, some t.stop, t.kind, t.text⟩) ∨
    (∃ t c₁ y, c.rest = t :: c₁.rest ∧ (nested (n - 1)).unary c₁ = some (y, c') ∧
      x = .unary (some t.start) t.kind y) ∨ x.IsBuilt := by
  cases n with
  | zero => exact (Returns.refuse (P := fun _ => False) c x c' h).elim
  | succ n => exact unaryExpr_cases (nested_literalValue_returns n) hc h

/-- An expression has been read by its operator in front, as a single literal, or it is neither. -/
theorem expr_cases (h : (nested n).expr c = some (x, c')) :
    (∃ m, (nested m).unary c = some (x, c')) ∨ x.IsBuilt := by
  cases n with
  | zero => exact (Returns.refuse (P := fun _ => False) c x c' h).elim
  | succ n =>
      obtain ⟨y, c₁, hy, h⟩ := bind_eq_some.mp h
      rcases binaryFrom_cases h with ⟨rfl, rfl⟩ | hbuilt
      · exact .inl ⟨n + 1, hy⟩
      · exact .inr hbuilt

end Grammar

/-- The integer literal with an optional sign that an expression is. -/
def Expr.signedInteger? : Expr → Option (Bool × Bytes)
  | .lit l => if l.kind = .int then some (false, l.text) else none
  | .unary _ .sub (.lit l) => if l.kind = .int then some (true, l.text) else none
  | .unary _ .add (.lit l) => if l.kind = .int then some (false, l.text) else none
  | _ => none

variable {r : Bool × Bytes}

theorem Expr.signedInteger?_of_isBuilt {x : Expr} (h : x.IsBuilt) : x.signedInteger? = none := by
  cases x <;> first | rfl | exact h.elim

/-- With an operator in front, only a literal after a sign is one. -/
theorem Expr.signedInteger?_unary {p : Pos} {k : Tok} {y : Expr}
    (h : (Expr.unary p k y).signedInteger? = some r) :
    ∃ l, y = .lit l ∧ l.kind = .int ∧
      (k = .sub ∧ r = (true, l.text) ∨ k = .add ∧ r = (false, l.text)) := by
  unfold Expr.signedInteger? at h
  split at h
  · rename_i heq
    cases heq
  · rename_i l heq
    obtain ⟨-, rfl, rfl⟩ := Expr.unary.inj heq
    split at h
    · rename_i hkind
      exact ⟨l, rfl, hkind, .inl ⟨rfl, (Option.some.inj h).symm⟩⟩
    · cases h
  · rename_i l heq
    obtain ⟨-, rfl, rfl⟩ := Expr.unary.inj heq
    split at h
    · rename_i hkind
      exact ⟨l, rfl, hkind, .inr ⟨rfl, (Option.some.inj h).symm⟩⟩
    · cases h
  · cases h

namespace Grammar

open Parse

variable {c c' : Cursor} {x : Expr} {n : Nat}

/-- What is read as a lone literal with an optional sign has just their tokens. -/
theorem signedInteger?_of_lone (hc : EndsFile c.rest) (h : lone (nested n) c = some (x, c'))
    (hx : x.signedInteger? = some r) : signedInteger? (contents c.rest) = some r := by
  obtain ⟨c₁, hexpr, hends⟩ := lone_cases (fun _ => nested_forward n) hc h
  rcases expr_cases hexpr with ⟨m, hunary⟩ | hbuilt
  · rcases unary_cases hc hunary with ⟨t, hrest, rfl⟩ | ⟨s, c₂, y, hrest, hy, rfl⟩ | hbuilt
    · simp only [Expr.signedInteger?, ite_eq_iff, reduceCtorEq, and_false, or_false] at hx
      rw [hrest, contents_cons (by rw [hx.1]; nofun) (by rw [hx.1]; nofun), hends, signedInteger?,
        if_pos hx.1, hx.2]
    · obtain ⟨l, rfl, hkind, hsign⟩ := Expr.signedInteger?_unary hx
      have heof : s.kind ≠ .eof := by rcases hsign with ⟨hs, -⟩ | ⟨hs, -⟩ <;> (rw [hs]; nofun)
      have hsemi : s.kind ≠ .semicolon := by rcases hsign with ⟨hs, -⟩ | ⟨hs, -⟩ <;> (rw [hs]; nofun)
      have hc₂ : EndsFile c₂.rest := EndsFile.tail (hrest ▸ hc) heof
      rcases unary_cases hc₂ hy with ⟨t, hrest₂, heq⟩ | ⟨_, _, _, _, _, heq⟩ | hbuilt
      · obtain rfl := Expr.lit.inj heq
        replace hkind : t.kind = .int := hkind
        rw [hrest, contents_cons heof hsemi, hrest₂, contents_cons (by rw [hkind]; nofun)
          (by rw [hkind]; nofun), hends, signedInteger?, if_neg (by simpa using hkind)]
        rcases hsign with ⟨hs, rfl⟩ | ⟨hs, rfl⟩ <;> simp [hs]
      · cases heq
      · exact hbuilt.elim
    · rw [Expr.signedInteger?_of_isBuilt hbuilt] at hx
      cases hx
  · rw [Expr.signedInteger?_of_isBuilt hbuilt] at hx
    cases hx

/-! ## Back from the tokens -/

/-- Nothing is left but the end of the file, and perhaps that of a line. -/
theorem precedes_end (hts : EndsFile ts) (h : contents ts = []) :
    ∃ u more, ts = u :: more ∧ (u.kind = .eof ∨ u.kind = .semicolon) := by
  obtain ⟨e, more, he, rfl | ⟨t, ht, rfl⟩⟩ := (contents_eq_nil_iff hts).mp h
  · exact ⟨e, more, rfl, .inl he⟩
  · exact ⟨t, _, rfl, .inr ht.1⟩

section

variable {r : Nested} {t u : Token} {more : List Token} {level : Int}

theorem operand_of_int (ht : t.kind = .int) :
    operand r ⟨t :: u :: more, level⟩ =
      some (.lit ⟨some t.start, some t.stop, .int, t.text⟩, ⟨u :: more, level⟩) := by
  cases t
  cases ht
  rfl

theorem primaryFrom_of_end (hu : u.kind = .eof ∨ u.kind = .semicolon) :
    primaryFrom r x ⟨u :: more, level⟩ = some (x, ⟨u :: more, level⟩) := by
  cases u
  rcases hu with hu | hu
  all_goals
    cases hu
    rfl

theorem binaryFrom_of_end (hu : u.kind = .eof ∨ u.kind = .semicolon) :
    binaryFrom r 1 x ⟨u :: more, level⟩ = some (x, ⟨u :: more, level⟩) := by
  cases u
  rcases hu with hu | hu
  all_goals
    cases hu
    rfl

theorem unaryExpr_of_int (ht : t.kind = .int) (hu : u.kind = .eof ∨ u.kind = .semicolon) :
    unaryExpr r ⟨t :: u :: more, level⟩ =
      some (.lit ⟨some t.start, some t.stop, .int, t.text⟩, ⟨u :: more, level⟩) := by
  have hprimary : unaryExpr r ⟨t :: u :: more, level⟩ =
      (operand r >>= primaryFrom r : Parse Expr) ⟨t :: u :: more, level⟩ := by
    cases t
    cases ht
    rfl
  rw [hprimary]
  exact bind_eq_some.mpr ⟨_, _, operand_of_int ht, primaryFrom_of_end hu⟩

theorem unaryExpr_of_sign (hs : s.kind = .sub ∨ s.kind = .add)
    (h : r.unary ⟨t :: more, level⟩ = some (x, c')) :
    unaryExpr r ⟨s :: t :: more, level⟩ = some (.unary (some s.start) s.kind x, c') := by
  cases s
  rcases hs with hs | hs
  all_goals
    cases hs
    exact bind_eq_some.mpr ⟨_, _, rfl, bind_eq_some.mpr ⟨(), _, rfl,
      bind_eq_some.mpr ⟨x, c', h, rfl⟩⟩⟩

theorem expr_of_unary {c₁ : Cursor} (h : unaryExpr (nested n) c = some (x, c₁))
    (hc₁ : EndsFile c₁.rest) (hends : contents c₁.rest = []) :
    (nested (n + 1)).expr c = some (x, c₁) := by
  obtain ⟨u, more, hrest, hu⟩ := precedes_end hc₁ hends
  refine bind_eq_some.mpr ⟨x, c₁, h, ?_⟩
  cases c₁
  cases hrest
  exact binaryFrom_of_end hu

theorem lone_of_expr {c₁ : Cursor} (hx : r.expr c = some (x, c₁)) (hc₁ : EndsFile c₁.rest)
    (hends : contents c₁.rest = []) : ∃ c', lone r c = some (x, c') := by
  obtain ⟨⟨kind, text, start, stop, implied, trail, lead⟩, more, he, hrest | ⟨t, ht, hrest⟩⟩ :=
    (contents_eq_nil_iff hc₁).mp hends
  all_goals
    cases he
    cases c₁
    cases hrest
  · exact ⟨_, bind_eq_some.mpr ⟨x, _, hx, rfl⟩⟩
  · obtain ⟨kind, text, start, stop, implied, trail, lead⟩ := t
    obtain ⟨hsemi, himplied⟩ := ht
    cases hsemi
    cases himplied
    exact ⟨_, bind_eq_some.mpr ⟨x, _, hx, rfl⟩⟩

end

/-- The tokens of an integer literal with an optional sign, and nothing else, are read as one. -/
theorem lone_of_signedInteger? {ts : List Token} (hts : EndsFile ts)
    (h : signedInteger? (contents ts) = some r) (level : Int) :
    ∃ x c', lone (nested (n + 2)) ⟨ts, level⟩ = some (x, c') ∧ x.signedInteger? = some r := by
  rcases signedInteger?_eq_some h with ⟨t, heq, hkind, rfl⟩ | ⟨s, t, heq, hs, hkind, rfl⟩
  · obtain ⟨rest, rfl, hends⟩ := contents_eq_cons heq (by rw [hkind]; nofun) (by rw [hkind]; nofun)
    have hrest : EndsFile rest := hts.tail (by rw [hkind]; nofun)
    obtain ⟨u, more, rfl, hu⟩ := precedes_end hrest hends
    obtain ⟨c', hlone⟩ := lone_of_expr
      (expr_of_unary (n := n + 1) (unaryExpr_of_int hkind hu) hrest hends) hrest hends
    exact ⟨_, c', hlone, rfl⟩
  · obtain ⟨rest, rfl, hmore⟩ := contents_eq_cons heq (by rcases hs with hs | hs <;> rw [hs] <;> nofun)
      (by rcases hs with hs | hs <;> rw [hs] <;> nofun)
    have hrest : EndsFile rest := hts.tail (by rcases hs with hs | hs <;> rw [hs] <;> nofun)
    obtain ⟨rest, rfl, hends⟩ := contents_eq_cons hmore (by rw [hkind]; nofun) (by rw [hkind]; nofun)
    have hrest' : EndsFile rest := hrest.tail (by rw [hkind]; nofun)
    obtain ⟨u, more, rfl, hu⟩ := precedes_end hrest' hends
    obtain ⟨c', hlone⟩ := lone_of_expr
      (expr_of_unary (n := n + 1) (unaryExpr_of_sign hs (unaryExpr_of_int hkind hu)) hrest' hends)
      hrest' hends
    refine ⟨_, c', hlone, ?_⟩
    rcases hs with hs | hs <;> rw [hs] <;> rfl

/-- A text is read as an integer literal with an optional sign exactly if its tokens are that. -/
theorem signedInteger?_contents {ts : List Token} (hts : EndsFile ts) (level : Int) :
    ((lone (nested (n + 2))).run ⟨ts, level⟩).bind (·.1.signedInteger?) =
      signedInteger? (contents ts) := by
  refine Option.ext fun r => ⟨fun h => ?_, fun h => ?_⟩
  · obtain ⟨⟨x, c'⟩, hlone, hx⟩ := Option.bind_eq_some_iff.mp h
    exact signedInteger?_of_lone hts hlone hx
  · obtain ⟨x, c', hlone, hx⟩ := lone_of_signedInteger? (n := n) hts h level
    exact Option.bind_eq_some_iff.mpr ⟨(x, c'), hlone, hx⟩

end Grammar

end RetryWeave.Syntax
