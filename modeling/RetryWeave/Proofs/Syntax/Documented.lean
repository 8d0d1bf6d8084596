import RetryWeave.Expansion.Owner
import RetryWeave.Proofs.Syntax.Placement

/-! # Documented parts of a file

The comments that document a part of a file are comments that lead to a token, and a function or a
method starts with that token. The proof goes through the readers in the order in which they are
built from one another: whatever a reader returns, the documented nodes in it have this property. -/

namespace RetryWeave.Syntax

open Std.Do Parse Grammar

set_option mvcgen.warning false

variable {α β γ : Type} {ts : List Token}

/-! ## Nodes -/

/-- The comments that document a node lead to a token; if the node has a signature, it starts with
this token. Comments in front of the keyword of a function lead to functions only. -/
def Node.Led (ts : List Token) (n : Node) : Prop :=
  ∀ g owner, Owner.ofNode? n = some (g, owner) → ∃ t ∈ ts, t.lead = some g ∧
    t.kind ≠ .semicolon ∧ (t.kind = .kwFunc → ∃ d, owner = .func d) ∧
    ∀ s, Signature.ofOwner? owner = some s →
      (t.kind = .ident ∨ t.kind = .kwFunc) ∧ owner.start = some t.start

def AllLed (ts : List Token) (nodes : List Node) : Prop := ∀ n ∈ nodes, n.Led ts

/-- Comments, if there are any, lead to a token that neither ends a line nor starts a function. -/
def DocLed (ts : List Token) (doc : Option CommentGroup) : Prop :=
  ∀ g, doc = some g → ∃ t ∈ ts, t.lead = some g ∧ t.kind ≠ .semicolon ∧ t.kind ≠ .kwFunc

theorem docLed_lead {t : Token} (ht : t ∈ ts) (hsemi : t.kind ≠ .semicolon)
    (hfunc : t.kind ≠ .kwFunc) : DocLed ts t.lead :=
  fun _ hg => ⟨t, ht, hg, hsemi, hfunc⟩

@[simp] theorem docLed_none : DocLed ts none := nofun

@[simp] theorem Node.led_ident (id : Ident) : (Node.ident id).Led ts := nofun

@[simp] theorem Node.led_gen {d : GenDecl} : (Node.gen d).Led ts ↔ DocLed ts d.doc := by
  simp [Node.Led, DocLed, Owner.ofNode?, Signature.ofOwner?]

@[simp] theorem Node.led_importSpec {doc : Option CommentGroup} {name : Option Ident} {path : Lit}
    {comment : Option CommentGroup} {stop : Pos} :
    (Node.spec (.importSpec doc name path comment stop)).Led ts := nofun

@[simp] theorem Node.led_valueSpec {doc : Option CommentGroup} {names : List Ident}
    {type : Option Expr} {values : List Expr} {comment : Option CommentGroup} :
    (Node.spec (.valueSpec doc names type values comment)).Led ts ↔ DocLed ts doc := by
  simp [Node.Led, DocLed, Owner.ofNode?, Signature.ofOwner?]

@[simp] theorem Node.led_typeSpec {doc : Option CommentGroup} {name : Ident}
    {params : Option FieldList} {assign : Pos} {type : Expr} {comment : Option CommentGroup} :
    (Node.spec (.typeSpec doc name params assign type comment)).Led ts ↔ DocLed ts doc := by
  simp [Node.Led, DocLed, Owner.ofNode?, Signature.ofOwner?]

/-- A field of a struct or a signature has no signature of its own. -/
@[simp] theorem Node.led_field {f : Field} : (Node.field f false).Led ts ↔ DocLed ts f.doc := by
  simp [Node.Led, DocLed, Owner.ofNode?, Signature.ofOwner?]

@[simp] theorem allLed_nil : AllLed ts [] := nofun

@[simp] theorem allLed_append {l m : List Node} :
    AllLed ts (l ++ m) ↔ AllLed ts l ∧ AllLed ts m := by
  simp [AllLed, or_imp, forall_and]

@[simp] theorem allLed_cons {n : Node} {l : List Node} :
    AllLed ts (n :: l) ↔ n.Led ts ∧ AllLed ts l := by
  simp [AllLed]

@[simp] theorem allLed_identNodes (ids : List Ident) : AllLed ts (identNodes ids) := by
  simp [AllLed, identNodes]

/-! ## What readers return -/

/-- What a reader may return, and when the documented nodes in it are led to. -/
class Parsed (α : Type) where
  Led : List Token → α → Prop

open Parsed (Led)

instance : Parsed Token := ⟨fun ts t => t ∈ ts⟩
instance : Parsed Ident := ⟨fun _ _ => True⟩
instance : Parsed Nat := ⟨fun _ _ => True⟩
instance : Parsed Bool := ⟨fun _ _ => True⟩
instance : Parsed Expr := ⟨fun ts x => AllLed ts x.nodes⟩
instance : Parsed FuncType := ⟨fun ts type => AllLed ts type.nodes⟩
instance : Parsed Field := ⟨fun ts f => AllLed ts (f.nodes false)⟩
instance : Parsed FieldList := ⟨fun ts l => AllLed ts (l.nodes false)⟩
instance : Parsed Block := ⟨fun ts b => AllLed ts b.nodes⟩
instance : Parsed Stmt := ⟨fun ts s => AllLed ts s.nodes⟩
instance : Parsed Spec := ⟨fun ts s => AllLed ts s.nodes⟩
instance : Parsed GenDecl := ⟨fun ts d => AllLed ts d.nodes⟩
instance [Parsed α] : Parsed (Option α) := ⟨fun ts o => ∀ a ∈ o, Led ts a⟩
instance [Parsed α] : Parsed (List α) := ⟨fun ts l => ∀ a ∈ l, Led ts a⟩
instance [Parsed α] [Parsed β] : Parsed (α × β) := ⟨fun ts p => Led ts p.1 ∧ Led ts p.2⟩
instance [Parsed β] : Parsed (α → β) := ⟨fun ts f => ∀ a, Led ts (f a)⟩

instance : Parsed Param := ⟨fun ts p => Led ts p.type⟩

instance : Parsed Simple where
  Led
    | ts, .stmt s => Led ts s
    | ts, .range lhs _ _ _ x => Led ts lhs ∧ Led ts x

instance : Parsed LoopHeader where
  Led
    | ts, .clauses init cond post => Led ts init ∧ Led ts cond ∧ Led ts post
    | ts, .range lhs _ _ _ x => Led ts lhs ∧ Led ts x

/-- The parts of a function; what documents the function itself is known from its marks. -/
instance : Parsed FuncDecl := ⟨fun ts d => Led ts d.recv ∧ Led ts d.type ∧ Led ts d.body⟩

instance : Parsed Decl where
  Led
    | ts, .gen d => Led ts d
    | ts, .func d => Led ts d

@[simp] theorem led_token {t : Token} : Led ts t ↔ t ∈ ts := Iff.rfl

@[simp] theorem led_ident (id : Ident) : Led ts id := trivial

@[simp] theorem led_nat (n : Nat) : Led ts n := trivial

@[simp] theorem led_bool (b : Bool) : Led ts b := trivial

@[simp] theorem led_expr {x : Expr} : Led ts x ↔ AllLed ts x.nodes := Iff.rfl

@[simp] theorem led_funcType {type : FuncType} : Led ts type ↔ AllLed ts type.nodes := Iff.rfl

@[simp] theorem led_field {f : Field} : Led ts f ↔ AllLed ts (f.nodes false) := Iff.rfl

@[simp] theorem led_fieldList {l : FieldList} : Led ts l ↔ AllLed ts (l.nodes false) := Iff.rfl

@[simp] theorem led_block {b : Block} : Led ts b ↔ AllLed ts b.nodes := Iff.rfl

@[simp] theorem led_stmt {s : Stmt} : Led ts s ↔ AllLed ts s.nodes := Iff.rfl

@[simp] theorem led_spec {s : Spec} : Led ts s ↔ AllLed ts s.nodes := Iff.rfl

@[simp] theorem led_genDecl {d : GenDecl} : Led ts d ↔ AllLed ts d.nodes := Iff.rfl

@[simp] theorem led_funcDecl {d : FuncDecl} :
    Led ts d ↔ Led ts d.recv ∧ AllLed ts d.type.nodes ∧ Led ts d.body := Iff.rfl

@[simp] theorem led_declGen {d : GenDecl} : Led ts (Decl.gen d) ↔ AllLed ts d.nodes := Iff.rfl

@[simp] theorem led_declFunc {d : FuncDecl} : Led ts (Decl.func d) ↔ Led ts d := Iff.rfl

@[simp] theorem led_param {p : Param} : Led ts p ↔ Led ts p.type := Iff.rfl

@[simp] theorem led_simpleStmt {s : Stmt} : Led ts (Simple.stmt s) ↔ AllLed ts s.nodes := Iff.rfl

@[simp] theorem led_simpleRange {lhs : List Expr} {opPos : Pos} {op : Option Tok} {rangePos : Pos}
    {x : Expr} : Led ts (Simple.range lhs opPos op rangePos x) ↔ Led ts lhs ∧ AllLed ts x.nodes :=
  Iff.rfl

@[simp] theorem led_clauses {init cond post : Option Stmt} :
    Led ts (LoopHeader.clauses init cond post) ↔ Led ts init ∧ Led ts cond ∧ Led ts post := Iff.rfl

@[simp] theorem led_loopRange {lhs : List Expr} {opPos : Pos} {op : Option Tok} {rangePos : Pos}
    {x : Expr} :
    Led ts (LoopHeader.range lhs opPos op rangePos x) ↔ Led ts lhs ∧ AllLed ts x.nodes :=
  Iff.rfl

section

variable [Parsed α] [Parsed β]

@[simp] theorem led_none : Led ts (none : Option α) := nofun

@[simp] theorem led_some {a : α} : Led ts (some a) ↔ Led ts a := by simp [Led]

@[simp] theorem led_nil : Led ts ([] : List α) := nofun

@[simp] theorem led_cons {a : α} {l : List α} : Led ts (a :: l) ↔ Led ts a ∧ Led ts l := by
  simp [Led]

@[simp] theorem led_append {l m : List α} : Led ts (l ++ m) ↔ Led ts l ∧ Led ts m := by
  simp [Led, or_imp, forall_and]

@[simp] theorem led_prod {p : α × β} : Led ts p ↔ Led ts p.1 ∧ Led ts p.2 := Iff.rfl

@[simp] theorem led_fun {f : γ → α} : Led ts f ↔ ∀ c, Led ts (f c) := Iff.rfl

@[simp] theorem led_filterMap {l : List (Option α)} :
    Led ts (l.filterMap fun o => o) ↔ Led ts l := by
  simp only [Led, List.mem_filterMap, forall_exists_index, and_imp, Option.mem_def]
  exact ⟨fun h o ho a ha => h a o ho ha, fun h a o ho ha => h o ho a ha⟩

theorem led_map_fst {l : List (α × β)} (h : Led ts l) : Led ts (l.map (·.1)) := by
  intro a ha
  obtain ⟨p, hp, rfl⟩ := List.mem_map.mp ha
  exact (h p hp).1

end

attribute [local simp] Expr.nodes Stmt.nodes Block.nodes FuncType.nodes FieldList.nodes Field.nodes
  GenDecl.nodes Spec.nodes

@[simp] theorem allLed_exprNodes {xs : List Expr} : AllLed ts (exprNodes xs) ↔ Led ts xs := by
  induction xs with
  | nil => simp [exprNodes]
  | cons x xs ih => simp [exprNodes, ih]

@[simp] theorem allLed_optExprNodes {x : Option Expr} : AllLed ts (optExprNodes x) ↔ Led ts x := by
  cases x <;> simp [optExprNodes]

@[simp] theorem allLed_optExprsNodes {xs : Option (List Expr)} :
    AllLed ts (optExprsNodes xs) ↔ Led ts xs := by
  cases xs <;> simp [optExprsNodes]

@[simp] theorem allLed_stmtNodes {ss : List Stmt} : AllLed ts (stmtNodes ss) ↔ Led ts ss := by
  induction ss with
  | nil => simp [stmtNodes]
  | cons s ss ih => simp [stmtNodes, ih]

@[simp] theorem allLed_optStmtNodes {s : Option Stmt} : AllLed ts (optStmtNodes s) ↔ Led ts s := by
  cases s <;> simp [optStmtNodes]

@[simp] theorem allLed_fieldNodes {fs : List Field} :
    AllLed ts (fieldNodes fs false) ↔ Led ts fs := by
  induction fs with
  | nil => simp [fieldNodes]
  | cons f fs ih => simp [fieldNodes, ih]

theorem allLed_elementNodes {fs : List Field} (h : ∀ f ∈ fs, AllLed ts (f.nodes true)) :
    AllLed ts (fieldNodes fs true) := by
  induction fs with
  | nil => simp [fieldNodes]
  | cons f fs ih =>
      simp only [List.mem_cons, forall_eq_or_imp] at h
      rw [fieldNodes, allLed_append]
      exact ⟨h.1, ih h.2⟩

@[simp] theorem allLed_optFieldListNodes {l : Option FieldList} :
    AllLed ts (optFieldListNodes l) ↔ Led ts l := by
  cases l <;> simp [optFieldListNodes]

@[simp] theorem allLed_specNodes {ss : List Spec} : AllLed ts (specNodes ss) ↔ Led ts ss := by
  induction ss with
  | nil => simp [specNodes]
  | cons s ss ih => simp [specNodes, ih]

/-! ## Results that are rearranged -/

theorem Grammar.led_shareTypes {names : List Ident} {params : List Param} {fields : List Field}
    (hparams : Led ts params) (h : shareTypes names params = some fields) : Led ts fields := by
  fun_induction shareTypes names params generalizing fields with
  | case1 =>
      cases h
      exact led_nil
  | case3 names p rest name htype hname ih => exact ih (led_cons.mp hparams).2 h
  | case4 names p rest name type htype hname ih =>
      obtain ⟨hp, hrest⟩ := led_cons.mp hparams
      obtain ⟨more, hmore, rfl⟩ := Option.map_eq_some_iff.mp h
      have htyped : AllLed ts type.nodes := hp type htype
      exact led_cons.mpr ⟨by simp [htyped], ih hrest hmore⟩
  | case2 | case5 => cases h

theorem Grammar.led_unnamedFields {params : List Param} (hparams : Led ts params) :
    Led ts (unnamedFields params) := by
  intro f hf
  obtain ⟨p, hp, hf⟩ := List.mem_filterMap.mp hf
  have htype : Led ts p.type := hparams p hp
  split at hf
  · rename_i heq
    rw [heq, led_some, led_expr] at htype
    cases hf
    simp [htype]
  · cases hf
    simp
  · cases hf

theorem Grammar.led_receiveChan {arrow : Pos} {x y : Expr} (hx : Led ts x)
    (h : receiveChan arrow x = some y) : Led ts y := by
  fun_induction receiveChan arrow x generalizing y with
  | case2 =>
      cases h
      exact hx
  | case3 arrow pos old value ih =>
      obtain ⟨value', hvalue, rfl⟩ := Option.map_eq_some_iff.mp h
      have hled := ih hx hvalue
      exact hled
  | case1 | case4 => cases h

theorem Grammar.led_splitParam {force : Bool} {x : Expr} {name : Ident} {type : Option Expr}
    (hx : Led ts x) (h : splitParam force x = some (name, type)) : Led ts type := by
  fun_induction splitParam force x generalizing name type with
  | case1 =>
      cases h
      exact led_none
  | case2 | case7 =>
      cases h
      simpa using hx
  | case4 force x pos y name' left hsplit ih =>
      rw [led_expr, Expr.nodes, allLed_append] at hx
      have hleft := ih hx.1 hsplit
      rw [hsplit] at h
      cases h
      simpa using ⟨led_some.mp hleft, hx.2⟩
  | case5 force x pos y hnone ih =>
      split at h
      · rename_i hsplit
        exact (hnone _ _ hsplit).elim
      · cases h
  | case3 | case6 | case8 | case9 => cases h

/-! ## Single tokens and combinators -/

/-- A reader that stays within the tokens `ts`, with what is known of its result. -/
abbrev Yields (ts : List Token) (p : Parse α) (P : α → Prop) : Prop :=
  ⦃fun c => ⌜c.Within ts⌝⦄ p ⦃⇓? a c => ⌜c.Within ts ∧ P a⌝⦄

/-- A reader that stays within the tokens `ts`, and whose result is led to by them. -/
abbrev Leads [Parsed α] (ts : List Token) (p : Parse α) : Prop := Yields ts p (Led ts)

theorem yields_iff {p : Parse α} {P : α → Prop} : Yields ts p P ↔
    ∀ c c' a, c.Within ts → p c = some (a, c') → c'.Within ts ∧ P a := by
  constructor
  · intro hp c c' a hc h
    have hpost := hp c hc
    simp only [WP.wp, PredTrans.apply_pushArg, StateT.run, h] at hpost
    exact hpost
  · intro h c hc
    simp only [WP.wp, PredTrans.apply_pushArg, StateT.run]
    cases hp : p c with
    | none => trivial
    | some r => exact h c r.2 r.1 hc hp

theorem Cursor.Within.head_mem {c : Cursor} (h : c.Within ts) : c.rest.headD endToken ∈ ts := by
  obtain ⟨t, rest, hrest⟩ := List.exists_cons_of_ne_nil h.ne_nil
  apply h.suffix.subset
  simp [hrest]

-- The rules of this section are stronger than those for readers that only move forward, and have
-- to be preferred to them.

@[local spec high] theorem Parse.refuse_yields :
    ⦃fun _ => ⌜True⌝⦄ (refuse : Parse α) ⦃⇓? _ _ => ⌜False⌝⦄ := fun _ _ => trivial

@[local spec high] theorem Parse.current_leads : Leads ts current := by
  unfold current
  mvcgen
  rename_i h
  exact ⟨h, h.head_mem⟩

theorem Parse.manyWithin_yields {step : Parse (Option α)} {P : α → Prop}
    (hstep : Yields ts step fun o => ∀ a ∈ o, P a) (bound : List Token) :
    Yields ts (manyWithin step bound) fun as => ∀ a ∈ as, P a := by
  induction bound with
  | nil => mvcgen [manyWithin, hstep] <;> simp_all
  | cons t bound ih => mvcgen [manyWithin, hstep, ih] <;> simp_all

theorem Parse.many_yields {step : Parse (Option α)} {P : α → Prop}
    (hstep : Yields ts step fun o => ∀ a ∈ o, P a) :
    Yields ts (many step) fun as => ∀ a ∈ as, P a :=
  fun c hc => manyWithin_yields hstep c.rest c hc

@[local spec high] theorem Parse.many_leads [Parsed α] {step : Parse (Option α)}
    (hstep : Leads ts step) : Leads ts (many step) :=
  many_yields hstep

theorem Parse.growWithin_leads [Parsed α] {step : α → Parse (Option α)}
    (hstep : ∀ a, Led ts a → Leads ts (step a)) (bound : List Token) {a : α} (ha : Led ts a) :
    Leads ts (growWithin step bound a) := by
  induction bound generalizing a with
  | nil =>
      have hfirst := hstep a ha
      mvcgen [growWithin, hfirst] <;> simp_all
  | cons t bound ih =>
      have hfirst := hstep a ha
      mvcgen [growWithin, hfirst, ih] <;> simp_all

@[local spec high] theorem Parse.grow_leads [Parsed α] {step : α → Parse (Option α)}
    (hstep : ∀ a, Led ts a → Leads ts (step a)) {a : α} (ha : Led ts a) :
    Leads ts (grow step a) :=
  fun c hc => growWithin_leads hstep c.rest ha c hc

theorem Parse.elementsWithin_leads [Parsed α] {element : Bool → Parse (Option (α × Bool))}
    (helement : ∀ more, Leads ts (element more)) (bound : List Token) (more : Bool) :
    Leads ts (elementsWithin element bound more) := by
  induction bound generalizing more with
  | nil => mvcgen [elementsWithin, helement] <;> simp_all
  | cons t bound ih => mvcgen [elementsWithin, helement, ih] <;> simp_all

@[local spec high] theorem Parse.elements_leads [Parsed α]
    {element : Bool → Parse (Option (α × Bool))} (helement : ∀ more, Leads ts (element more)) :
    Leads ts (elements element) :=
  fun c hc => elementsWithin_leads helement c.rest true c hc

@[local spec high] theorem Parse.commaList_leads [Parsed α] {element : Parse α}
    (helement : Leads ts element) (closing : Tok) : Leads ts (commaList closing element) := by
  unfold commaList
  refine elements_leads fun more => ?_
  mvcgen [helement] <;> simp_all

@[local spec high] theorem Parse.separated_leads [Parsed α] {element : Parse α}
    (helement : Leads ts element) : Leads ts (separated element) := by
  unfold separated
  mvcgen [helement] <;> simp_all

theorem Parse.atLevel_leads [Parsed α] {f : Int → Int} {p : Parse α} (hp : Leads ts p) :
    Leads ts (atLevel f p) := by
  unfold atLevel
  mvcgen [hp]
  · rename_i h _
    exact ⟨h.suffix, h.ne_nil⟩
  · rename_i h _
    exact ⟨⟨h.1.suffix, h.1.ne_nil⟩, h.2⟩

@[local spec high] theorem Parse.deeper_leads [Parsed α] {p : Parse α} (hp : Leads ts p) :
    Leads ts (deeper p) :=
  atLevel_leads hp

@[local spec high] theorem Parse.inHeader_leads [Parsed α] {p : Parse α} (hp : Leads ts p) :
    Leads ts (inHeader p) :=
  atLevel_leads hp

/-! ## Where a reader starts -/

section

variable {r : Nested} {c c' : Cursor}

theorem Parse.expect_at {k : Tok} {p : Pos} (h : expect k c = some (p, c')) :
    (c.rest.headD endToken).kind = k := by
  obtain ⟨t, _, ht, h⟩ := bind_eq_some.mp h
  obtain ⟨rfl, rfl⟩ := current_eq_some.mp ht
  split at h
  · exact eq_of_beq ‹_›
  · exact (refuse_eq_some.mp h).elim

/-- An identifier is read from the current token. -/
theorem Parse.ident_at {id : Ident} (h : ident c = some (id, c')) :
    (c.rest.headD endToken).kind = .ident ∧ id.pos = some (c.rest.headD endToken).start := by
  obtain ⟨t, _, ht, h⟩ := bind_eq_some.mp h
  obtain ⟨rfl, rfl⟩ := current_eq_some.mp ht
  split at h
  · rename_i hkind
    obtain ⟨_, c₁, -, h⟩ := bind_eq_some.mp h
    obtain ⟨rfl, rfl⟩ := pure_eq_some.mp h
    exact ⟨eq_of_beq hkind, rfl⟩
  · exact (refuse_eq_some.mp h).elim

theorem Parse.identList_at {ids : List Ident} (h : identList c = some (ids, c')) :
    (c.rest.headD endToken).kind = .ident := by
  obtain ⟨id, c₁, hfirst, -⟩ := bind_eq_some.mp h
  exact (ident_at hfirst).1

/-- What follows a name or names starts with one. -/
theorem Parse.bind_at {p : Parse α} {f : α → Parse β} {k : Tok}
    (hp : ∀ a c', p c = some (a, c') → (c.rest.headD endToken).kind = k) {b : β}
    (h : (p >>= f) c = some (b, c')) : (c.rest.headD endToken).kind = k := by
  obtain ⟨a, c₁, hfirst, -⟩ := bind_eq_some.mp h
  exact hp a c₁ hfirst

theorem Grammar.genDecl_at {k : Tok} {spec : Option CommentGroup → Parse Spec} {d : GenDecl}
    (h : genDecl k spec c = some (d, c')) :
    (c.rest.headD endToken).kind = k ∧ d.doc = (c.rest.headD endToken).lead := by
  obtain ⟨t, _, ht, h⟩ := bind_eq_some.mp h
  obtain ⟨rfl, rfl⟩ := current_eq_some.mp ht
  obtain ⟨pos, c₁, hpos, h⟩ := bind_eq_some.mp h
  refine ⟨expect_at hpos, ?_⟩
  obtain ⟨t, c₂, -, h⟩ := bind_eq_some.mp h
  split at h
  · obtain ⟨_, c₃, -, h⟩ := bind_eq_some.mp h
    obtain ⟨specs, c₄, -, h⟩ := bind_eq_some.mp h
    obtain ⟨rparen, c₅, -, h⟩ := bind_eq_some.mp h
    obtain ⟨comment, c₆, -, h⟩ := bind_eq_some.mp h
    exact (pure_eq_some.mp h).1 ▸ rfl
  · obtain ⟨s, c₃, -, h⟩ := bind_eq_some.mp h
    exact (pure_eq_some.mp h).1 ▸ rfl

theorem Grammar.typeName_at {id : Ident} (h : typeName none c = some (.ident id, c')) :
    (c.rest.headD endToken).kind = .ident ∧ id.pos = some (c.rest.headD endToken).start := by
  obtain ⟨id', c₁, hfirst, h⟩ := bind_eq_some.mp h
  obtain ⟨dotted, c₂, -, h⟩ := bind_eq_some.mp h
  cases dotted with
  | true =>
      obtain ⟨sel, c₃, -, h⟩ := bind_eq_some.mp h
      cases (pure_eq_some.mp h).1
  | false =>
      cases (pure_eq_some.mp h).1
      exact ident_at hfirst

/-- A method starts with its name; other elements have no name. -/
theorem Grammar.namedElement_at {names : List Ident} {type : Expr}
    (h : namedElement r c = some ((names, type), c')) {id : Ident} (hid : id ∈ names) :
    (c.rest.headD endToken).kind = .ident ∧
      id.pos = some (c.rest.headD endToken).start := by
  obtain ⟨x, c₁, hx, h⟩ := bind_eq_some.mp h
  split at h
  · obtain ⟨k, c₂, -, h⟩ := bind_eq_some.mp h
    split at h
    · -- type arguments follow the name of an embedded type
      obtain ⟨lbrack, c₃, -, h⟩ := bind_eq_some.mp h
      obtain ⟨first, c₄, -, h⟩ := bind_eq_some.mp h
      obtain ⟨more, c₅, -, h⟩ := bind_eq_some.mp h
      split at h
      · obtain ⟨rest, c₆, -, h⟩ := bind_eq_some.mp h
        obtain ⟨rbrack, c₇, -, h⟩ := bind_eq_some.mp h
        cases (pure_eq_some.mp h).1
        cases hid
      · obtain ⟨rest, c₆, -, h⟩ := bind_eq_some.mp h
        obtain ⟨rbrack, c₇, -, h⟩ := bind_eq_some.mp h
        cases (pure_eq_some.mp h).1
        cases hid
    · obtain ⟨y, c₃, -, h⟩ := bind_eq_some.mp h
      cases (pure_eq_some.mp h).1
      obtain rfl := List.mem_singleton.mp hid
      exact typeName_at hx
    · cases (pure_eq_some.mp h).1
      cases hid
  · obtain ⟨k, c₂, -, h⟩ := bind_eq_some.mp h
    split at h
    · obtain ⟨y, c₃, -, h⟩ := bind_eq_some.mp h
      cases (pure_eq_some.mp h).1
      cases hid
    · cases (pure_eq_some.mp h).1
      cases hid

/-- A documented element is read from the current token on, and its comments lead to it. -/
theorem Grammar.interfaceElement_at {f : Field}
    (h : interfaceElement r c = some (some f, c')) {g : CommentGroup} (hg : f.doc = some g) :
    ∃ t, c.rest.headD endToken = t ∧ t.lead = some g ∧ t.kind = .ident ∧
      ∀ id ∈ f.names, id.pos = some t.start := by
  obtain ⟨t, _, ht, h⟩ := bind_eq_some.mp h
  obtain ⟨hhead, rfl⟩ := current_eq_some.mp ht
  refine ⟨t, hhead, ?_⟩
  generalize hkind : t.kind = k at h
  split at h
  · obtain ⟨⟨names, type⟩, c₁, helement, h⟩ := bind_eq_some.mp h
    dsimp only at h
    have hstart : ∀ id ∈ names, id.pos = some t.start := fun id hid =>
      hhead ▸ (namedElement_at helement hid).2
    split at h
    · obtain ⟨type', c₂, -, h⟩ := bind_eq_some.mp h
      obtain ⟨comment, c₃, -, h⟩ := bind_eq_some.mp h
      cases (pure_eq_some.mp h).1
      exact ⟨hg, rfl, hstart⟩
    · obtain ⟨type', c₂, -, h⟩ := bind_eq_some.mp h
      obtain ⟨comment, c₃, -, h⟩ := bind_eq_some.mp h
      cases (pure_eq_some.mp h).1
      exact ⟨hg, rfl, hstart⟩
  · obtain ⟨type', c₂, -, h⟩ := bind_eq_some.mp h
    obtain ⟨comment, c₃, -, h⟩ := bind_eq_some.mp h
    cases (pure_eq_some.mp h).1
    cases hg
  · obtain ⟨first, c₁, -, h⟩ := bind_eq_some.mp h
    cases first with
    | none => cases (pure_eq_some.mp h).1
    | some first =>
        obtain ⟨type', c₂, -, h⟩ := bind_eq_some.mp h
        obtain ⟨comment, c₃, -, h⟩ := bind_eq_some.mp h
        cases (pure_eq_some.mp h).1
        cases hg

end

/-! ## Readers without nested syntax -/

@[local spec high] theorem Grammar.typeName_leads (first : Option Ident) :
    Leads ts (typeName first) := by
  unfold typeName
  mvcgen <;> simp_all

@[local spec high] theorem Grammar.importSpec_leads (doc : Option CommentGroup) :
    Leads ts (importSpec doc) := by
  unfold importSpec
  mvcgen <;> simp_all

/-- A reader of specifications does well with the comments in front of it. -/
def SpecLeads (ts : List Token) (spec : Option CommentGroup → Parse Spec) : Prop :=
  Leads ts (spec none) ∧ ∀ c c' s, c.Within ts →
    spec (c.rest.headD endToken).lead c = some (s, c') → c'.Within ts ∧ Led ts s

/-- So does one that reads a name first. -/
theorem specLeads_of_ident {spec : Option CommentGroup → Parse Spec}
    (hspec : ∀ doc, DocLed ts doc → Leads ts (spec doc))
    (hname : ∀ doc c c' s, spec doc c = some (s, c') → (c.rest.headD endToken).kind = .ident) :
    SpecLeads ts spec := by
  refine ⟨hspec none docLed_none, fun c c' s hc h => ?_⟩
  have hkind := hname _ c c' s h
  have hdoc := docLed_lead hc.head_mem (by rw [hkind]; nofun) (by rw [hkind]; nofun)
  exact yields_iff.mp (hspec _ hdoc) c c' s hc h

theorem Grammar.genDecl_leads {k : Tok} (hsemi : k ≠ .semicolon) (hfunc : k ≠ .kwFunc)
    {spec : Option CommentGroup → Parse Spec} (hspec : SpecLeads ts spec) :
    Leads ts (genDecl k spec) := by
  have hone := hspec.1
  have hspecs : Leads ts (many do
      let s ← current
      if s.kind == .rparen then return none else return some (← spec s.lead)) := by
    refine many_leads (yields_iff.mpr fun c c' o hc h => ?_)
    obtain ⟨s, _, hs, h⟩ := bind_eq_some.mp h
    obtain ⟨rfl, rfl⟩ := current_eq_some.mp hs
    split at h
    · obtain ⟨rfl, rfl⟩ := pure_eq_some.mp h
      exact ⟨hc, led_none⟩
    · obtain ⟨x, c₁, hx, h⟩ := bind_eq_some.mp h
      obtain ⟨rfl, rfl⟩ := pure_eq_some.mp h
      exact (hspec.2 c _ x hc hx).imp_right led_some.mpr
  have hrest : Yields ts (genDecl k spec) fun d => Led ts d.specs := by
    unfold genDecl
    mvcgen [hone, -many_forward, -many_leads, hspecs] <;> simp_all
  refine yields_iff.mpr fun c c' d hc h => ?_
  obtain ⟨hc', hspecs⟩ := yields_iff.mp hrest c c' d hc h
  obtain ⟨hkind, hdoc⟩ := genDecl_at h
  refine ⟨hc', ?_⟩
  have hled : DocLed ts d.doc := hdoc ▸ docLed_lead hc.head_mem (hkind ▸ hsemi) (hkind ▸ hfunc)
  cases d
  simpa using ⟨hled, hspecs⟩

@[local spec high] theorem Grammar.asExpr_leads {s : Stmt} (hs : Led ts s) :
    Leads ts (asExpr s) := by
  unfold asExpr
  mvcgen <;> simp_all

@[local spec high] theorem Grammar.branchStmt_leads (k : Tok) : Leads ts (branchStmt k) := by
  unfold branchStmt
  mvcgen <;> simp_all

/-- The fields that written parameters stand for. -/
def Grammar.fieldsOf (typeParams variadic : Bool) (params : List Param) : Parse (List Field) := do
  let fields ← if params.all fun p => !(p.name.isSome && p.type.isSome) then
      if typeParams && !params.isEmpty then refuse else pure (unnamedFields params)
    else
      match shareTypes [] params with
      | some fields => pure fields
      | none => refuse
  if dotsAllowed variadic fields then return fields else refuse

theorem Grammar.fieldsOf_leads (typeParams variadic : Bool) {params : List Param}
    (hparams : Led ts params) : Leads ts (fieldsOf typeParams variadic params) := by
  have hunnamed := led_unnamedFields hparams
  have hshared : ∀ fields, shareTypes [] params = some fields → Led ts fields :=
    fun _ => led_shareTypes hparams
  unfold fieldsOf
  mvcgen <;> simp_all

/-! ## Readers with nested syntax -/

/-- All readers for nested syntax return what is led to by the tokens `ts`. -/
structure Nested.Leads (ts : List Token) (r : Nested) : Prop where
  binary : ∀ bound, Syntax.Leads ts (r.binary bound)
  unary : Syntax.Leads ts r.unary
  type? : Syntax.Leads ts r.type?
  literalValue : ∀ type, Led ts type → Syntax.Leads ts (r.literalValue type)
  stmt : Syntax.Leads ts r.stmt
  block : Syntax.Leads ts r.block

attribute [local spec high] Nested.Leads.binary Nested.Leads.unary Nested.Leads.type?
  Nested.Leads.literalValue Nested.Leads.stmt Nested.Leads.block

section

variable {r : Nested} (hr : r.Leads ts)
include hr

@[local spec high] theorem Nested.expr_leads : Syntax.Leads ts r.expr := hr.binary 1

@[local spec high] theorem Nested.exprList_leads : Syntax.Leads ts r.exprList :=
  separated_leads (Nested.expr_leads hr)

@[local spec high] theorem Nested.type_leads : Syntax.Leads ts r.type := by
  unfold Nested.type
  mvcgen <;> simp_all

/-! ### Types -/

@[local spec high] theorem Grammar.typeInstance_leads {type : Expr} (htype : Led ts type) :
    Leads ts (typeInstance r type) := by
  unfold typeInstance
  mvcgen <;> simp_all

@[local spec high] theorem Grammar.qualifiedName_leads (first : Option Ident) :
    Leads ts (qualifiedName r first) := by
  unfold qualifiedName
  mvcgen <;> simp_all

@[local spec high] theorem Grammar.arrayType_leads (lbrack : Pos) {length : Option Expr}
    (hlength : Led ts length) :
    Leads ts (arrayType r lbrack length) := by
  unfold arrayType
  mvcgen <;> simp_all

@[local spec high] theorem Grammar.arrayOrInstance_leads (name : Ident) :
    Leads ts (arrayOrInstance r name) := by
  unfold arrayOrInstance
  mvcgen <;> simp_all

@[local spec high] theorem Grammar.term_leads : Leads ts (term r) := by
  unfold term
  mvcgen <;> simp_all

@[local spec high] theorem Grammar.union_leads {first : Option Expr} (hfirst : Led ts first) :
    Leads ts (union r first) := by
  unfold union
  mvcgen <;> simp_all

@[local spec high] theorem Grammar.dotsType_leads : Leads ts (dotsType r) := by
  unfold dotsType
  mvcgen

@[local spec high] theorem Grammar.param_leads (typeParams : Bool) (first : Option Ident) :
    Leads ts (param r typeParams first) := by
  unfold param
  mvcgen <;> simp_all

/-- Reads the parameters of a list, and goes on with them as they are written. -/
def Grammar.withParams (r : Nested) (closing : Tok) (name0 : Option Ident) (type0 : Option Expr)
    (k : List Param → Parse (List Field)) : Parse (List Field) := do
  let typeParams := closing == .rbrack
  let head ← match name0 with
    | none => pure []
    | some name => do
      let p ← match type0 with
        | some t => do
          let t ← if typeParams then union r (some t) else pure t
          pure ⟨some name, some t⟩
        | none => param r typeParams (some name)
      pure [p]
  let more ← if head.isEmpty then pure true
    else do
      let comma ← atComma closing
      if comma then next
      pure comma
  let tail ← if more then commaList closing (param r typeParams none) else pure []
  k (head ++ tail)

omit hr in
theorem Grammar.paramList_eq (closing : Tok) (variadic : Bool) (name0 : Option Ident)
    (type0 : Option Expr) : paramList r closing variadic name0 type0 =
      withParams r closing name0 type0 (fieldsOf (closing == .rbrack) variadic) := rfl

theorem Grammar.withParams_leads (closing : Tok) (name0 : Option Ident) {type0 : Option Expr}
    (htype0 : Led ts type0) {k : List Param → Parse (List Field)}
    (hk : ∀ params, Led ts params → Leads ts (k params)) :
    Leads ts (withParams r closing name0 type0 k) := by
  unfold withParams
  mvcgen [hk] <;> simp_all

@[local spec high] theorem Grammar.paramList_leads (closing : Tok) (variadic : Bool)
    (name0 : Option Ident) {type0 : Option Expr} (htype0 : Led ts type0) :
    Leads ts (paramList r closing variadic name0 type0) := by
  rw [paramList_eq]
  exact withParams_leads hr closing name0 htype0 fun _ => fieldsOf_leads _ _

@[local spec high] theorem Grammar.parameters_leads (variadic : Bool) :
    Leads ts (parameters r variadic) := by
  unfold parameters
  mvcgen <;> simp_all

@[local spec high] theorem Grammar.results_leads : Leads ts (results r) := by
  unfold results
  mvcgen <;> simp_all

@[local spec high] theorem Grammar.typeParameters_leads : Leads ts (typeParameters r) := by
  unfold typeParameters
  mvcgen <;> simp_all

@[local spec high] theorem Grammar.signature_leads (func : Pos) {typeParams : Option FieldList}
    (htypeParams : Led ts typeParams) :
    Leads ts (signature r func typeParams) := by
  unfold signature
  mvcgen <;> simp_all

@[local spec high] theorem Grammar.funcType_leads : Leads ts (funcType r) := by
  unfold funcType
  mvcgen <;> simp_all

@[local spec high] theorem Grammar.fieldDecl_leads : Leads ts (fieldDecl r) := by
  refine yields_iff.mpr fun c c' f hc h => ?_
  -- the token that is looked at twice has a kind that starts a field, and is led to by its comments
  generalize hhead : c.rest.headD endToken = t
  have hmem : t ∈ ts := hhead ▸ hc.head_mem
  have hcurrent : ⦃fun c => ⌜c.Within ts ∧ c.rest.headD endToken = t⌝⦄ current
      ⦃⇓? u c => ⌜c.Within ts ∧ c.rest.headD endToken = t ∧ u = t⌝⦄ := by
    unfold current
    mvcgen
    simp_all
  have hfield : ⦃fun c => ⌜c.Within ts ∧ c.rest.headD endToken = t⌝⦄ fieldDecl r
      ⦃⇓? f c => ⌜c.Within ts ∧ Led ts f⌝⦄ := by
    unfold fieldDecl
    mvcgen [-current_forward, -current_leads, hcurrent] <;> simp_all [docLed_lead]
  have hpost := hfield c ⟨hc, hhead⟩
  simp only [WP.wp, PredTrans.apply_pushArg, StateT.run, h] at hpost
  exact hpost

@[local spec high] theorem Grammar.structType_leads : Leads ts (structType r) := by
  unfold structType
  mvcgen <;> simp_all

@[local spec high] theorem Grammar.namedElement_leads : Leads ts (namedElement r) := by
  unfold namedElement
  mvcgen <;> simp_all

theorem Grammar.interfaceElement_yields :
    Yields ts (interfaceElement r) fun o => ∀ f ∈ o, AllLed ts (f.nodes true) := by
  have htypes : Yields ts (interfaceElement r) fun o => ∀ f ∈ o, Led ts f.type := by
    unfold interfaceElement
    mvcgen <;> simp_all
  refine yields_iff.mpr fun c c' o hc h => ?_
  obtain ⟨hc', htype⟩ := yields_iff.mp htypes c c' o hc h
  refine ⟨hc', ?_⟩
  rintro ⟨doc, names, type, tag, comment⟩ rfl
  have hnode : (Node.field ⟨doc, names, type, tag, comment⟩ true).Led ts := by
    intro g owner howner
    obtain ⟨g', hdoc, heq⟩ := Option.map_eq_some_iff.mp howner
    cases heq
    obtain ⟨t, hhead, hlead, hkind, hnames⟩ := interfaceElement_at h hdoc
    refine ⟨t, hhead ▸ hc.head_mem, hlead, by simp [hkind], fun hfunc => ?_,
      fun s hs => ⟨.inl hkind, ?_⟩⟩
    · rw [hkind] at hfunc
      cases hfunc
    unfold Signature.ofOwner? at hs
    split at hs
    · rename_i heq
      cases heq
    · rename_i heq
      cases heq
      exact hnames _ List.mem_cons_self
    · cases hs
  simpa using ⟨hnode, htype _ rfl⟩

@[local spec high] theorem Grammar.interfaceType_leads : Leads ts (interfaceType r) := by
  have hmethods := many_yields (interfaceElement_yields hr)
  unfold interfaceType
  mvcgen [-many_forward, -many_leads, hmethods] <;> simp_all [allLed_elementNodes]

@[local spec high] theorem Grammar.mapType_leads : Leads ts (mapType r) := by
  unfold mapType
  mvcgen <;> simp_all

@[local spec high] theorem Grammar.chanType_leads : Leads ts (chanType r) := by
  unfold chanType
  mvcgen <;> simp_all

@[local spec high] theorem Grammar.type?_leads : Leads ts (type? r) := by
  unfold type?
  mvcgen <;> simp_all

/-! ### Expressions -/

@[local spec high] theorem Grammar.funcTypeOrLit_leads : Leads ts (funcTypeOrLit r) := by
  unfold funcTypeOrLit
  mvcgen <;> simp_all

@[local spec high] theorem Grammar.operand_leads : Leads ts (operand r) := by
  unfold operand
  mvcgen <;> simp_all

@[local spec high] theorem Grammar.typeAssertion_leads {x : Expr} (hx : Led ts x) :
    Leads ts (typeAssertion r x) := by
  unfold typeAssertion
  mvcgen <;> simp_all

@[local spec high] theorem Grammar.indexOrSlice_leads {x : Expr} (hx : Led ts x) :
    Leads ts (indexOrSlice r x) := by
  unfold indexOrSlice
  mvcgen
  all_goals
    subst_vars
    simp_all

@[local spec high] theorem Grammar.call_leads {fn : Expr} (hfn : Led ts fn) :
    Leads ts (call r fn) := by
  unfold call
  mvcgen <;> simp_all [led_map_fst]

@[local spec high] theorem Grammar.primaryFrom_leads {x : Expr} (hx : Led ts x) :
    Leads ts (primaryFrom r x) := by
  unfold primaryFrom
  mvcgen <;> simp_all

@[local spec high] theorem Grammar.unaryExpr_leads : Leads ts (unaryExpr r) := by
  unfold unaryExpr
  mvcgen <;> simp_all
  rename_i hchan h
  refine led_receiveChan ?_ hchan
  exact h.2

@[local spec high] theorem Grammar.binaryFrom_leads (bound : Nat) {x : Expr} (hx : Led ts x) :
    Leads ts (binaryFrom r bound x) := by
  unfold binaryFrom
  mvcgen <;> simp_all

@[local spec high] theorem Grammar.binaryExpr_leads (bound : Nat) :
    Leads ts (binaryExpr r bound) := by
  unfold binaryExpr
  mvcgen <;> simp_all

@[local spec high] theorem Grammar.value_leads : Leads ts (value r) := by
  unfold value
  mvcgen <;> simp_all

@[local spec high] theorem Grammar.element_leads : Leads ts (element r) := by
  unfold element
  mvcgen <;> simp_all

@[local spec high] theorem Grammar.literalValue_leads {type : Option Expr} (htype : Led ts type) :
    Leads ts (literalValue r type) := by
  unfold literalValue
  mvcgen <;> simp_all

/-! ### Declarations -/

@[local spec high] theorem Grammar.constSpec_leads {doc : Option CommentGroup}
    (hdoc : DocLed ts doc) :
    Leads ts (constSpec r doc) := by
  unfold constSpec
  mvcgen <;> simp_all

@[local spec high] theorem Grammar.varSpec_leads {doc : Option CommentGroup}
    (hdoc : DocLed ts doc) :
    Leads ts (varSpec r doc) := by
  unfold varSpec
  mvcgen <;> simp_all

@[local spec high] theorem Grammar.aliasOrType_leads : Leads ts (aliasOrType r) := by
  unfold aliasOrType
  mvcgen <;> simp_all

@[local spec high] theorem Grammar.typeSpec_leads {doc : Option CommentGroup}
    (hdoc : DocLed ts doc) :
    Leads ts (typeSpec r doc) := by
  unfold typeSpec
  mvcgen <;> simp_all
  · rename_i hsplit _ _
    exact led_splitParam (by simp) hsplit
  · rename_i hled hsplit _ _
    exact led_splitParam hled.2 hsplit

@[local spec high] theorem Grammar.localDecl_leads : Leads ts (localDecl r) := by
  have hconst := genDecl_leads (k := .kwConst) nofun nofun <|
    specLeads_of_ident (fun _ => constSpec_leads hr) fun _ _ _ _ => bind_at fun _ _ => identList_at
  have hvar := genDecl_leads (k := .kwVar) nofun nofun <|
    specLeads_of_ident (fun _ => varSpec_leads hr) fun _ _ _ _ => bind_at fun _ _ => identList_at
  have htype := genDecl_leads (k := .kwType) nofun nofun <|
    specLeads_of_ident (fun _ => typeSpec_leads hr) fun _ _ _ _ =>
      bind_at fun _ _ h => (ident_at h).1
  unfold localDecl
  mvcgen [-genDecl_forward, hconst, hvar, htype]
  simp_all

/-! ### Statements -/

@[local spec high] theorem Grammar.simple_leads (mode : SimpleMode) : Leads ts (simple r mode) := by
  have hcurrent : Leads ts current := current_leads
  unfold simple
  mvcgen [-current_forward, -current_leads, hcurrent] <;> simp_all

@[local spec high] theorem Grammar.simpleStmt_leads (mode : SimpleMode) :
    Leads ts (simpleStmt r mode) := by
  unfold simpleStmt
  mvcgen
  simp_all

@[local spec high] theorem Grammar.stmtList_leads : Leads ts (stmtList r) := by
  unfold stmtList
  mvcgen <;> simp_all

@[local spec high] theorem Grammar.block_leads : Leads ts (block r) := by
  unfold block
  mvcgen <;> simp_all

@[local spec high] theorem Grammar.deferredCall_leads : Leads ts (deferredCall r) := by
  unfold deferredCall
  mvcgen <;> simp_all

@[local spec high] theorem Grammar.returnStmt_leads : Leads ts (returnStmt r) := by
  unfold returnStmt
  mvcgen <;> simp_all

@[local spec high] theorem Grammar.ifHeader_leads : Leads ts (ifHeader r) := by
  unfold ifHeader
  mvcgen <;> simp_all

@[local spec high] theorem Grammar.ifStmt_leads : Leads ts (ifStmt r) := by
  unfold ifStmt
  mvcgen <;> simp_all

@[local spec high] theorem Grammar.caseClause_leads : Leads ts (caseClause r) := by
  unfold caseClause
  mvcgen <;> simp_all

@[local spec high] theorem Grammar.switchStmt_leads : Leads ts (switchStmt r) := by
  unfold switchStmt
  mvcgen <;> simp_all +zetaDelta

@[local spec high] theorem Grammar.commStmt_leads : Leads ts (commStmt r) := by
  have hcurrent : Leads ts current := current_leads
  unfold commStmt
  mvcgen [-current_forward, -current_leads, hcurrent] <;> simp_all

@[local spec high] theorem Grammar.commClause_leads : Leads ts (commClause r) := by
  unfold commClause
  mvcgen <;> simp_all

@[local spec high] theorem Grammar.selectStmt_leads : Leads ts (selectStmt r) := by
  unfold selectStmt
  mvcgen <;> simp_all

@[local spec high] theorem Grammar.clauses_leads {init : Option Stmt} (hinit : Led ts init) :
    Leads ts (loopHeader.clauses r init) := by
  unfold loopHeader.clauses
  mvcgen <;> simp_all

@[local spec high] theorem Grammar.loopHeader_leads : Leads ts (loopHeader r) := by
  unfold loopHeader
  mvcgen <;> simp_all

@[local spec high] theorem Grammar.forStmt_leads : Leads ts (forStmt r) := by
  have hsemi : Forward ts expectSemi := expectSemi_forward
  unfold forStmt
  mvcgen [-expectSemi_forward, hsemi] <;> simp_all

@[local spec high] theorem Grammar.stmt_leads : Leads ts (stmt r) := by
  unfold stmt
  mvcgen <;> simp_all

/-! ### Whole files -/

@[local spec high] theorem Grammar.funcDecl_leads : Leads ts (funcDecl r) := by
  unfold funcDecl
  mvcgen <;> simp_all

@[local spec high] theorem Grammar.decl_leads : Leads ts (decl r) := by
  unfold decl
  mvcgen <;> simp_all

theorem Grammar.file_yields (comments : List CommentGroup) (table : LineTable) :
    Yields ts (file r comments table) fun f => Led ts f.decls := by
  have himport : Leads ts importDecl := genDecl_leads (k := .kwImport) nofun nofun
    ⟨importSpec_leads none, fun c c' s hc => yields_iff.mp (importSpec_leads _) c c' s hc⟩
  unfold file
  mvcgen [-importDecl_forward, himport] <;> simp_all

end

theorem Grammar.nested_leads (depth : Nat) : (nested depth).Leads ts := by
  induction depth with
  | zero =>
      have hrefuse : ∀ {α : Type} [Parsed α], Leads ts (refuse : Parse α) := fun _ _ => trivial
      exact ⟨fun _ => hrefuse, hrefuse, hrefuse, fun _ _ => hrefuse, hrefuse, hrefuse⟩
  | succ depth ih =>
      exact ⟨binaryExpr_leads ih, unaryExpr_leads ih, type?_leads ih,
        fun _ => literalValue_leads ih, stmt_leads ih, block_leads ih⟩

theorem led_decls {name src : Bytes} {f : File} {l : Lexed} (hl : lex? name src = some l)
    (h : parseFile? name src = some f) : Led l.tokens f.decls := by
  obtain ⟨l', hl', h⟩ := Option.bind_eq_some_iff.mp h
  obtain rfl : l = l' := Option.some.inj (hl.symm.trans hl')
  obtain ⟨⟨f', c'⟩, hread, h⟩ := Option.bind_eq_some_iff.mp h
  obtain rfl := Option.some.inj h
  have hwithin : Cursor.Within l.tokens ⟨l.tokens, 0⟩ :=
    ⟨List.suffix_rfl, EndsFile.ne_nil (placed_of_lex? hl).ends⟩
  exact (yields_iff.mp (file_yields (nested_leads _) l.comments l.table) _ _ _ hwithin hread).2

/-- What documents a function leads to its keyword. -/
theorem FilePlaced.led_func {src : Bytes} {f : File} (hf : FilePlaced src ts f) {d : FuncDecl}
    (hd : d ∈ f.funcs) : (Node.func d).Led ts := by
  intro g owner howner
  obtain ⟨g', hdoc, heq⟩ := Option.map_eq_some_iff.mp howner
  cases heq
  obtain ⟨m, hm, hsublist⟩ := hf.marked d hd
  exact ⟨m.func, hsublist.subset List.mem_cons_self, hm.doc.symm.trans hdoc,
    by rw [hm.kind]; nofun, fun _ => ⟨d, rfl⟩, fun _ _ => ⟨.inr hm.kind, hm.start⟩⟩

/-- What documents a part of a file leads to one of its tokens. -/
theorem exists_documented {name src : Bytes} {f : File} (h : parseFile? name src = some f) :
    ∃ l, lex? name src = some l ∧ FilePlaced src l.tokens f ∧ AllLed l.tokens f.nodes := by
  obtain ⟨l, hl, hplaced⟩ := exists_filePlaced h
  have hdecls := led_decls hl h
  refine ⟨l, hl, hplaced, ?_⟩
  rw [File.nodes, allLed_cons]
  refine ⟨Node.led_ident _, fun n hn => ?_⟩
  obtain ⟨decl, hdecl, hn⟩ := List.mem_flatMap.mp hn
  have hled := hdecls decl hdecl
  cases decl with
  | gen d => exact hled n hn
  | func d =>
      have hfunc := hplaced.led_func (List.mem_filterMap.mpr ⟨_, hdecl, rfl⟩)
      obtain ⟨hrecv, htype, hbody⟩ := hled
      have hall : AllLed l.tokens d.nodes := by
        cases hb : d.body with
        | none => simpa [FuncDecl.nodes, hb] using ⟨hfunc, hrecv, htype⟩
        | some b => simpa [FuncDecl.nodes, hb] using ⟨hfunc, hrecv, htype, hbody b hb⟩
      exact hall n hn

end RetryWeave.Syntax
