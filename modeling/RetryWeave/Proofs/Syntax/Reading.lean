import Mathlib
import RetryWeave.Syntax.Grammar.File

/-! # Readers move forward

Every reader of the grammar leaves some of the last tokens of those it finds, and never runs out of
tokens: the last one, the end of the file, stays. The two facts together are an invariant of the
cursor, and each reader keeps it. -/

namespace RetryWeave.Syntax

open Std.Do

set_option mvcgen.warning false

/-- The tokens that are left are the last ones of `ts`, and there is one at least. -/
structure Cursor.Within (ts : List Token) (c : Cursor) : Prop where
  suffix : c.rest <:+ ts
  ne_nil : c.rest ≠ []

theorem Cursor.Within.mono {ts us : List Token} {c : Cursor} (h : c.Within ts)
    (hsuffix : ts <:+ us) : c.Within us :=
  ⟨h.suffix.trans hsuffix, h.ne_nil⟩

/-- A reader that stays within the tokens `ts`. -/
abbrev Forward {α : Type} (ts : List Token) (p : Parse α) : Prop :=
  ⦃fun c => ⌜c.Within ts⌝⦄ p ⦃⇓? _ c => ⌜c.Within ts⌝⦄

variable {α β : Type} {ts : List Token}

theorem Forward.within {p : Parse α} (hp : Forward ts p) {c c' : Cursor} {a : α}
    (hc : c.Within ts) (h : p c = some (a, c')) : c'.Within ts := by
  have hpost := hp c hc
  simp only [WP.wp, PredTrans.apply_pushArg, StateT.run, h] at hpost
  exact hpost

theorem Forward.bind {p : Parse α} {f : α → Parse β} (hp : Forward ts p)
    (hf : ∀ a, Forward ts (f a)) : Forward ts (p >>= f) := by
  mvcgen [hp, hf]

namespace Parse

/-! ## Single tokens -/

@[spec] theorem current_forward : Forward ts current := by
  mvcgen [current]

@[spec] theorem kind_forward : Forward ts kind := by
  mvcgen [kind]

@[spec] theorem next_forward : Forward ts next := by
  mvcgen [next]
  rename_i c h moved
  dsimp only [moved]
  split
  · rename_i t u rest heq
    exact ⟨(List.suffix_cons t _).trans (heq ▸ h.suffix), List.cons_ne_nil _ _⟩
  · exact h

@[spec] theorem refuse_forward : Forward ts (refuse : Parse α) := fun _ _ => trivial

@[spec] theorem expect_forward (k : Tok) : Forward ts (expect k) := by
  mvcgen [expect]

@[spec] theorem accept_forward (k : Tok) : Forward ts (accept k) := by
  mvcgen [accept]

@[spec] theorem expectSemi_forward : Forward ts expectSemi := by
  mvcgen [expectSemi]

@[spec] theorem atComma_forward (closing : Tok) : Forward ts (atComma closing) := by
  mvcgen [atComma]

@[spec] theorem ident_forward : Forward ts ident := by
  mvcgen [ident]

@[spec] theorem literal_forward : Forward ts literal := by
  mvcgen [literal]

/-! ## Combinators -/

@[spec] theorem atLevel_forward {f : Int → Int} {p : Parse α} (hp : Forward ts p) :
    Forward ts (atLevel f p) := by
  mvcgen [atLevel, hp]
  · rename_i c h _ _
    exact ⟨h.suffix, h.ne_nil⟩
  · rename_i c h _
    exact ⟨h.suffix, h.ne_nil⟩

@[spec] theorem deeper_forward {p : Parse α} (hp : Forward ts p) : Forward ts (deeper p) := by
  mvcgen [deeper]

@[spec] theorem inHeader_forward {p : Parse α} (hp : Forward ts p) : Forward ts (inHeader p) := by
  mvcgen [inHeader]

theorem manyWithin_forward {step : Parse (Option α)} (hstep : Forward ts step)
    (bound : List Token) : Forward ts (manyWithin step bound) := by
  induction bound with
  | nil => mvcgen [manyWithin, hstep]
  | cons t bound ih => mvcgen [manyWithin, hstep, ih]

@[spec] theorem many_forward {step : Parse (Option α)} (hstep : Forward ts step) :
    Forward ts (many step) :=
  fun c hc => manyWithin_forward hstep c.rest c hc

theorem growWithin_forward {step : α → Parse (Option α)} (hstep : ∀ a, Forward ts (step a))
    (bound : List Token) (a : α) : Forward ts (growWithin step bound a) := by
  induction bound generalizing a with
  | nil => mvcgen [growWithin, hstep]
  | cons t bound ih => mvcgen [growWithin, hstep, ih]

@[spec] theorem grow_forward {step : α → Parse (Option α)} (hstep : ∀ a, Forward ts (step a))
    (a : α) : Forward ts (grow step a) :=
  fun c hc => growWithin_forward hstep c.rest a c hc

theorem elementsWithin_forward {element : Bool → Parse (Option (α × Bool))}
    (helement : ∀ more, Forward ts (element more)) (bound : List Token) (more : Bool) :
    Forward ts (elementsWithin element bound more) := by
  induction bound generalizing more with
  | nil => mvcgen [elementsWithin, helement]
  | cons t bound ih => mvcgen [elementsWithin, helement, ih]

@[spec] theorem elements_forward {element : Bool → Parse (Option (α × Bool))}
    (helement : ∀ more, Forward ts (element more)) : Forward ts (elements element) :=
  fun c hc => elementsWithin_forward helement c.rest true c hc

@[spec] theorem commaList_forward {element : Parse α} (helement : Forward ts element)
    (closing : Tok) : Forward ts (commaList closing element) := by
  unfold commaList
  refine elements_forward fun more => ?_
  mvcgen [helement]

@[spec] theorem separated_forward {element : Parse α} (helement : Forward ts element) :
    Forward ts (separated element) := by
  mvcgen [separated, helement]

@[spec] theorem identList_forward : Forward ts identList := by
  mvcgen [identList]

end Parse

/-! ## Readers without nested syntax -/

namespace Grammar

@[spec] theorem typeName_forward (first : Option Ident) : Forward ts (typeName first) := by
  mvcgen [typeName]

@[spec] theorem importSpec_forward (doc : Option CommentGroup) :
    Forward ts (importSpec doc) := by
  mvcgen [importSpec]

@[spec] theorem genDecl_forward (k : Tok) {spec : Option CommentGroup → Parse Spec}
    (hspec : ∀ doc, Forward ts (spec doc)) : Forward ts (genDecl k spec) := by
  mvcgen [genDecl, hspec]

@[spec] theorem importDecl_forward : Forward ts importDecl := genDecl_forward _ importSpec_forward

@[spec] theorem asExpr_forward (s : Stmt) : Forward ts (asExpr s) := by
  mvcgen [asExpr]

@[spec] theorem branchStmt_forward (k : Tok) : Forward ts (branchStmt k) := by
  mvcgen [branchStmt]

end Grammar

/-! ## Readers with nested syntax

The readers for nested syntax are taken to keep the invariant; then so do all that are built from
them, and by induction on the depth the nested ones themselves. -/

/-- All readers for nested syntax stay within the tokens `ts`. -/
structure Nested.Forward (ts : List Token) (r : Nested) : Prop where
  binary : ∀ bound, Syntax.Forward ts (r.binary bound)
  unary : Syntax.Forward ts r.unary
  type? : Syntax.Forward ts r.type?
  literalValue : ∀ type, Syntax.Forward ts (r.literalValue type)
  stmt : Syntax.Forward ts r.stmt
  block : Syntax.Forward ts r.block

attribute [spec] Nested.Forward.binary Nested.Forward.unary Nested.Forward.type?
  Nested.Forward.literalValue Nested.Forward.stmt Nested.Forward.block

section

variable {r : Nested} (hr : r.Forward ts)
include hr

@[spec] theorem Nested.expr_forward : Syntax.Forward ts r.expr := hr.binary 1

@[spec] theorem Nested.exprList_forward : Syntax.Forward ts r.exprList :=
  Parse.separated_forward (Nested.expr_forward hr)

@[spec] theorem Nested.type_forward : Syntax.Forward ts r.type := by
  mvcgen [Nested.type]

namespace Grammar

/-! ### Types -/

@[spec] theorem typeInstance_forward (type : Expr) : Forward ts (typeInstance r type) := by
  mvcgen [typeInstance]
  exact fun _ _ => hr

@[spec] theorem qualifiedName_forward (first : Option Ident) :
    Forward ts (qualifiedName r first) := by
  mvcgen [qualifiedName]
  exact fun _ _ => hr

@[spec] theorem arrayType_forward (lbrack : Pos) (length : Option Expr) :
    Forward ts (arrayType r lbrack length) := by
  mvcgen [arrayType]

@[spec] theorem arrayOrInstance_forward (name : Ident) :
    Forward ts (arrayOrInstance r name) := by
  mvcgen [arrayOrInstance]

@[spec] theorem term_forward : Forward ts (term r) := by
  mvcgen [term]
  exact fun _ _ => hr

@[spec] theorem union_forward (first : Option Expr) : Forward ts (union r first) := by
  mvcgen [union]

@[spec] theorem dotsType_forward : Forward ts (dotsType r) := by
  mvcgen [dotsType]

@[spec] theorem param_forward (typeParams : Bool) (first : Option Ident) :
    Forward ts (param r typeParams first) := by
  mvcgen [param]

@[spec] theorem paramList_forward (closing : Tok) (variadic : Bool) (name0 : Option Ident)
    (type0 : Option Expr) : Forward ts (paramList r closing variadic name0 type0) := by
  mvcgen [paramList] <;> exact fun _ _ => hr

@[spec] theorem parameters_forward (variadic : Bool) : Forward ts (parameters r variadic) := by
  mvcgen [parameters]

@[spec] theorem results_forward : Forward ts (results r) := by
  mvcgen [results]

@[spec] theorem typeParameters_forward : Forward ts (typeParameters r) := by
  mvcgen [typeParameters]

@[spec] theorem signature_forward (func : Pos) (typeParams : Option FieldList) :
    Forward ts (signature r func typeParams) := by
  mvcgen [signature]

@[spec] theorem funcType_forward : Forward ts (funcType r) := by
  mvcgen [funcType]
  exact fun _ _ => hr

@[spec] theorem fieldDecl_forward : Forward ts (fieldDecl r) := by
  mvcgen [fieldDecl]

@[spec] theorem structType_forward : Forward ts (structType r) := by
  mvcgen [structType]

@[spec] theorem namedElement_forward : Forward ts (namedElement r) := by
  mvcgen [namedElement] <;> exact fun _ _ => hr

@[spec] theorem interfaceElement_forward : Forward ts (interfaceElement r) := by
  mvcgen [interfaceElement]

@[spec] theorem interfaceType_forward : Forward ts (interfaceType r) := by
  mvcgen [interfaceType]
  exact fun _ _ => hr

@[spec] theorem mapType_forward : Forward ts (mapType r) := by
  mvcgen [mapType]

@[spec] theorem chanType_forward : Forward ts (chanType r) := by
  mvcgen [chanType]

@[spec] theorem type?_forward : Forward ts (type? r) := by
  mvcgen [type?]

/-! ### Expressions -/

@[spec] theorem funcTypeOrLit_forward : Forward ts (funcTypeOrLit r) := by
  mvcgen [funcTypeOrLit]
  exact fun _ _ => hr

@[spec] theorem operand_forward : Forward ts (operand r) := by
  mvcgen [operand] <;> exact fun _ _ => hr

@[spec] theorem typeAssertion_forward (x : Expr) : Forward ts (typeAssertion r x) := by
  mvcgen [typeAssertion]

@[spec] theorem indexOrSlice_forward (x : Expr) : Forward ts (indexOrSlice r x) := by
  mvcgen [indexOrSlice]

@[spec] theorem call_forward (fn : Expr) : Forward ts (call r fn) := by
  mvcgen [call]

@[spec] theorem primaryFrom_forward (x : Expr) : Forward ts (primaryFrom r x) := by
  mvcgen [primaryFrom]

@[spec] theorem unaryExpr_forward : Forward ts (unaryExpr r) := by
  mvcgen [unaryExpr]
  exact fun _ _ => hr

@[spec] theorem binaryFrom_forward (bound : Nat) (x : Expr) :
    Forward ts (binaryFrom r bound x) := by
  mvcgen [binaryFrom]

@[spec] theorem binaryExpr_forward (bound : Nat) : Forward ts (binaryExpr r bound) := by
  mvcgen [binaryExpr]
  exact fun _ _ => hr

@[spec] theorem value_forward : Forward ts (value r) := by
  mvcgen [value] <;> exact fun _ _ => hr

@[spec] theorem element_forward : Forward ts (element r) := by
  mvcgen [element]

@[spec] theorem literalValue_forward (type : Option Expr) :
    Forward ts (literalValue r type) := by
  mvcgen [literalValue]
  exact fun _ _ => hr

/-! ### Declarations -/

@[spec] theorem constSpec_forward (doc : Option CommentGroup) : Forward ts (constSpec r doc) := by
  mvcgen [constSpec]

@[spec] theorem varSpec_forward (doc : Option CommentGroup) : Forward ts (varSpec r doc) := by
  mvcgen [varSpec]

@[spec] theorem aliasOrType_forward : Forward ts (aliasOrType r) := by
  mvcgen [aliasOrType]

@[spec] theorem typeSpec_forward (doc : Option CommentGroup) : Forward ts (typeSpec r doc) := by
  mvcgen [typeSpec]
  exact fun _ _ => hr

@[spec] theorem localDecl_forward : Forward ts (localDecl r) := by
  have hconst := genDecl_forward .kwConst (constSpec_forward hr)
  have hvar := genDecl_forward .kwVar (varSpec_forward hr)
  have htype := genDecl_forward .kwType (typeSpec_forward hr)
  mvcgen [localDecl, -genDecl_forward, hconst, hvar, htype]

/-! ### Statements -/

@[spec] theorem simple_forward (mode : SimpleMode) : Forward ts (simple r mode) := by
  refine (Nested.exprList_forward hr).bind fun lhs => Parse.current_forward.bind fun t => ?_
  split
  · mvcgen
  · split
    · split <;> mvcgen
    · mvcgen

@[spec] theorem simpleStmt_forward (mode : SimpleMode) : Forward ts (simpleStmt r mode) := by
  mvcgen [simpleStmt]

@[spec] theorem stmtList_forward : Forward ts (stmtList r) := by
  mvcgen [stmtList]

@[spec] theorem block_forward : Forward ts (block r) := by
  mvcgen [block]

@[spec] theorem deferredCall_forward : Forward ts (deferredCall r) := by
  mvcgen [deferredCall]

@[spec] theorem returnStmt_forward : Forward ts (returnStmt r) := by
  mvcgen [returnStmt]

@[spec] theorem ifHeader_forward : Forward ts (ifHeader r) := by
  mvcgen [ifHeader]

@[spec] theorem ifStmt_forward : Forward ts (ifStmt r) := by
  mvcgen [ifStmt]

@[spec] theorem caseClause_forward : Forward ts (caseClause r) := by
  mvcgen [caseClause]

@[spec] theorem switchStmt_forward : Forward ts (switchStmt r) := by
  mvcgen [switchStmt] <;> exact fun _ _ => hr

@[spec] theorem commStmt_forward : Forward ts (commStmt r) := by
  mvcgen [commStmt]

@[spec] theorem commClause_forward : Forward ts (commClause r) := by
  mvcgen [commClause]

@[spec] theorem selectStmt_forward : Forward ts (selectStmt r) := by
  mvcgen [selectStmt]
  exact fun _ _ => hr

@[spec] theorem clauses_forward (init : Option Stmt) :
    Forward ts (loopHeader.clauses r init) := by
  mvcgen [loopHeader.clauses]

@[spec] theorem loopHeader_forward : Forward ts (loopHeader r) := by
  mvcgen [loopHeader]
  exact fun _ _ => hr

@[spec] theorem forStmt_forward : Forward ts (forStmt r) := by
  have hsemi : Forward ts Parse.expectSemi := Parse.expectSemi_forward
  mvcgen [forStmt, -Parse.expectSemi_forward, hsemi]
  exact fun _ _ => hr

@[spec] theorem stmt_forward : Forward ts (stmt r) := by
  mvcgen [stmt] <;> exact fun _ _ => hr

theorem funcDecl_forward : Forward ts (funcDecl r) := by
  mvcgen [funcDecl]

end Grammar

end

theorem Grammar.nested_forward (depth : Nat) : (nested depth).Forward ts := by
  induction depth with
  | zero =>
      exact ⟨fun _ => Parse.refuse_forward, Parse.refuse_forward, Parse.refuse_forward,
        fun _ => Parse.refuse_forward, Parse.refuse_forward, Parse.refuse_forward⟩
  | succ depth ih =>
      exact ⟨binaryExpr_forward ih, unaryExpr_forward ih, type?_forward ih, literalValue_forward ih,
        stmt_forward ih, block_forward ih⟩

end RetryWeave.Syntax
