import RetryWeave.Syntax.Node

/-! # Identifiers of a syntax tree

What it means for an identifier to occur in a tree, part by part, and that the list of the
identifiers of a file leaves none out. -/

namespace RetryWeave.Syntax

/-! ## Parts -/

/-- A part of a syntax tree. -/
inductive Part where
  | ident (id : Ident)
  | expr (x : Expr)
  | funcType (type : FuncType)
  | fields (l : FieldList)
  | field (f : Field)
  | block (b : Block)
  | stmt (s : Stmt)
  | gen (d : GenDecl)
  | spec (s : Spec)
  | func (d : FuncDecl)
  | file (f : File)

def Expr.parts : Expr → List Part
  | .ident id => [.ident id]
  | .lit _ => []
  | .ellipsis _ elem => elem.toList.map .expr
  | .func type body => [.funcType type, .block body]
  | .composite type _ elems _ => type.toList.map .expr ++ elems.map .expr
  | .paren _ x _ => [.expr x]
  | .selector x sel => [.expr x, .ident sel]
  | .index x _ indices _ => .expr x :: indices.map .expr
  | .slice x _ low high max _ _ =>
    .expr x :: (low.toList ++ high.toList ++ max.toList).map .expr
  | .typeAssert x _ type _ => .expr x :: type.toList.map .expr
  | .call fn _ args _ _ => .expr fn :: args.map .expr
  | .star _ x => [.expr x]
  | .unary _ _ x => [.expr x]
  | .binary x _ _ y => [.expr x, .expr y]
  | .keyValue key _ value => [.expr key, .expr value]
  | .array _ len elem => len.toList.map .expr ++ [.expr elem]
  | .struct _ fields => [.fields fields]
  | .funcType type => [.funcType type]
  | .interface _ methods => [.fields methods]
  | .map _ key value => [.expr key, .expr value]
  | .chan _ _ _ value => [.expr value]

def Stmt.parts : Stmt → List Part
  | .decl d => [.gen d]
  | .empty _ _ => []
  | .labeled label _ stmt => [.ident label, .stmt stmt]
  | .expr x => [.expr x]
  | .send chan _ value => [.expr chan, .expr value]
  | .incDec x _ _ => [.expr x]
  | .assign lhs _ _ rhs => (lhs ++ rhs).map .expr
  | .go _ call => [.expr call]
  | .defer _ call => [.expr call]
  | .ret _ results => results.map .expr
  | .branch _ _ label => label.toList.map .ident
  | .block b => [.block b]
  | .ifElse _ init cond body orElse =>
    init.toList.map .stmt ++ .expr cond :: .block body :: orElse.toList.map .stmt
  | .caseClause _ list _ body => (list.getD []).map .expr ++ body.map .stmt
  | .switch _ init tag body => init.toList.map .stmt ++ tag.toList.map .expr ++ [.block body]
  | .typeSwitch _ init guard body => init.toList.map .stmt ++ [.stmt guard, .block body]
  | .commClause _ comm _ body => (comm.toList ++ body).map .stmt
  | .select _ body => [.block body]
  | .forLoop _ init cond post body =>
    init.toList.map .stmt ++ cond.toList.map .expr ++ post.toList.map .stmt ++ [.block body]
  | .forRange _ key value _ _ _ x body =>
    (key.toList ++ value.toList).map .expr ++ [.expr x, .block body]

def Spec.parts : Spec → List Part
  | .importSpec _ name _ _ _ => name.toList.map .ident
  | .valueSpec _ names type values _ =>
    names.map .ident ++ (type.toList ++ values).map .expr
  | .typeSpec _ name typeParams _ type _ =>
    .ident name :: (typeParams.toList.map .fields ++ [.expr type])

def Decl.part : Decl → Part
  | .gen d => .gen d
  | .func d => .func d

/-- The parts directly under a part. -/
def Part.children : Part → List Part
  | .ident _ => []
  | .expr x => x.parts
  | .funcType type =>
    type.typeParams.toList.map .fields ++ .fields type.params :: type.results.toList.map .fields
  | .fields l => l.list.map .field
  | .field f => f.names.map .ident ++ [.expr f.type]
  | .block b => b.stmts.map .stmt
  | .stmt s => s.parts
  | .gen d => d.specs.map .spec
  | .spec s => s.parts
  | .func d =>
    d.recv.toList.map .fields ++ .ident d.name :: .funcType d.type :: d.body.toList.map .block
  | .file f => .ident f.name :: f.decls.map Decl.part

/-- An identifier of this name is the part, or occurs in a part under it. -/
inductive Occurs (name : Bytes) : Part → Prop where
  | here {id : Ident} : id.name = name → Occurs name (.ident id)
  | under {p child : Part} : child ∈ p.children → Occurs name child → Occurs name p

/-! ## The list of identifiers -/

def nodeNames (nodes : List Node) : List Bytes :=
  nodes.filterMap fun
    | .ident id => some id.name
    | _ => none

@[simp] theorem nodeNames_nil : nodeNames [] = [] := rfl

@[simp] theorem nodeNames_append (l m : List Node) :
    nodeNames (l ++ m) = nodeNames l ++ nodeNames m :=
  List.filterMap_append

@[simp] theorem nodeNames_ident (id : Ident) (nodes : List Node) :
    nodeNames (.ident id :: nodes) = id.name :: nodeNames nodes := rfl

@[simp] theorem nodeNames_func (d : FuncDecl) (nodes : List Node) :
    nodeNames (.func d :: nodes) = nodeNames nodes := rfl

@[simp] theorem nodeNames_gen (d : GenDecl) (nodes : List Node) :
    nodeNames (.gen d :: nodes) = nodeNames nodes := rfl

@[simp] theorem nodeNames_spec (s : Spec) (nodes : List Node) :
    nodeNames (.spec s :: nodes) = nodeNames nodes := rfl

@[simp] theorem nodeNames_field (f : Field) (element : Bool) (nodes : List Node) :
    nodeNames (.field f element :: nodes) = nodeNames nodes := rfl

/-- The names of the identifiers in a part. -/
def Part.names : Part → List Bytes
  | .ident id => [id.name]
  | .expr x => nodeNames x.nodes
  | .funcType type => nodeNames type.nodes
  | .fields l => nodeNames (l.nodes false)
  | .field f => nodeNames (f.nodes false)
  | .block b => nodeNames b.nodes
  | .stmt s => nodeNames s.nodes
  | .gen d => nodeNames d.nodes
  | .spec s => nodeNames s.nodes
  | .func d => nodeNames d.nodes
  | .file f => nodeNames f.nodes

@[simp] theorem nodeNames_identNodes (ids : List Ident) :
    nodeNames (identNodes ids) = (ids.map Part.ident).flatMap Part.names := by
  induction ids with
  | nil => rfl
  | cons id ids ih => exact congrArg _ ih

@[simp] theorem nodeNames_exprNodes (xs : List Expr) :
    nodeNames (exprNodes xs) = (xs.map Part.expr).flatMap Part.names := by
  induction xs with
  | nil => rfl
  | cons x xs ih => simp only [exprNodes, nodeNames_append, ih]; rfl

@[simp] theorem nodeNames_optExprNodes (x : Option Expr) :
    nodeNames (optExprNodes x) = (x.toList.map Part.expr).flatMap Part.names := by
  cases x <;> simp [optExprNodes, Part.names]

@[simp] theorem nodeNames_optExprsNodes (xs : Option (List Expr)) :
    nodeNames (optExprsNodes xs) = ((xs.getD []).map Part.expr).flatMap Part.names := by
  cases xs <;> simp [optExprsNodes]

@[simp] theorem nodeNames_stmtNodes (ss : List Stmt) :
    nodeNames (stmtNodes ss) = (ss.map Part.stmt).flatMap Part.names := by
  induction ss with
  | nil => rfl
  | cons s ss ih => simp only [stmtNodes, nodeNames_append, ih]; rfl

@[simp] theorem nodeNames_optStmtNodes (s : Option Stmt) :
    nodeNames (optStmtNodes s) = (s.toList.map Part.stmt).flatMap Part.names := by
  cases s <;> simp [optStmtNodes, Part.names]

@[simp] theorem nodeNames_specNodes (ss : List Spec) :
    nodeNames (specNodes ss) = (ss.map Part.spec).flatMap Part.names := by
  induction ss with
  | nil => rfl
  | cons s ss ih => simp only [specNodes, nodeNames_append, ih]; rfl

@[simp] theorem nodeNames_optFieldListNodes (l : Option FieldList) :
    nodeNames (optFieldListNodes l) = (l.toList.map Part.fields).flatMap Part.names := by
  cases l <;> simp [optFieldListNodes, Part.names]

/-- Whether a field is an element of an interface makes no difference for the names in it. -/
theorem nodeNames_field_nodes (f : Field) (element : Bool) :
    nodeNames (f.nodes element) = nodeNames (f.nodes false) := by
  obtain ⟨doc, names, type, tag, comment⟩ := f
  rfl

@[simp] theorem nodeNames_fields (l : FieldList) (element : Bool) :
    nodeNames (l.nodes element) = (l.list.map Part.field).flatMap Part.names := by
  obtain ⟨opening, list, closing⟩ := l
  rw [FieldList.nodes]
  induction list with
  | nil => rfl
  | cons f fields ih =>
      rw [fieldNodes, nodeNames_append, nodeNames_field_nodes, ih]
      rfl

@[simp] theorem nodeNames_decls (ds : List Decl) :
    nodeNames (ds.flatMap Decl.nodes) = (ds.map Decl.part).flatMap Part.names := by
  induction ds with
  | nil => rfl
  | cons d ds ih =>
      rw [List.flatMap_cons, nodeNames_append, ih]
      cases d <;> rfl

/-! ## Nothing is left out -/

/-- The names in a part are those in the parts under it, in order. -/
theorem Expr.names_eq (x : Expr) : nodeNames x.nodes = x.parts.flatMap Part.names := by
  cases x <;> simp [Expr.parts, Expr.nodes, Part.names]

theorem Stmt.names_eq (s : Stmt) : nodeNames s.nodes = s.parts.flatMap Part.names := by
  cases s <;> simp [Stmt.parts, Stmt.nodes, Part.names]

theorem Spec.names_eq (s : Spec) : nodeNames s.nodes = s.parts.flatMap Part.names := by
  cases s <;> simp [Spec.parts, Spec.nodes, Part.names]

theorem Part.names_eq (p : Part) (h : ∀ id, p ≠ .ident id) :
    p.names = p.children.flatMap Part.names := by
  cases p with
  | ident id => exact absurd rfl (h id)
  | expr x => exact x.names_eq
  | funcType type =>
      obtain ⟨func, typeParams, params, results⟩ := type
      simp [Part.names, Part.children, FuncType.nodes]
  | fields l => exact nodeNames_fields l false
  | field f =>
      obtain ⟨doc, names, type, tag, comment⟩ := f
      simp [Part.names, Part.children, Field.nodes]
  | block b =>
      obtain ⟨lbrace, stmts, rbrace⟩ := b
      simp [Part.names, Part.children, Block.nodes]
  | stmt s => exact s.names_eq
  | gen d =>
      obtain ⟨doc, pos, kind, lparen, specs, rparen⟩ := d
      simp [Part.names, Part.children, GenDecl.nodes]
  | spec s => exact s.names_eq
  | func d =>
      cases hbody : d.body <;> simp [Part.names, Part.children, FuncDecl.nodes, hbody]
  | file f => simp only [Part.names, Part.children, File.nodes, nodeNames_ident, nodeNames_decls,
      List.flatMap_cons, List.singleton_append]

theorem Occurs.mem_names {name : Bytes} {p : Part} (h : Occurs name p) : name ∈ p.names := by
  induction h with
  | here hname => exact List.mem_singleton.mpr hname.symm
  | @under p child hchild _ ih =>
      rw [p.names_eq (by rintro id rfl; exact absurd hchild List.not_mem_nil), List.mem_flatMap]
      exact ⟨child, hchild, ih⟩

/-- Every identifier of a file is among its names in use. -/
theorem Occurs.mem_idents {name : Bytes} {f : File} (h : Occurs name (.file f)) :
    name ∈ f.idents :=
  List.mem_append_left _ h.mem_names

/-- So is the last element of the path of an import without a name. -/
theorem lastElement_mem_idents {f : File} {lit : Lit} {path : Bytes}
    (himport : (none, lit) ∈ f.imports) (hpath : Quoted.unquote? lit.text = some path) :
    lastElement path ∈ f.idents := by
  apply List.mem_append_right
  exact List.mem_filterMap.mpr ⟨_, himport, by simp [hpath]⟩

theorem occurs_func {name : Bytes} {f : File} {d : FuncDecl} (hd : d ∈ f.funcs)
    (h : Occurs name (.func d)) : Occurs name (.file f) := by
  obtain ⟨decl, hdecl, heq⟩ := List.mem_filterMap.mp hd
  cases decl with
  | gen _ => cases heq
  | func _ =>
      obtain rfl := Option.some.inj heq
      exact .under (List.mem_cons_of_mem _ (List.mem_map.mpr ⟨_, hdecl, rfl⟩)) h

end RetryWeave.Syntax
