import RetryWeave.Expansion.Expand
import RetryWeave.Proofs.Loop.Build
import RetryWeave.Proofs.Syntax.Placement

/-! # The functions that are expanded

Each expansion belongs to one function of the file and to the comments that document it, and the
expansions of a plan stand in source order. -/

namespace RetryWeave

open Syntax

namespace Syntax

/-! ## Functions are declared at the top -/

/-- No function is declared among some nodes. -/
def DeclaresNone (nodes : List Node) : Prop := ∀ d, Node.func d ∉ nodes

@[simp] theorem declaresNone_nil : DeclaresNone [] := fun _ => List.not_mem_nil

@[simp] theorem declaresNone_append {l m : List Node} :
    DeclaresNone (l ++ m) ↔ DeclaresNone l ∧ DeclaresNone m := by
  simp [DeclaresNone, forall_and]

@[simp] theorem declaresNone_ident {id : Ident} {l : List Node} :
    DeclaresNone (.ident id :: l) ↔ DeclaresNone l := by
  simp [DeclaresNone]

@[simp] theorem declaresNone_gen {d : GenDecl} {l : List Node} :
    DeclaresNone (.gen d :: l) ↔ DeclaresNone l := by
  simp [DeclaresNone]

@[simp] theorem declaresNone_spec {s : Spec} {l : List Node} :
    DeclaresNone (.spec s :: l) ↔ DeclaresNone l := by
  simp [DeclaresNone]

@[simp] theorem declaresNone_field {f : Field} {element : Bool} {l : List Node} :
    DeclaresNone (.field f element :: l) ↔ DeclaresNone l := by
  simp [DeclaresNone]

@[simp] theorem declaresNone_identNodes (ids : List Ident) : DeclaresNone (identNodes ids) := by
  simp [DeclaresNone, identNodes]

/-- No part of a declaration declares a function. -/
theorem declaresNone_nodes :
    (∀ x : Expr, DeclaresNone x.nodes) ∧
    (∀ (l : FieldList) element, DeclaresNone (l.nodes element)) ∧
    (∀ (l : List Field) element, DeclaresNone (fieldNodes l element)) ∧
    (∀ (f : Field) element, DeclaresNone (f.nodes element)) ∧
    (∀ xs, DeclaresNone (exprNodes xs)) ∧
    (∀ b : Block, DeclaresNone b.nodes) ∧
    (∀ ss, DeclaresNone (stmtNodes ss)) ∧
    (∀ s : Stmt, DeclaresNone s.nodes) ∧
    (∀ x, DeclaresNone (optExprNodes x)) ∧
    (∀ xs, DeclaresNone (optExprsNodes xs)) ∧
    (∀ s, DeclaresNone (optStmtNodes s)) ∧
    (∀ d : GenDecl, DeclaresNone d.nodes) ∧
    (∀ ss, DeclaresNone (specNodes ss)) ∧
    (∀ s : Spec, DeclaresNone s.nodes) ∧
    (∀ l, DeclaresNone (optFieldListNodes l)) ∧
    (∀ type : FuncType, DeclaresNone type.nodes) := by
  apply Expr.nodes.mutual_induct
  all_goals
    intros
    simp only [Expr.nodes, FieldList.nodes, fieldNodes, Field.nodes, exprNodes, Block.nodes,
      stmtNodes, Stmt.nodes, optExprNodes, optExprsNodes, optStmtNodes, GenDecl.nodes, specNodes,
      Spec.nodes, optFieldListNodes, FuncType.nodes, declaresNone_nil, declaresNone_append,
      declaresNone_ident, declaresNone_gen, declaresNone_spec, declaresNone_field,
      declaresNone_identNodes, and_self, *]

theorem mem_funcs_of_mem_nodes {f : File} {d : FuncDecl} (h : .func d ∈ f.nodes) :
    d ∈ f.funcs := by
  obtain ⟨-, -, -, -, -, hblock, -, -, -, -, -, hgen, -, -, hfields, htype⟩ := declaresNone_nodes
  rcases List.mem_cons.mp h with h | h
  · cases h
  · obtain ⟨decl, hdecl, hmem⟩ := List.mem_flatMap.mp h
    refine List.mem_filterMap.mpr ⟨decl, hdecl, ?_⟩
    cases decl with
    | gen g => exact absurd hmem (hgen g d)
    | func d' =>
        have hrest : DeclaresNone (optFieldListNodes d'.recv ++ [.ident d'.name] ++
            d'.type.nodes ++ ((d'.body.map Block.nodes).getD [])) := by
          simp only [declaresNone_append, declaresNone_ident, declaresNone_nil]
          refine ⟨⟨⟨hfields _, trivial⟩, htype _⟩, ?_⟩
          cases d'.body with
          | none => exact declaresNone_nil
          | some b => exact hblock b
        rcases List.mem_cons.mp hmem with heq | hmem
        · cases heq
          rfl
        · exact absurd hmem (hrest d)

/-! ## Groups in order -/

section

variable {src : Bytes} {tokens : List Token} {groups : List CommentGroup}

theorem Comment.Fits.start_lt_reach {c : Comment} (h : c.Fits src) : c.start < c.reach src := by
  have hstop := h.stop_le
  have htwo := h.two_le
  unfold Comment.stop at hstop
  omega

theorem Placed.groups_ordered (h : Placed src tokens groups) :
    groups.Pairwise fun g g' => ∀ c ∈ g.list, ∀ c' ∈ g'.list, c.reach src ≤ c'.start :=
  (List.pairwise_flatMap.mp h.comments_ordered).2

/-- Two comments are the same or stand one after the other. -/
theorem Placed.comment_cases (h : Placed src tokens groups) {g g' : CommentGroup}
    (hg : g ∈ groups) {c c' : Comment} (hc : c ∈ g.list) (hg' : g' ∈ groups) (hc' : c' ∈ g'.list)
    (hne : c ≠ c') : c.reach src ≤ c'.start ∨ c'.reach src ≤ c.start := by
  have : Std.Symm fun c c' : Comment => c.reach src ≤ c'.start ∨ c'.reach src ≤ c.start :=
    ⟨fun _ _ => Or.symm⟩
  have heither : (groups.flatMap (·.list)).Pairwise fun c c' =>
      c.reach src ≤ c'.start ∨ c'.reach src ≤ c.start := h.comments_ordered.imp Or.inl
  exact heither.forall (List.mem_flatMap.mpr ⟨g, hg, hc⟩) (List.mem_flatMap.mpr ⟨g', hg', hc'⟩) hne

/-- So does each of its comments. -/
theorem Placed.group_eq_of_mem (h : Placed src tokens groups) {g g' : CommentGroup}
    (hg : g ∈ groups) (hg' : g' ∈ groups) {c : Comment} (hc : c ∈ g.list) (hc' : c ∈ g'.list) :
    g = g' := by
  by_contra hne
  have : Std.Symm fun g g' : CommentGroup => ¬ (c ∈ g.list ∧ c ∈ g'.list) :=
    ⟨fun _ _ hboth h => hboth ⟨h.2, h.1⟩⟩
  have hdisjoint : groups.Pairwise fun g g' => ¬ (c ∈ g.list ∧ c ∈ g'.list) :=
    h.groups_ordered.imp_of_mem fun hg _ hle hboth => by
      have := (h.comment_fits _ hg c hboth.1).start_lt_reach
      have := hle c hboth.1 c hboth.2
      omega
  exact hdisjoint.forall hg hg' hne ⟨hc, hc'⟩

/-- The start of a group tells which group it is. -/
theorem Placed.group_eq (h : Placed src tokens groups) {g g' : CommentGroup} (hg : g ∈ groups)
    (hg' : g' ∈ groups) (hstart : g.start = g'.start) : g = g' := by
  -- the first comment of one would otherwise start before that of the other
  have hlt : ∀ k k' : CommentGroup, k ∈ groups → k' ∈ groups →
      (∀ c ∈ k.list, ∀ c' ∈ k'.list, c.reach src ≤ c'.start) → k.start < k'.start := by
    intro k k' hk hk' hbefore
    obtain ⟨c, rest, hc⟩ := List.exists_cons_of_ne_nil (h.list_ne_nil k hk)
    obtain ⟨c', rest', hc'⟩ := List.exists_cons_of_ne_nil (h.list_ne_nil k' hk')
    have hle := hbefore c (by simp [hc]) c' (by simp [hc'])
    have hfits := (h.comment_fits k hk c (by simp [hc])).start_lt_reach
    simp only [CommentGroup.start, hc, hc', List.head?_cons, Option.map_some, Option.getD_some]
    omega
  by_contra hne
  have hordered : groups.Pairwise fun k k' => k.start < k'.start :=
    h.groups_ordered.imp_of_mem fun hk hk' => hlt _ _ hk hk'
  have heither := (hordered.imp fun hlt => ne_of_lt hlt)
  have : Std.Symm fun k k' : CommentGroup => k.start ≠ k'.start := ⟨fun _ _ => Ne.symm⟩
  exact heither.forall hg hg' hne hstart

end

end Syntax

/-! ## What is known of an expansion -/

/-- The options of a user who chooses nothing. -/
def Options.standard : Options :=
  ⟨defaultDirective, defaultStem, .sequential, ⟨defaultRetries, defaultMessage⟩⟩

/-- An expansion belongs to a function and to the group of comments that documents it. -/
structure Expansion.Accepted (o : Options) (f : File) (g : CommentGroup) (e : Expansion) :
    Prop where
  decl_mem : e.decl ∈ f.funcs
  doc : e.decl.doc = some g
  group_mem : g ∈ f.comments
  comments : e.comments = g.list.filter fun c => (Directive.args? o.directive c.text).isSome
  results : (Signature.mk e.decl.name.name e.decl.type e.decl.body).fallible? = some e.loop.results
  body : e.decl.body = some e.loop.body
  name_eq : e.name = (Owner.func e.decl).name
  position_eq : ∀ start, e.decl.start = some start → e.position = f.table.position start
  index_eq : e.index = f.funcs.findIdx fun d => d.start == e.decl.start

/-! ## The directives of a group of comments -/

namespace DirectiveGroup

variable {directive : Bytes} {owners : List (CommentGroup × Owner)} {g : CommentGroup}
  {d : DirectiveGroup} {c : Comment}

theorem map_comment_directives (directive : Bytes) (comments : List Comment) :
    (comments.filterMap fun c => (Directive.args? directive c.text).map fun args =>
      (⟨c, args⟩ : DirectiveComment)).map (·.comment) =
      comments.filter fun c => (Directive.args? directive c.text).isSome := by
  induction comments with
  | nil => rfl
  | cons c rest ih =>
      cases h : Directive.args? directive c.text <;> simp [h, ih]

theorem flatMap_comments_ofComments (directive : Bytes) (owners : List (CommentGroup × Owner))
    (g : CommentGroup) : (ofComments directive owners g).flatMap (·.comments) =
      g.list.filter fun c => (Directive.args? directive c.text).isSome := by
  rw [← map_comment_directives]
  unfold ofComments
  dsimp only
  split
  · rename_i hfound
    rw [hfound]
    rfl
  · rename_i first more hfound
    rw [hfound]
    split
    · simp [comments]
    · rw [List.flatMap_map, List.map_eq_flatMap]
      rfl

/-- Every directive is in one of the groups, and nothing else is. -/
theorem mem_comments_ofComments_iff :
    (∃ d ∈ ofComments directive owners g, c ∈ d.comments) ↔
      c ∈ g.list ∧ (Directive.args? directive c.text).isSome = true := by
  rw [← List.mem_flatMap, flatMap_comments_ofComments, List.mem_filter]

theorem first_mem_of_mem_ofComments (h : d ∈ ofComments directive owners g) :
    d.first.comment ∈ g.list ∧ (Directive.args? directive d.first.comment.text).isSome = true :=
  mem_comments_ofComments_iff.mp ⟨d, h, List.mem_cons_self⟩

/-- What is known of a group from the comments that it stands in. -/
theorem ofComments_spec (h : d ∈ ofComments directive owners g) :
    d.owner = Owner.find? owners g ∧ (d.owner = none → d.more = []) ∧
      (d.owner ≠ none → ofComments directive owners g = [d]) ∧
      ∀ x ∈ d.first :: d.more, Directive.args? directive x.comment.text = some x.args := by
  have hargs : ∀ x ∈ g.list.filterMap fun c => (Directive.args? directive c.text).map fun args =>
      (⟨c, args⟩ : DirectiveComment), Directive.args? directive x.comment.text = some x.args := by
    intro x hx
    obtain ⟨c, -, hc⟩ := List.mem_filterMap.mp hx
    obtain ⟨args, hargs, rfl⟩ := Option.map_eq_some_iff.mp hc
    exact hargs
  unfold ofComments at h ⊢
  dsimp only at h ⊢
  split at h
  · cases h
  · rename_i first more hfound
    rw [hfound] at hargs
    split at h
    · rename_i owner howner
      obtain rfl := List.mem_singleton.mp h
      exact ⟨howner.symm, nofun, fun _ => rfl, hargs⟩
    · rename_i howner
      rw [hfound] at h
      obtain ⟨x, hx, rfl⟩ := List.mem_map.mp h
      refine ⟨howner.symm, fun _ => rfl, fun hsome => absurd rfl hsome, fun y hy => ?_⟩
      rw [List.mem_singleton.mp hy]
      exact hargs x hx

theorem ofComments_cases (directive : Bytes) (owners : List (CommentGroup × Owner))
    (g : CommentGroup) : (∀ d ∈ ofComments directive owners g, d.owner = none) ∨
      ∃ d, ofComments directive owners g = [d] := by
  by_cases hnone : ∀ d ∈ ofComments directive owners g, d.owner = none
  · exact .inl hnone
  · simp only [not_forall] at hnone
    obtain ⟨d, hd, howner⟩ := hnone
    exact .inr ⟨d, (ofComments_spec hd).2.2.1 howner⟩

end DirectiveGroup

namespace Plan

variable {src : Bytes} {tokens : List Token} {o : Options} {name : Bytes} {f : File}

/-- The owner of a group that is a function, is the function that the group documents. -/
theorem find?_eq_func (hf : FilePlaced src tokens f) {g : CommentGroup} (hg : g ∈ f.comments)
    {d : FuncDecl} (h : Owner.find? (Owner.index f) g = some (.func d)) :
    d ∈ f.funcs ∧ d.doc = some g := by
  obtain ⟨⟨doc, owner⟩, hfind, heq⟩ := Option.map_eq_some_iff.mp h
  obtain rfl : owner = .func d := heq
  obtain ⟨node, hnode, howner⟩ := List.mem_filterMap.mp (List.mem_of_find?_eq_some hfind)
  obtain ⟨hdoc, hnode⟩ : d.doc = some doc ∧ .func d ∈ f.nodes := by
    cases node with
    | func d' =>
        obtain ⟨doc', hdoc', heq⟩ := Option.map_eq_some_iff.mp howner
        cases heq
        exact ⟨hdoc', hnode⟩
    | ident id => cases howner
    | gen g =>
        obtain ⟨_, _, heq⟩ := Option.map_eq_some_iff.mp howner
        cases heq
    | spec s =>
        cases s <;> simp [Owner.ofNode?] at howner
    | field field element =>
        obtain ⟨_, _, heq⟩ := Option.map_eq_some_iff.mp howner
        cases heq
  have hd := mem_funcs_of_mem_nodes hnode
  have hstart : doc.start = g.start := by simpa using List.find?_some hfind
  obtain ⟨hmem, -⟩ := hf.doc_before hd hdoc
  exact ⟨hd, hf.placed.group_eq hmem hg hstart ▸ hdoc⟩

/-- What is expanded because of a group of comments. -/
def expansionsOf (o : Options) (name : Bytes) (f : File) (g : CommentGroup) : List Expansion :=
  (DirectiveGroup.ofComments o.directive (Owner.index f) g).filterMap fun d =>
    (rule o name f f.idents d).expansion?

theorem accepted_of_rule (hf : FilePlaced src tokens f) {g : CommentGroup} (hg : g ∈ f.comments)
    {reserved : List Bytes} {d : DirectiveGroup} {e : Expansion}
    (howner : d.owner = Owner.find? (Owner.index f) g)
    (hcomments : d.comments = g.list.filter fun c => (Directive.args? o.directive c.text).isSome)
    (h : (rule o name f reserved d).expansion? = some e) : e.Accepted o f g := by
  have hfor := builtFor_of_rule h
  obtain ⟨hmem, hdoc⟩ := find?_eq_func hf hg (howner.symm.trans hfor.owner)
  obtain ⟨_, signature, hbuilt⟩ := hfor.built
  have hsignature := hbuilt.owner
  rw [Option.bind_some] at hsignature
  cases hsignature
  exact {
    decl_mem := hmem
    doc := hdoc
    group_mem := hg
    comments := hfor.comments.trans hcomments
    results := hbuilt.results
    body := hbuilt.body
    name_eq := hfor.name_eq
    position_eq := hfor.position_eq
    index_eq := hfor.index_eq }

/-- A directive that documents nothing is not expanded. -/
theorem expansion?_of_owner_eq_none {reserved : List Bytes} {d : DirectiveGroup}
    (howner : d.owner = none) : (rule o name f reserved d).expansion? = none := by
  cases h : (rule o name f reserved d).expansion? with
  | none => rfl
  | some e => cases howner.symm.trans (builtFor_of_rule h).owner

/-- A group of comments leads to one expansion at the most. -/
theorem expansionsOf_spec (hf : FilePlaced src tokens f) {g : CommentGroup} (hg : g ∈ f.comments) :
    expansionsOf o name f g = [] ∨ ∃ e, expansionsOf o name f g = [e] ∧ e.Accepted o f g := by
  rw [expansionsOf]
  rcases DirectiveGroup.ofComments_cases o.directive (Owner.index f) g with hnone | ⟨d, hsingle⟩
  · exact .inl (List.filterMap_eq_nil_iff.mpr fun d hd => expansion?_of_owner_eq_none (hnone d hd))
  · have howner := (DirectiveGroup.ofComments_spec (hsingle ▸ List.mem_singleton_self d)).1
    have hcomments := DirectiveGroup.flatMap_comments_ofComments o.directive (Owner.index f) g
    rw [hsingle, List.flatMap_singleton] at hcomments
    rw [hsingle]
    cases he : (rule o name f f.idents d).expansion? with
    | none => exact .inl (by simp [he])
    | some e => exact .inr ⟨e, by simp [he], accepted_of_rule hf hg howner hcomments he⟩

theorem accepted_of_mem (hf : FilePlaced src tokens f) {g : CommentGroup} (hg : g ∈ f.comments)
    {e : Expansion} (he : e ∈ expansionsOf o name f g) : e.Accepted o f g := by
  rcases expansionsOf_spec hf hg with h | ⟨e', h, haccepted⟩
  · rw [h] at he
    cases he
  · rw [h, List.mem_singleton] at he
    exact he ▸ haccepted

theorem expansions_eq {p : Plan} (h : Plan.ofSource? o name src = some p) :
    p.expansions = p.file.comments.flatMap (expansionsOf o name p.file) := by
  obtain ⟨f, hf, rfl⟩ := Option.map_eq_some_iff.mp h
  simp only [expansions, DirectiveGroup.ofFile, List.filterMap_map, List.filterMap_flatMap]
  rfl

end Plan

/-! ## Expansions in order -/

/-- One expansion stands before another. -/
structure Expansion.Before (src : Bytes) (tokens : List Token) (e e' : Expansion) : Prop where
  decl : FuncDecl.Before tokens e.decl e'.decl
  comments : ∀ c ∈ e.comments, ∀ c' ∈ e'.comments, c.reach src ≤ c'.start

namespace Expansion.Accepted

variable {src : Bytes} {tokens : List Token} {o : Options} {f : File} {g g' : CommentGroup}
  {e e' : Expansion}

theorem comment_mem (h : e.Accepted o f g) {c : Comment} (hc : c ∈ e.comments) : c ∈ g.list :=
  List.mem_of_mem_filter (h.comments ▸ hc)

theorem before (hf : FilePlaced src tokens f) (h : e.Accepted o f g) (h' : e'.Accepted o f g')
    (hgroups : ∀ c ∈ g.list, ∀ c' ∈ g'.list, c.reach src ≤ c'.start) :
    e.Before src tokens e' := by
  refine ⟨?_, fun c hc c' hc' => hgroups c (h.comment_mem hc) c' (h'.comment_mem hc')⟩
  obtain ⟨c, rest, hc⟩ := List.exists_cons_of_ne_nil (hf.placed.list_ne_nil g h.group_mem)
  obtain ⟨c', rest', hc'⟩ := List.exists_cons_of_ne_nil (hf.placed.list_ne_nil g' h'.group_mem)
  have hfits := (hf.placed.comment_fits g h.group_mem c (by simp [hc])).start_lt_reach
  have hfits' := (hf.placed.comment_fits g' h'.group_mem c' (by simp [hc'])).start_lt_reach
  have hle := hgroups c (by simp [hc]) c' (by simp [hc'])
  have heither : f.funcs.Pairwise fun d d' =>
      FuncDecl.Before tokens d d' ∨ FuncDecl.Before tokens d' d := hf.ordered.imp Or.inl
  have : Std.Symm fun d d' => FuncDecl.Before tokens d d' ∨ FuncDecl.Before tokens d' d :=
    ⟨fun _ _ => Or.symm⟩
  by_cases hdecl : e.decl = e'.decl
  · -- one function has one group of comments
    have hgroup : g = g' := Option.some.inj (h.doc.symm.trans (hdecl ▸ h'.doc))
    have hself := hgroups c (by simp [hc]) c (by rw [← hgroup, hc]; simp)
    omega
  · rcases heither.forall h.decl_mem h'.decl_mem hdecl with hbefore | hbefore
    · exact hbefore
    · obtain ⟨start', lb', rb', hstands⟩ := hf.exists_stands h'.decl_mem h'.body
      obtain ⟨start, lb, rb, hown⟩ := hf.exists_stands h.decl_mem h.body
      have hlead := (hf.stands_before hbefore hstands hown.start_eq).2 g h.doc c (by simp [hc])
      have hdoc := (hf.doc_before h'.decl_mem h'.doc).2 start' hstands.start_eq c' (by simp [hc'])
      have hkeyword := hstands.keyword_le
      have hlt := hstands.lt
      omega

end Expansion.Accepted

theorem Plan.expansions_spec {src : Bytes} {tokens : List Token} {o : Options} {name : Bytes}
    {p : Plan} (h : Plan.ofSource? o name src = some p) (hf : FilePlaced src tokens p.file) :
    (∀ e ∈ p.expansions, ∃ g, e.Accepted o p.file g) ∧
      p.expansions.Pairwise (Expansion.Before src tokens) := by
  rw [expansions_eq h]
  refine ⟨fun e he => ?_, List.pairwise_flatMap.mpr ⟨fun g hg => ?_, ?_⟩⟩
  · obtain ⟨g, hg, he⟩ := List.mem_flatMap.mp he
    exact ⟨g, accepted_of_mem hf hg he⟩
  · have hspec : expansionsOf o name p.file g = [] ∨ ∃ e, expansionsOf o name p.file g = [e] ∧ _ :=
      expansionsOf_spec hf hg
    rcases hspec with hnil | ⟨e, hsingle, -⟩
    · simp [hnil]
    · simp [hsingle]
  · refine hf.placed.groups_ordered.imp_of_mem fun hg hg' hgroups e he e' he' => ?_
    exact (accepted_of_mem hf hg he).before hf (accepted_of_mem hf hg' he') hgroups

end RetryWeave
