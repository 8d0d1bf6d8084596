import RetryWeave.Proofs.Expansion.Rerun
import RetryWeave.Proofs.Syntax.Documented

/-! # Groups of directives

The directives of a file are put into groups: those on one declaration belong together, and one
that documents nothing stands alone. The groups hold every directive of the file once, in source
order. -/

namespace RetryWeave

open Syntax

/-! ## What directives document -/

/-- The comments of a file that are directives, in source order. -/
def directivesOf (directive : Bytes) (f : File) : List Comment :=
  (f.comments.flatMap (·.list)).filter fun c => (Directive.args? directive c.text).isSome

/-- A comment is among those that document a declaration. -/
def Documents (f : File) (c : Comment) (owner : Owner) : Prop :=
  ∃ g, (g, owner) ∈ Owner.index f ∧ c ∈ g.list

/-! ## One pass over the comments -/

namespace DirectiveGroup

open Classical in
/-- A directive joins the group of the declaration that it documents; where there is none, it
starts a group at the end. -/
noncomputable def add (owner : Option Owner) (x : DirectiveComment) :
    List DirectiveGroup → List DirectiveGroup
  | [] => [⟨owner, x, []⟩]
  | d :: groups =>
    if owner.isSome ∧ d.owner = owner then { d with more := d.more ++ [x] } :: groups
    else d :: add owner x groups

/-- The directives among comments join those of the declaration `owner`, one after the other. -/
noncomputable def addAll (directive : Bytes) (owner : Option Owner) (groups : List DirectiveGroup)
    (comments : List Comment) : List DirectiveGroup :=
  comments.foldl (fun groups c =>
    match Directive.args? directive c.text with
    | some args => add owner ⟨c, args⟩ groups
    | none => groups) groups

/-- The groups as one pass over the comments of a file collects them. -/
noncomputable def collect (directive : Bytes) (f : File) : List DirectiveGroup :=
  f.comments.foldl (fun groups g =>
    addAll directive (Owner.find? (Owner.index f) g) groups g.list) []

end DirectiveGroup

/-- How the directives of a file are put into groups. -/
structure DirectiveGroup.Grouped (directive : Bytes) (f : File) (groups : List DirectiveGroup) :
    Prop where
  /-- They are the groups that one pass over the comments collects. -/
  eq_collect : groups = collect directive f
  /-- One after the other, the groups hold the directives of the file in source order. -/
  comments_eq : groups.flatMap (·.comments) = directivesOf directive f
  ordered : (directivesOf directive f).Pairwise fun c c' => c.start < c'.start
  /-- A directive is in one group only. -/
  exists_unique : ∀ c ∈ directivesOf directive f, ∃! i : Nat, ∃ d : DirectiveGroup,
    groups[i]? = some d ∧ c ∈ d.comments
  args_eq : ∀ d ∈ groups, ∀ x ∈ d.first :: d.more,
    Directive.args? directive x.comment.text = some x.args
  /-- Two directives are in one group if and only if they document the same declaration. -/
  together_iff : ∀ c ∈ directivesOf directive f, ∀ c' ∈ directivesOf directive f, c ≠ c' →
    ((∃ d ∈ groups, c ∈ d.comments ∧ c' ∈ d.comments) ↔
      ∃ owner, Documents f c owner ∧ Documents f c' owner)
  owner_eq_some : ∀ d ∈ groups, ∀ owner, d.owner = some owner →
    ∀ c ∈ d.comments, Documents f c owner
  /-- A directive that documents nothing is alone in its group. -/
  owner_eq_none : ∀ d ∈ groups,
    (d.owner = none ↔ ∀ owner, ¬ Documents f d.first.comment owner) ∧
    (d.owner = none → d.more = [])

/-! ## Owners of comments -/

theorem Syntax.Placed.groups_ne {src : Bytes} {tokens : List Token} {groups : List CommentGroup}
    (h : Placed src tokens groups) : groups.Pairwise (· ≠ ·) := by
  refine h.groups_ordered.imp_of_mem ?_
  rintro g _ hg - hordered rfl
  obtain ⟨c, hc⟩ := List.exists_mem_of_ne_nil _ (h.list_ne_nil g hg)
  exact absurd (hordered c hc c hc) (h.comment_fits g hg c hc).start_lt_reach.not_ge

namespace Owner

variable {src : Bytes} {tokens : List Token} {f : File} {g g' : CommentGroup} {owner : Owner}

/-- The comments that document a declaration. -/
def doc? : Owner → Option CommentGroup
  | .func d => d.doc
  | .gen d => d.doc
  | .spec (.importSpec ..) => none
  | .spec (.valueSpec doc ..) => doc
  | .spec (.typeSpec doc ..) => doc
  | .field f _ => f.doc

theorem doc?_eq_some (h : (g, owner) ∈ index f) : owner.doc? = some g := by
  obtain ⟨n, -, hn⟩ := List.mem_filterMap.mp h
  cases n with
  | ident id => cases hn
  | spec s =>
      cases s with
      | importSpec => cases hn
      | valueSpec | typeSpec =>
          obtain ⟨doc, rfl, heq⟩ := Option.map_eq_some_iff.mp hn
          cases heq
          rfl
  | func d | gen d | field d element =>
      obtain ⟨doc, hdoc, heq⟩ := Option.map_eq_some_iff.mp hn
      cases heq
      exact hdoc

theorem mem_comments (hf : FilePlaced src tokens f) (hled : AllLed tokens f.nodes)
    (h : (g, owner) ∈ index f) : g ∈ f.comments := by
  obtain ⟨n, hn, howner⟩ := List.mem_filterMap.mp h
  obtain ⟨t, ht, hlead, -⟩ := hled n hn g owner howner
  exact hf.placed.lead_mem t ht g hlead

theorem isSome_find? (h : (g, owner) ∈ index f) : (find? (index f) g).isSome = true := by
  rw [find?, Option.isSome_map, List.find?_isSome]
  exact ⟨_, h, by simp⟩

theorem mem_index_of_find? (hf : FilePlaced src tokens f) (hled : AllLed tokens f.nodes)
    (hg : g ∈ f.comments) (h : find? (index f) g = some owner) : (g, owner) ∈ index f := by
  obtain ⟨⟨doc, owner'⟩, hfind, heq⟩ := Option.map_eq_some_iff.mp h
  obtain rfl : owner' = owner := heq
  have hmem := List.mem_of_find?_eq_some hfind
  have hstart : doc.start = g.start := by simpa using List.find?_some hfind
  rwa [hf.placed.group_eq (mem_comments hf hled hmem) hg hstart] at hmem

end Owner

/-! ## Directives of one group of comments -/

namespace DirectiveGroup

variable {directive : Bytes} {owners : List (CommentGroup × Owner)} {g : CommentGroup}
  {d : DirectiveGroup} {groups : List DirectiveGroup} {owner : Option Owner}
  {x : DirectiveComment}

theorem flatMap_comments_ofFile (directive : Bytes) (f : File) :
    (ofFile directive f).flatMap (·.comments) = directivesOf directive f := by
  rw [ofFile, directivesOf, List.flatMap_assoc, List.filter_flatMap]
  exact List.flatMap_congr fun g _ => flatMap_comments_ofComments directive _ g

theorem add_eq_append (hnew : owner.isSome = true → ∀ d ∈ groups, d.owner ≠ owner)
    (rest : List DirectiveGroup) : add owner x (groups ++ rest) = groups ++ add owner x rest := by
  induction groups with
  | nil => rfl
  | cons d groups ih =>
      have hother : ¬ (owner.isSome = true ∧ d.owner = owner) := fun ⟨hsome, heq⟩ =>
        hnew hsome d List.mem_cons_self heq
      rw [List.cons_append, add, if_neg hother, ih fun hsome d hd =>
        hnew hsome d (List.mem_cons_of_mem _ hd), List.cons_append]

theorem add_new (hnew : owner.isSome = true → ∀ d ∈ groups, d.owner ≠ owner) :
    add owner x groups = groups ++ [⟨owner, x, []⟩] := by
  simpa [add] using add_eq_append (x := x) hnew []

theorem foldl_add_none (found : List DirectiveComment) (groups : List DirectiveGroup) :
    found.foldl (fun groups x => add none x groups) groups =
      groups ++ found.map fun x => ⟨none, x, []⟩ := by
  induction found generalizing groups with
  | nil => simp
  | cons x found ih =>
      rw [List.foldl_cons, add_new nofun, ih, List.append_assoc]
      rfl

theorem foldl_add_some {owner : Owner} (hnew : ∀ d ∈ groups, d.owner ≠ some owner)
    (first : DirectiveComment) (more found : List DirectiveComment) :
    found.foldl (fun groups x => add (some owner) x groups)
      (groups ++ [⟨some owner, first, more⟩]) =
      groups ++ [⟨some owner, first, more ++ found⟩] := by
  induction found generalizing more with
  | nil => simp
  | cons x found ih =>
      rw [List.foldl_cons, add_eq_append fun _ => hnew, add, if_pos ⟨rfl, rfl⟩, ih,
        List.append_assoc]
      rfl

/-- Comments that document a declaration without directives so far add their directives at the
end. -/
theorem addAll_eq_append (hnew : ∀ owner, Owner.find? owners g = some owner →
      ∀ d ∈ groups, d.owner ≠ some owner) :
    addAll directive (Owner.find? owners g) groups g.list =
      groups ++ ofComments directive owners g := by
  have hfound : addAll directive (Owner.find? owners g) groups g.list =
      (g.list.filterMap fun c => (Directive.args? directive c.text).map fun args =>
        (⟨c, args⟩ : DirectiveComment)).foldl
          (fun groups x => add (Owner.find? owners g) x groups) groups := by
    rw [addAll, List.foldl_filterMap]
    congr! 3 with _ c
    cases Directive.args? directive c.text <;> rfl
  rw [hfound, ofComments]
  generalize (g.list.filterMap fun c => (Directive.args? directive c.text).map fun args =>
    (⟨c, args⟩ : DirectiveComment)) = found
  cases found with
  | nil => simp
  | cons first more =>
      cases howner : Owner.find? owners g with
      | none => exact foldl_add_none (first :: more) groups
      | some owner =>
          rw [List.foldl_cons, add_new fun _ => hnew owner howner,
            foldl_add_some (hnew owner howner)]
          rfl

/-- So does the whole pass, where no declaration is documented by two groups of comments. -/
theorem foldl_addAll {comments : List CommentGroup}
    (hnew : ∀ g ∈ comments, ∀ owner, Owner.find? owners g = some owner →
      ∀ d ∈ groups, d.owner ≠ some owner)
    (hapart : comments.Pairwise fun g g' => ∀ owner, Owner.find? owners g = some owner →
      Owner.find? owners g' ≠ some owner) :
    comments.foldl (fun groups g => addAll directive (Owner.find? owners g) groups g.list) groups =
      groups ++ comments.flatMap (ofComments directive owners) := by
  induction comments generalizing groups with
  | nil => simp
  | cons g comments ih =>
      obtain ⟨hfirst, hapart⟩ := List.pairwise_cons.mp hapart
      rw [List.foldl_cons, addAll_eq_append (hnew g List.mem_cons_self), ih ?_ hapart,
        List.flatMap_cons, List.append_assoc]
      intro g' hg' owner howner d hd
      rcases List.mem_append.mp hd with hd | hd
      · exact hnew g' (List.mem_cons_of_mem _ hg') owner howner d hd
      · rw [(ofComments_spec hd).1]
        exact fun hfind => hfirst g' hg' owner hfind howner

/-! ## Directives of a file -/

section

variable {src : Bytes} {tokens : List Token} {f : File} (hf : FilePlaced src tokens f)
include hf

theorem pairwise_directivesOf (directive : Bytes) :
    (directivesOf directive f).Pairwise fun c c' => c.start < c'.start := by
  refine List.Pairwise.filter _ ?_
  refine hf.placed.comments_ordered.imp_of_mem fun hc _ hle => ?_
  obtain ⟨g, hg, hc⟩ := List.mem_flatMap.mp hc
  exact (hf.placed.comment_fits g hg _ hc).start_lt_reach.trans_le hle

theorem existsUnique_group {c : Comment} (hc : c ∈ directivesOf directive f) :
    ∃! i : Nat, ∃ d : DirectiveGroup, (ofFile directive f)[i]? = some d ∧ c ∈ d.comments := by
  have hordered := pairwise_directivesOf hf directive
  rw [← flatMap_comments_ofFile] at hc hordered
  obtain ⟨d, hd, hcd⟩ := List.mem_flatMap.mp hc
  obtain ⟨i, hi⟩ := List.mem_iff_getElem?.mp hd
  have hapart := (List.pairwise_flatMap.mp hordered).2
  refine ⟨i, ⟨d, hi, hcd⟩, ?_⟩
  rintro j ⟨d', hj, hcd'⟩
  obtain ⟨hin, rfl⟩ := List.getElem?_eq_some_iff.mp hi
  obtain ⟨hjn, rfl⟩ := List.getElem?_eq_some_iff.mp hj
  have hlt := List.pairwise_iff_getElem.mp hapart
  rcases Nat.lt_trichotomy i j with hij | heq | hji
  · exact absurd (hlt i j hin hjn hij c hcd c hcd') (Nat.lt_irrefl _)
  · exact heq.symm
  · exact absurd (hlt j i hjn hin hji c hcd' c hcd) (Nat.lt_irrefl _)

variable (hled : AllLed tokens f.nodes)
include hled

theorem documents_of_owner {g : CommentGroup} (hg : g ∈ f.comments)
    (hd : d ∈ ofComments directive (Owner.index f) g) {owner : Owner}
    (howner : d.owner = some owner) {c : Comment} (hc : c ∈ d.comments) : Documents f c owner := by
  have hfind := (ofComments_spec hd).1.symm.trans howner
  exact ⟨g, Owner.mem_index_of_find? hf hled hg hfind, (mem_comments_ofComments_iff.mp ⟨d, hd, hc⟩).1⟩

theorem isSome_owner_of_documents {g : CommentGroup} (hg : g ∈ f.comments)
    (hd : d ∈ ofComments directive (Owner.index f) g) {c : Comment} (hc : c ∈ d.comments)
    {owner : Owner} (h : Documents f c owner) : d.owner.isSome = true := by
  obtain ⟨g', hmem, hc'⟩ := h
  obtain rfl := hf.placed.group_eq_of_mem hg (Owner.mem_comments hf hled hmem)
    (mem_comments_ofComments_iff.mp ⟨d, hd, hc⟩).1 hc'
  rw [(ofComments_spec hd).1]
  exact Owner.isSome_find? hmem

theorem together_iff {c c' : Comment} (hc : c ∈ directivesOf directive f)
    (hc' : c' ∈ directivesOf directive f) (hne : c ≠ c') :
    (∃ d ∈ ofFile directive f, c ∈ d.comments ∧ c' ∈ d.comments) ↔
      ∃ owner, Documents f c owner ∧ Documents f c' owner := by
  constructor
  · rintro ⟨d, hd, hcd, hcd'⟩
    obtain ⟨g, hg, hd⟩ := List.mem_flatMap.mp hd
    cases howner : d.owner with
    | none =>
        have hmore := (ofComments_spec hd).2.1 howner
        rw [comments, hmore, List.map_singleton, List.mem_singleton] at hcd hcd'
        exact absurd (hcd.trans hcd'.symm) hne
    | some owner =>
        exact ⟨owner, documents_of_owner hf hled hg hd howner hcd,
          documents_of_owner hf hled hg hd howner hcd'⟩
  · rintro ⟨owner, ⟨g, hg, hcg⟩, ⟨g', hg', hcg'⟩⟩
    obtain rfl : g = g' :=
      Option.some.inj ((Owner.doc?_eq_some hg).symm.trans (Owner.doc?_eq_some hg'))
    have hcomments := Owner.mem_comments hf hled hg
    have hdirective := (List.mem_filter.mp hc).2
    obtain ⟨d, hd, hcd⟩ := mem_comments_ofComments_iff.mpr ⟨hcg, hdirective⟩
    have hsingle := (ofComments_spec hd).2.2.1 fun hnone => by
      have hsome := isSome_owner_of_documents hf hled hcomments hd hcd ⟨g, hg, hcg⟩
      rw [hnone] at hsome
      cases hsome
    obtain ⟨d', hd', hcd'⟩ :=
      mem_comments_ofComments_iff.mpr ⟨hcg', (List.mem_filter.mp hc').2⟩
    rw [hsingle, List.mem_singleton] at hd'
    exact ⟨d, List.mem_flatMap.mpr ⟨g, hcomments, hd⟩, hcd, hd' ▸ hcd'⟩

theorem ofFile_eq_collect (directive : Bytes) : ofFile directive f = collect directive f := by
  have hapart : f.comments.Pairwise fun g g' => ∀ owner,
      Owner.find? (Owner.index f) g = some owner → Owner.find? (Owner.index f) g' ≠ some owner := by
    refine hf.placed.groups_ne.imp_of_mem fun hg hg' hne owner hfind hfind' => hne ?_
    have hdoc := Owner.doc?_eq_some (Owner.mem_index_of_find? hf hled hg hfind)
    have hdoc' := Owner.doc?_eq_some (Owner.mem_index_of_find? hf hled hg' hfind')
    exact Option.some.inj (hdoc.symm.trans hdoc')
  have hrun : collect directive f = [] ++ ofFile directive f :=
    foldl_addAll (fun _ _ _ _ _ hd => nomatch hd) hapart
  exact hrun.symm

theorem grouped_ofFile (directive : Bytes) : Grouped directive f (ofFile directive f) where
  eq_collect := ofFile_eq_collect hf hled directive
  comments_eq := flatMap_comments_ofFile directive f
  ordered := pairwise_directivesOf hf directive
  exists_unique := fun c hc => existsUnique_group hf hc
  args_eq := fun d hd => by
    obtain ⟨g, -, hd⟩ := List.mem_flatMap.mp hd
    exact (ofComments_spec hd).2.2.2
  together_iff := fun c hc c' hc' hne => together_iff hf hled hc hc' hne
  owner_eq_some := fun d hd owner howner c hc => by
    obtain ⟨g, hg, hd⟩ := List.mem_flatMap.mp hd
    exact documents_of_owner hf hled hg hd howner hc
  owner_eq_none := fun d hd => by
    obtain ⟨g, hg, hd⟩ := List.mem_flatMap.mp hd
    refine ⟨⟨fun hnone owner h => ?_, fun hnone => ?_⟩, (ofComments_spec hd).2.1⟩
    · have hsome := isSome_owner_of_documents hf hled hg hd List.mem_cons_self h
      rw [hnone] at hsome
      cases hsome
    · cases howner : d.owner with
      | none => rfl
      | some owner =>
          exact absurd (documents_of_owner hf hled hg hd howner List.mem_cons_self) (hnone owner)

end

end DirectiveGroup

end RetryWeave
