import RetryWeave.Proofs.Expansion.Groups
import RetryWeave.Proofs.Loop.Validation
import RetryWeave.Proofs.SourceMap.Correctness

/-! # Rulings on directives

Each group of directives has one outcome, which its first directive decides: the function that it
documents is expanded, or there is one diagnostic. Both come in source order. A diagnostic stands at
the first directive of its group or at the start of the declaration; the declaration starts before
any later comment, so the diagnostics of different groups are never out of order. -/

namespace RetryWeave

open Syntax

/-! ## Outcomes -/

namespace Plan

/-- The loop that a directive asks for on the declaration that it documents. -/
def attempt (o : Options) (name : Bytes) (f : File) (first : DirectiveComment)
    (owner : Option Owner) : Except Diagnostic RetryLoop :=
  let position := f.table.position first.comment.start
  let place := match owner.bind (·.start) with
    | some offset => f.table.position offset
    | none => if owner.isSome then .unknown else position
  RetryLoop.build o.defaults ⟨first.args, position⟩ owner place f.contextName?
    (o.names name ((owner.map (·.name)).getD []) f.idents)

/-- What becomes of a group of directives, as its first directive decides. -/
inductive Decided (o : Options) (name : Bytes) (f : File) : DirectiveGroup → Ruling → Prop
  | rejected {d : DirectiveGroup} {diagnostic : Diagnostic}
    (h : attempt o name f d.first d.owner = .error diagnostic) :
    Decided o name f d (.rejected diagnostic)
  /-- The declaration is a function of the file, found by its place. -/
  | accepted {d : DirectiveGroup} {e : Expansion}
    (h : attempt o name f d.first d.owner = .ok e.loop) (owner : d.owner = some (.func e.decl))
    (place : f.funcs[e.index]? = some e.decl) (comments : e.comments = d.comments) :
    Decided o name f d (.accepted e)

/-- Every directive of a file is accounted for. -/
structure Accounted (o : Options) (name : Bytes) (p : Plan) : Prop where
  grouped : DirectiveGroup.Grouped o.directive p.file (DirectiveGroup.ofFile o.directive p.file)
  /-- There is one ruling on each group, in their order. -/
  decided : List.Forall₂ (Decided o name p.file) (DirectiveGroup.ofFile o.directive p.file)
    p.rulings
  count : p.expansions.length + p.diagnostics.length =
    (DirectiveGroup.ofFile o.directive p.file).length
  /-- The expanded functions differ, and stand in the order of the file. -/
  expansions_ordered : p.expansions.Pairwise fun e e' => e.index < e'.index ∧ e.decl ≠ e'.decl
  diagnostics_ordered : p.diagnostics.Pairwise fun d d' => d.position.offset < d'.position.offset

variable {o : Options} {name src : Bytes} {p : Plan} {f : File} {tokens : List Token}
  {d d' : DirectiveGroup}

theorem rule_eq (o : Options) (name : Bytes) (f : File) (d : DirectiveGroup) :
    rule o name f f.idents d =
      match attempt o name f d.first d.owner, d.owner with
      | .error diagnostic, _ => .rejected diagnostic
      | .ok loop, some (.func decl) =>
        .accepted ⟨decl, d.comments, loop, ((d.owner.map (·.name)).getD []),
          (match d.owner.bind (·.start) with
            | some offset => f.table.position offset
            | none => if d.owner.isSome then .unknown
              else f.table.position d.first.comment.start),
          f.funcs.findIdx fun d => d.start == decl.start⟩
      | .ok _, _ => .rejected ⟨.notFunction, f.table.position d.first.comment.start⟩ := rfl

/-- Only a function has a body. -/
theorem exists_func_of_attempt {first : DirectiveComment} {owner : Option Owner} {loop : RetryLoop}
    (h : attempt o name f first owner = .ok loop) : ∃ decl, owner = some (.func decl) := by
  obtain ⟨signature, hbuilt⟩ := RetryLoop.built_of_build h
  obtain ⟨owner', rfl, hsignature⟩ := Option.bind_eq_some_iff.mp hbuilt.owner
  cases Signature.ofOwner?_eq_some_iff.mp hsignature with
  | func d => exact ⟨d, rfl⟩
  | method => cases hbuilt.body

theorem decided_rule (hf : FilePlaced src tokens f) (hd : d ∈ DirectiveGroup.ofFile o.directive f) :
    Decided o name f d (rule o name f f.idents d) := by
  obtain ⟨g, hg, hd⟩ := List.mem_flatMap.mp hd
  cases hattempt : attempt o name f d.first d.owner with
  | error diagnostic =>
      rw [rule_eq, hattempt]
      exact .rejected hattempt
  | ok loop =>
      obtain ⟨decl, howner⟩ := exists_func_of_attempt hattempt
      obtain ⟨hfind, -, hsingle, -⟩ := DirectiveGroup.ofComments_spec hd
      have hcomments := DirectiveGroup.flatMap_comments_ofComments o.directive (Owner.index f) g
      rw [hsingle (by simp [howner]), List.flatMap_singleton] at hcomments
      cases hrule : rule o name f f.idents d with
      | rejected diagnostic =>
          rw [rule_eq, hattempt, howner] at hrule
          cases hrule
      | accepted e =>
          have haccepted := accepted_of_rule hf hg hfind hcomments (by rw [hrule]; rfl)
          rw [rule_eq, hattempt, howner] at hrule
          cases hrule
          exact .accepted hattempt howner (haccepted.getElem?_index hf) rfl

end Plan

/-! ## Where diagnostics stand -/

theorem LineTable.position_offset (t : LineTable) (n : Nat) :
    (t.position n).offset = (min n t.size : Nat) := by
  unfold position
  dsimp only
  split <;> rfl

namespace Syntax

variable {src : Bytes} {tokens : List Token} {groups : List CommentGroup}

theorem Placed.start_lt_stop (h : Placed src tokens groups) {t : Token} (ht : t ∈ tokens)
    (hkind : t.kind = .ident ∨ t.kind = .kwFunc) : t.start < t.stop := by
  have hfits := h.fits ht (by rcases hkind with hkind | hkind <;> simp [hkind])
  rcases hkind with hkind | hkind
  · exact hfits.start_lt hkind
  · obtain ⟨-, hstop⟩ := hfits.spelling_eq (by simp [hkind]) (by rw [hkind]; decide)
    rw [hkind] at hstop
    rw [hstop]
    exact Nat.lt_add_of_pos_right (by decide)

/-- What a group of comments leads to starts before the comments of a later group. -/
theorem Placed.start_lt_of_lead (h : Placed src tokens groups) {t : Token} (ht : t ∈ tokens)
    (hkind : t.kind = .ident ∨ t.kind = .kwFunc) {g g' : CommentGroup} (hlead : t.lead = some g)
    (hg' : g' ∈ groups) {c c' : Comment} (hc : c ∈ g.list) (hc' : c' ∈ g'.list)
    (hle : c.reach src ≤ c'.start) (hne : g ≠ g') : t.start < c'.start := by
  have hwritten := h.implied_eq_false ht (by rcases hkind with hkind | hkind <;> simp [hkind])
  have hfits := (h.comment_fits g (h.lead_mem t ht g hlead) c hc).start_lt_reach
  have hfits' := (h.comment_fits g' hg' c' hc').start_lt_reach
  obtain ⟨before, after, hsplit, hafter⟩ := h.lead_last t ht hwritten g hlead
  have hordered := h.groups_ordered
  rw [hsplit] at hg' hordered
  rcases List.mem_append.mp hg' with hg' | hg'
  · -- the comments of an earlier group stand before those of `g`
    have hbefore := (List.pairwise_append.mp hordered).2.2 g' hg' g List.mem_cons_self c' hc' c hc
    omega
  · rcases List.mem_cons.mp hg' with rfl | hg'
    · exact absurd rfl hne
    · exact (h.start_lt_stop ht hkind).trans_le (hafter g' hg' c' hc')

end Syntax

namespace DirectiveGroup

/-- An offset at which a group of directives may be reported: that of its first directive, or the
start of a declaration with a signature that it documents. -/
def Site (d : DirectiveGroup) (n : Nat) : Prop :=
  n = d.first.comment.start ∨ ∃ owner s, d.owner = some owner ∧
    Signature.ofOwner? owner = some s ∧ owner.start = some n

variable {src directive : Bytes} {tokens : List Token} {f : File} {d d' : DirectiveGroup}
  {g g' : CommentGroup} {n : Nat}

/-- A site is the first directive, or a token that its comments lead to. -/
theorem Site.cases (hf : FilePlaced src tokens f) (hled : AllLed tokens f.nodes)
    (hg : g ∈ f.comments) (hd : d ∈ ofComments directive (Owner.index f) g) (h : d.Site n) :
    n = d.first.comment.start ∨ d.owner ≠ none ∧ ∃ t ∈ tokens, t.lead = some g ∧
      (t.kind = .ident ∨ t.kind = .kwFunc) ∧ n = t.start := by
  rcases h with h | ⟨owner, s, howner, hs, hstart⟩
  · exact .inl h
  · have hfind := (ofComments_spec hd).1.symm.trans howner
    obtain ⟨node, hnode, hdoc⟩ :=
      List.mem_filterMap.mp (Owner.mem_index_of_find? hf hled hg hfind)
    obtain ⟨t, ht, hlead, -, -, hsigned⟩ := hled node hnode g owner hdoc
    obtain ⟨hkind, hstart'⟩ := hsigned s hs
    exact .inr ⟨by simp [howner], t, ht, hlead, hkind,
      Option.some.inj (hstart.symm.trans hstart')⟩

theorem Site.bounds (hf : FilePlaced src tokens f) (hled : AllLed tokens f.nodes)
    (hg : g ∈ f.comments) (hd : d ∈ ofComments directive (Owner.index f) g) (h : d.Site n) :
    d.first.comment.start ≤ n ∧ n ≤ src.length := by
  have hmem := (first_mem_of_mem_ofComments hd).1
  have hfits := hf.placed.comment_fits g hg _ hmem
  have hlt := hfits.start_lt_reach
  rcases h.cases hf hled hg hd with rfl | ⟨-, t, ht, hlead, hkind, rfl⟩
  · exact ⟨Nat.le_refl _, hlt.le.trans hfits.reach_le⟩
  · have hwritten : t.kind ≠ .semicolon := by rcases hkind with hkind | hkind <;> simp [hkind]
    have htoken := hf.placed.fits ht hwritten
    have hbefore := hf.placed.lead_before t ht (hf.placed.implied_eq_false ht hwritten) g hlead _
      hmem
    exact ⟨hlt.le.trans hbefore, htoken.start_le.trans htoken.stop_le⟩

/-- The sites of a group stand before the directives of the groups after it. -/
theorem pairwise_site (hf : FilePlaced src tokens f) (hled : AllLed tokens f.nodes)
    (directive : Bytes) : (ofFile directive f).Pairwise fun d d' =>
      ∀ n, d.Site n → n < d'.first.comment.start := by
  have hordered := pairwise_directivesOf hf directive
  rw [← flatMap_comments_ofFile] at hordered
  have hfirst : (ofFile directive f).Pairwise fun d d' =>
      d.first.comment.start < d'.first.comment.start :=
    (List.pairwise_flatMap.mp hordered).2.imp fun hlt =>
      hlt _ List.mem_cons_self _ List.mem_cons_self
  obtain ⟨hwithin, hacross⟩ := List.pairwise_flatMap.mp hfirst
  refine List.pairwise_flatMap.mpr ⟨fun g hg => ?_, ?_⟩
  · rcases ofComments_cases directive (Owner.index f) g with hnone | ⟨d, hsingle⟩
    · refine (hwithin g hg).imp_of_mem fun hd _ hlt n hn => ?_
      rcases hn.cases hf hled hg hd with rfl | ⟨howner, -⟩
      · exact hlt
      · exact absurd (hnone _ hd) howner
    · rw [hsingle]
      exact List.pairwise_singleton _ _
  · refine ((hf.placed.groups_ordered.and hf.placed.groups_ne).and hacross).imp_of_mem ?_
    rintro g g' hg hg' ⟨⟨hgroups, hne⟩, hlt⟩ d hd d' hd' n hn
    rcases hn.cases hf hled hg hd with rfl | ⟨-, t, ht, hlead, hkind, rfl⟩
    · exact hlt d hd d' hd'
    · have hmem := (first_mem_of_mem_ofComments hd).1
      have hmem' := (first_mem_of_mem_ofComments hd').1
      exact hf.placed.start_lt_of_lead ht hkind hlead hg' hmem hmem'
        (hgroups _ hmem _ hmem') hne

end DirectiveGroup

namespace Plan

variable {o : Options} {name src : Bytes} {p : Plan} {f : File} {tokens : List Token}
  {d : DirectiveGroup}

theorem exists_site (hf : FilePlaced src tokens f) (hled : AllLed tokens f.nodes)
    (hd : d ∈ DirectiveGroup.ofFile o.directive f) {diagnostic : Diagnostic}
    (h : (rule o name f f.idents d).diagnostic? = some diagnostic) :
    ∃ n, d.Site n ∧ diagnostic.position = f.table.position n := by
  have hdecided : Decided o name f d (rule o name f f.idents d) := decided_rule hf hd
  generalize rule o name f f.idents d = ruling at h hdecided
  cases hdecided with
  | accepted => cases h
  | rejected hattempt =>
      cases h
      rcases RetryLoop.position_of_build hattempt with hposition | ⟨hplace, s, hs⟩
      · exact ⟨_, .inl rfl, hposition⟩
      · obtain ⟨owner, howner, hs⟩ := Option.bind_eq_some_iff.mp hs
        obtain ⟨g, hg, hd⟩ := List.mem_flatMap.mp hd
        have hfind := (DirectiveGroup.ofComments_spec hd).1.symm.trans howner
        obtain ⟨node, hnode, hdoc⟩ :=
          List.mem_filterMap.mp (Owner.mem_index_of_find? hf hled hg hfind)
        obtain ⟨t, -, -, -, -, hsigned⟩ := hled node hnode g owner hdoc
        obtain ⟨-, hstart⟩ := hsigned s hs
        refine ⟨t.start, .inr ⟨owner, s, howner, hs, hstart⟩, ?_⟩
        rw [hplace, howner, Option.bind_some, hstart]

theorem pairwise_diagnostics (h : ofSource? o name src = some p)
    (hf : FilePlaced src tokens p.file) (hled : AllLed tokens p.file.nodes) :
    p.diagnostics.Pairwise fun d d' => d.position.offset < d'.position.offset := by
  obtain ⟨hparse, hrulings⟩ := ofSource?_eq_some h
  obtain ⟨infos, htable⟩ := exists_table_eq hparse
  have hsize : p.file.table.size = src.length := by rw [htable]; rfl
  rw [diagnostics, hrulings, List.filterMap_map, List.pairwise_filterMap]
  refine (DirectiveGroup.pairwise_site hf hled o.directive).imp_of_mem ?_
  intro d d' hd hd' hlt x hx x' hx'
  obtain ⟨n, hn, hposition⟩ := exists_site hf hled hd hx
  obtain ⟨n', hn', hposition'⟩ := exists_site hf hled hd' hx'
  obtain ⟨g, hg, hd⟩ := List.mem_flatMap.mp hd
  obtain ⟨g', hg', hd'⟩ := List.mem_flatMap.mp hd'
  have hbound := hn.bounds hf hled hg hd
  have hbound' := hn'.bounds hf hled hg' hd'
  have hbefore := hlt n hn
  rw [hposition, hposition', LineTable.position_offset, LineTable.position_offset, hsize]
  omega

theorem pairwise_expansions (h : ofSource? o name src = some p)
    (hf : FilePlaced src tokens p.file) :
    p.expansions.Pairwise fun e e' => e.index < e'.index ∧ e.decl ≠ e'.decl := by
  obtain ⟨haccepted, hbefore⟩ := expansions_spec h hf
  refine hbefore.imp_of_mem fun he he' hlt => ?_
  obtain ⟨g, hg⟩ := haccepted _ he
  obtain ⟨g', hg'⟩ := haccepted _ he'
  have hindex := hg.index_lt hf hg' hlt.decl
  refine ⟨hindex, fun heq => ?_⟩
  rw [hg.index_eq, hg'.index_eq, heq] at hindex
  exact Nat.lt_irrefl _ hindex

/-- Every directive of a file is in one group, and every group has one outcome: an expansion of the
function that it documents, or one diagnostic. -/
theorem directives_accounted (h : ofSource? o name src = some p) : p.Accounted o name := by
  obtain ⟨hparse, hrulings⟩ := ofSource?_eq_some h
  obtain ⟨l, -, hf, hled⟩ := exists_documented hparse
  exact {
    grouped := DirectiveGroup.grouped_ofFile hf hled o.directive
    decided := by
      rw [hrulings, List.forall₂_map_right_iff, List.forall₂_same]
      exact fun d hd => decided_rule hf hd
    count := by
      have hlength := p.length_diagnostics_add_expansions
      rw [hrulings, List.length_map] at hlength
      omega
    expansions_ordered := pairwise_expansions h hf
    diagnostics_ordered := pairwise_diagnostics h hf hled }

/-- A directive that documents nothing, two on a function, one on a method of an interface, one on
a type and one on a second function. -/
def ruledSource : Bytes :=
  "package p\n//retry:onfailure\n\n//retry:onfailure 2\n//retry:onfailure 5\n" ++
    "func f() error \x7b return nil \x7d\n\ntype T interface \x7b\n\t//retry:onfailure\n" ++
    "\tm() error\n\x7d\n\n//retry:onfailure\ntype U int\n\n" ++
    "//retry:onfailure\nfunc g() error \x7b return nil \x7d\n"

theorem directives_accounted_ruledSource : ∃ p,
    ofSource? .standard "a.go" ruledSource = some p ∧
    (DirectiveGroup.ofFile Options.standard.directive p.file).length = 5 ∧
    p.expansions.map (fun e => (e.index, e.comments.map (·.start))) =
      [(0, [29, 49]), (1, [182])] ∧
    p.diagnostics.map (fun d => (d.fault, d.position.offset)) =
      [(.notFunction, 10), (.noBody, 139), (.notFunction, 152)] ∧
    p.Accounted .standard "a.go" := by
  have heval : (ofSource? .standard "a.go" ruledSource).map (fun p =>
      ((DirectiveGroup.ofFile Options.standard.directive p.file).length,
        p.expansions.map (fun e => (e.index, e.comments.map (·.start))),
        p.diagnostics.map (fun d => (d.fault, d.position.offset)))) =
      some (5, [(0, [29, 49]), (1, [182])],
        [(.notFunction, 10), (.noBody, 139), (.notFunction, 152)]) := by decide +kernel
  obtain ⟨p, hp, heq⟩ := Option.map_eq_some_iff.mp heval
  obtain ⟨hgroups, heq⟩ := Prod.mk.inj heq
  obtain ⟨hexpansions, hdiagnostics⟩ := Prod.mk.inj heq
  exact ⟨p, hp, hgroups, hexpansions, hdiagnostics, directives_accounted hp⟩

end Plan

end RetryWeave
