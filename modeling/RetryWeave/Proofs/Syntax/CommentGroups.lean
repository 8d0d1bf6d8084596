import Mathlib.Data.List.Pairwise
import RetryWeave.Proofs.Syntax.Lexemes

/-! # The places of comment groups

Comments are gathered into groups and handed to tokens. No comment is lost, and the group that leads
to a token stands between that token and the one before it. -/

namespace RetryWeave.Syntax

/-! ## Groups and the tokens they belong to -/

theorem sameLine_append (last : Nat) (comments : List (Comment × Nat)) :
    (sameLine last comments).1 ++ (sameLine last comments).2.2.map (·.1) = comments.map (·.1) := by
  induction comments generalizing last with
  | nil => rfl
  | cons c rest ih =>
      simp only [sameLine]
      split
      · simp only [List.cons_append, List.map_cons, ih]
      · rfl

theorem gather_flatMap (group : List Comment) (last : Nat) (comments : List (Comment × Nat)) :
    (gather group last comments).1.flatMap (·.list) = group.reverse ++ comments.map (·.1) := by
  induction comments generalizing group last with
  | nil => simp [gather]
  | cons c rest ih =>
      simp only [gather]
      split
      · rw [ih, List.reverse_cons, List.append_assoc, List.singleton_append, List.map_cons]
      · rw [List.flatMap_cons, ih, List.reverse_singleton, List.singleton_append, List.map_cons]

theorem gather_ne_nil {group : List Comment} (hne : group ≠ []) (last : Nat)
    (comments : List (Comment × Nat)) :
    ∀ g ∈ (gather group last comments).1, g.list ≠ [] := by
  induction comments generalizing group last with
  | nil => simpa [gather] using hne
  | cons c rest ih =>
      simp only [gather]
      split
      · exact ih (List.cons_ne_nil _ _) _
      · simp only [List.mem_cons, forall_eq_or_imp]
        exact ⟨by simpa using hne, ih (List.cons_ne_nil _ _) _⟩

/-- What becomes of a token and the comments before it: the token gets some of the groups that the
comments form. -/
structure Attached (comments : List (Comment × Nat)) (t t' : Token)
    (groups : List CommentGroup) : Prop where
  kind : t'.kind = t.kind
  text : t'.text = t.text
  start : t'.start = t.start
  stop : t'.stop = t.stop
  implied : t'.implied = t.implied
  flatMap_list : groups.flatMap (·.list) = comments.map (·.1)
  list_ne_nil : ∀ g ∈ groups, g.list ≠ []
  lead_last : ∀ g, t'.lead = some g → groups.getLast? = some g

theorem Attached.lead_mem {comments : List (Comment × Nat)} {t t' : Token}
    {groups : List CommentGroup} (h : Attached comments t t' groups) (g : CommentGroup)
    (hg : t'.lead = some g) : g ∈ groups :=
  List.mem_of_getLast? (h.lead_last g hg)

theorem attached_attach (before : Nat) (comments : List (Comment × Nat)) {t : Token} (line : Nat)
    (hlead : t.lead = none) :
    Attached comments t (attach before comments t line).1 (attach before comments t line).2 := by
  cases comments with
  | nil => exact ⟨rfl, rfl, rfl, rfl, rfl, rfl, by simp [attach], by simp [attach, hlead]⟩
  | cons first rest =>
      have hsplit : ∀ same last others,
          (if first.2 = before then sameLine first.2 (first :: rest) else ([], 0, first :: rest)) =
            (same, last, others) →
          same ++ others.map (·.1) = (first :: rest).map (·.1) := by
        intro same last others h
        split at h
        · have happend := sameLine_append first.2 (first :: rest)
          rwa [h] at happend
        · cases h
          rfl
      simp only [attach]
      generalize hpair : (if first.2 = before then sameLine first.2 (first :: rest)
        else (([], 0, first :: rest) : List Comment × Nat × List (Comment × Nat))) = parts
      obtain ⟨same, last, others⟩ := parts
      have happend := hsplit same last others hpair
      have hhead : (if same.isEmpty = true then ([] : List CommentGroup) else [⟨same⟩]).flatMap
          (·.list) = same := by
        cases same <;> simp
      have hheadNe : ∀ g ∈ (if same.isEmpty = true then ([] : List CommentGroup) else [⟨same⟩]),
          g.list ≠ [] := by
        cases same <;> simp
      cases others with
      | nil =>
          refine ⟨rfl, rfl, rfl, rfl, rfl, ?_, hheadNe, by simp [hlead]⟩
          dsimp only
          rw [hhead]
          simpa using happend
      | cons c more =>
          refine ⟨rfl, rfl, rfl, rfl, rfl, ?_, ?_, ?_⟩
          · dsimp only
            rw [List.flatMap_append, hhead, gather_flatMap, ← happend]
            rfl
          · intro g hg
            rcases List.mem_append.mp hg with hg | hg
            · exact hheadNe g hg
            · exact gather_ne_nil (List.cons_ne_nil _ _) _ _ g hg
          · intro g hg
            dsimp only at hg
            split at hg
            · rw [List.getLast?_append, hg, Option.some_or]
            · cases hg

/-- The tokens and comment groups of some lexemes. -/
inductive AttachedAll : List Lexeme → List Token → List CommentGroup → Prop where
  | nil (comments : List (Comment × Nat)) :
      AttachedAll (comments.map fun c => .comment c.1 c.2) [] []
  | cons {comments : List (Comment × Nat)} {t t' : Token} {line : Nat}
      {groups more : List CommentGroup} {rest : List Lexeme} {tokens : List Token}
      (first : Attached comments t t' groups) (others : AttachedAll rest tokens more) :
      AttachedAll ((comments.map fun c => .comment c.1 c.2) ++ .token t line :: rest)
        (t' :: tokens) (groups ++ more)

theorem attachedAll_attachAll (before : Nat) (pending : List (Comment × Nat))
    (rest : List Lexeme) (hbare : ∀ x ∈ rest, x.IsBare) :
    AttachedAll ((pending.reverse.map fun c => .comment c.1 c.2) ++ rest)
      (attachAll before pending rest).1 (attachAll before pending rest).2 := by
  induction rest generalizing before pending with
  | nil => simpa [attachAll] using AttachedAll.nil pending.reverse
  | cons x rest ih =>
      simp only [List.mem_cons, forall_eq_or_imp] at hbare
      cases x with
      | comment c line => simpa [attachAll] using ih before ((c, line) :: pending) hbare.2
      | token t line =>
          exact .cons (attached_attach before pending.reverse line hbare.1.1) (ih line [] hbare.2)

/-! ## The lexed text -/

/-- Where tokens and comments stand in a text. -/
structure Placed (src : Bytes) (tokens : List Token) (groups : List CommentGroup) : Prop where
  token_fits : ∀ t ∈ tokens, t.implied = false → t.Fits src
  implied_kind : ∀ t ∈ tokens, t.implied = true → t.kind = .semicolon
  comment_fits : ∀ g ∈ groups, ∀ c ∈ g.list, c.Fits src
  list_ne_nil : ∀ g ∈ groups, g.list ≠ []
  tokens_ordered : tokens.Pairwise fun t u =>
    t.implied = false → u.implied = false → t.stop ≤ u.start
  comments_ordered : (groups.flatMap (·.list)).Pairwise fun c d => c.reach src ≤ d.start
  token_or_comment : ∀ t ∈ tokens, t.implied = false → ∀ g ∈ groups, ∀ c ∈ g.list,
    c.reach src ≤ t.start ∨ t.stop ≤ c.start
  lead_mem : ∀ t ∈ tokens, ∀ g, t.lead = some g → g ∈ groups
  lead_last : ∀ t ∈ tokens, t.implied = false → ∀ g, t.lead = some g → ∃ before after,
    groups = before ++ g :: after ∧ ∀ g' ∈ after, ∀ c ∈ g'.list, t.stop ≤ c.start
  lead_before : ∀ t ∈ tokens, t.implied = false → ∀ g, t.lead = some g → ∀ c ∈ g.list,
    c.reach src ≤ t.start
  lead_after : tokens.Pairwise fun t u => t.implied = false → ∀ g, u.lead = some g →
    ∀ c ∈ g.list, t.stop ≤ c.start
  ends : ∃ t, tokens.getLast? = some t ∧ t.kind = .eof

theorem AttachedAll.exists_token {xs : List Lexeme} {tokens : List Token}
    {groups : List CommentGroup} (h : AttachedAll xs tokens groups) {u : Token} (hu : u ∈ tokens) :
    ∃ t line, .token t line ∈ xs ∧ u.kind = t.kind ∧ u.text = t.text ∧ u.start = t.start ∧
      u.stop = t.stop ∧ u.implied = t.implied := by
  induction h with
  | nil => cases hu
  | @cons comments t t' line groups more rest tokens first others ih =>
      rcases List.mem_cons.mp hu with rfl | hu
      · exact ⟨t, line, by simp, first.kind, first.text, first.start, first.stop, first.implied⟩
      · obtain ⟨v, n, hv, heq⟩ := ih hu
        exact ⟨v, n, by simp [hv], heq⟩

theorem AttachedAll.exists_comment {xs : List Lexeme} {tokens : List Token}
    {groups : List CommentGroup} (h : AttachedAll xs tokens groups) {g : CommentGroup}
    (hg : g ∈ groups) {c : Comment} (hc : c ∈ g.list) : ∃ line, .comment c line ∈ xs := by
  induction h with
  | nil => cases hg
  | @cons comments t t' line groups more rest tokens first others ih =>
      rcases List.mem_append.mp hg with hg | hg
      · have hmem : c ∈ groups.flatMap (·.list) := List.mem_flatMap.mpr ⟨g, hg, hc⟩
        rw [first.flatMap_list] at hmem
        obtain ⟨⟨d, n⟩, hd, rfl⟩ := List.mem_map.mp hmem
        exact ⟨n, List.mem_append_left _ (List.mem_map.mpr ⟨(d, n), hd, rfl⟩)⟩
      · obtain ⟨n, hn⟩ := ih hg
        exact ⟨n, by simp [hn]⟩

theorem AttachedAll.lead_mem {xs : List Lexeme} {tokens : List Token}
    {groups : List CommentGroup} (h : AttachedAll xs tokens groups) {u : Token} (hu : u ∈ tokens)
    {g : CommentGroup} (hg : u.lead = some g) : g ∈ groups := by
  induction h with
  | nil => cases hu
  | cons first others ih =>
      rcases List.mem_cons.mp hu with rfl | hu
      · exact List.mem_append_left _ (first.lead_mem g hg)
      · exact List.mem_append_right _ (ih hu)

theorem AttachedAll.list_ne_nil {xs : List Lexeme} {tokens : List Token}
    {groups : List CommentGroup} (h : AttachedAll xs tokens groups) :
    ∀ g ∈ groups, g.list ≠ [] := by
  induction h with
  | nil => simp
  | cons first others ih =>
      intro g hg
      rcases List.mem_append.mp hg with hg | hg
      · exact first.list_ne_nil g hg
      · exact ih g hg

section

variable {src : Bytes} {xs : List Lexeme} {tokens : List Token} {groups : List CommentGroup}

theorem AttachedAll.tokens_ordered (h : AttachedAll xs tokens groups)
    (hordered : xs.Pairwise (Lexeme.Before src)) :
    tokens.Pairwise fun t u => t.implied = false → u.implied = false → t.stop ≤ u.start := by
  induction h with
  | nil => exact .nil
  | @cons comments t t' line groups more rest tokens first others ih =>
      obtain ⟨-, hrest, -⟩ := List.pairwise_append.mp hordered
      obtain ⟨htoken, hrest⟩ := List.pairwise_cons.mp hrest
      refine List.pairwise_cons.mpr ⟨fun u hu ht hw => ?_, ih hrest⟩
      obtain ⟨v, n, hv, -, -, hstart, -, himplied⟩ := others.exists_token hu
      rw [first.stop, hstart]
      exact htoken _ hv (by simp [Lexeme.isWritten, ← first.implied, ht])
        (by simp [Lexeme.isWritten, ← himplied, hw])

theorem AttachedAll.comments_ordered (h : AttachedAll xs tokens groups)
    (hordered : xs.Pairwise (Lexeme.Before src)) :
    (groups.flatMap (·.list)).Pairwise fun c d => c.reach src ≤ d.start := by
  induction h with
  | nil => exact .nil
  | @cons comments t t' line groups more rest tokens first others ih =>
      obtain ⟨hcomments, hrest, hacross⟩ := List.pairwise_append.mp hordered
      rw [List.flatMap_append, first.flatMap_list, List.pairwise_append]
      refine ⟨?_, ih (List.pairwise_cons.mp hrest).2, ?_⟩
      · rw [List.pairwise_map] at hcomments ⊢
        exact hcomments.imp fun hbefore => hbefore rfl rfl
      · intro c hc d hd
        obtain ⟨⟨c, n⟩, hcomment, rfl⟩ := List.mem_map.mp hc
        obtain ⟨g, hg, hd⟩ := List.mem_flatMap.mp hd
        obtain ⟨m, hm⟩ := others.exists_comment hg hd
        exact hacross _ (List.mem_map.mpr ⟨_, hcomment, rfl⟩) _ (List.mem_cons_of_mem _ hm) rfl rfl

/-- The comments that belong to a token with text come before it and after the tokens before it. -/
theorem AttachedAll.lead_ordered (h : AttachedAll xs tokens groups)
    (hordered : xs.Pairwise (Lexeme.Before src)) :
    (∀ t ∈ tokens, t.implied = false → ∀ g, t.lead = some g → ∀ c ∈ g.list,
      c.reach src ≤ t.start) ∧
    tokens.Pairwise fun t u => t.implied = false → ∀ g, u.lead = some g → ∀ c ∈ g.list,
      t.stop ≤ c.start := by
  induction h with
  | nil => exact ⟨by simp, .nil⟩
  | @cons comments t t' line groups more rest tokens first others ih =>
      obtain ⟨-, hrest, hacross⟩ := List.pairwise_append.mp hordered
      obtain ⟨htoken, hrest⟩ := List.pairwise_cons.mp hrest
      obtain ⟨hbefore, hafter⟩ := ih hrest
      refine ⟨?_, List.pairwise_cons.mpr ⟨?_, hafter⟩⟩
      · simp only [List.mem_cons, forall_eq_or_imp]
        refine ⟨fun ht g hg c hc => ?_, hbefore⟩
        have hmem : c ∈ groups.flatMap (·.list) :=
          List.mem_flatMap.mpr ⟨g, first.lead_mem g hg, hc⟩
        rw [first.flatMap_list] at hmem
        obtain ⟨⟨c, n⟩, hcomment, rfl⟩ := List.mem_map.mp hmem
        rw [first.start]
        exact hacross _ (List.mem_map.mpr ⟨_, hcomment, rfl⟩) _ List.mem_cons_self rfl
          (by simp [Lexeme.isWritten, ← first.implied, ht])
      · intro u hu ht g hg c hc
        obtain ⟨n, hn⟩ := others.exists_comment (others.lead_mem hu hg) hc
        rw [first.stop]
        exact htoken _ hn (by simp [Lexeme.isWritten, ← first.implied, ht]) rfl

/-- The groups after the one that leads to a token with text come after the token. -/
theorem AttachedAll.lead_last (h : AttachedAll xs tokens groups)
    (hordered : xs.Pairwise (Lexeme.Before src)) {u : Token} (hu : u ∈ tokens)
    (hw : u.implied = false) {g : CommentGroup} (hg : u.lead = some g) :
    ∃ before after, groups = before ++ g :: after ∧
      ∀ g' ∈ after, ∀ c ∈ g'.list, u.stop ≤ c.start := by
  induction h with
  | nil => cases hu
  | @cons comments t t' line groups more rest tokens first others ih =>
      obtain ⟨-, hrest, -⟩ := List.pairwise_append.mp hordered
      obtain ⟨htoken, hrest⟩ := List.pairwise_cons.mp hrest
      rcases List.mem_cons.mp hu with rfl | hu
      · obtain ⟨before, rfl⟩ := List.getLast?_eq_some_iff.mp (first.lead_last g hg)
        refine ⟨before, more, by simp, fun g' hg' c hc => ?_⟩
        obtain ⟨n, hn⟩ := others.exists_comment hg' hc
        rw [first.stop]
        exact htoken _ hn (by simp [Lexeme.isWritten, ← first.implied, hw]) rfl
      · obtain ⟨before, after, rfl, hafter⟩ := ih hrest hu
        exact ⟨groups ++ before, after, by simp, hafter⟩

/-- A token with text and a comment do not overlap. -/
theorem AttachedAll.token_or_comment (h : AttachedAll xs tokens groups)
    (hordered : xs.Pairwise (Lexeme.Before src)) {u : Token} (hu : u ∈ tokens)
    (hw : u.implied = false) {g : CommentGroup} (hg : g ∈ groups) {c : Comment} (hc : c ∈ g.list) :
    c.reach src ≤ u.start ∨ u.stop ≤ c.start := by
  obtain ⟨t, n, ht, -, -, hstart, hstop, himplied⟩ := h.exists_token hu
  obtain ⟨m, hm⟩ := h.exists_comment hg hc
  have hwritten : (Lexeme.token t n).isWritten = true := by simp [Lexeme.isWritten, ← himplied, hw]
  rw [hstart, hstop]
  -- either of the two may come first
  have : Std.Symm fun x y => Lexeme.Before src x y ∨ Lexeme.Before src y x := ⟨fun _ _ => Or.symm⟩
  have heither : xs.Pairwise fun x y => Lexeme.Before src x y ∨ Lexeme.Before src y x :=
    hordered.imp Or.inl
  rcases heither.forall hm ht (by simp) with hbefore | hbefore
  · exact .inl (hbefore rfl hwritten)
  · exact .inr (hbefore hwritten rfl)

theorem AttachedAll.tokens_eq_nil (h : AttachedAll xs tokens groups) (hxs : xs = []) :
    tokens = [] := by
  cases h with
  | nil => rfl
  | cons => simp at hxs

theorem AttachedAll.exists_last (h : AttachedAll xs tokens groups) {t : Token} {line : Nat}
    (hlast : xs.getLast? = some (.token t line)) :
    ∃ u, tokens.getLast? = some u ∧ u.kind = t.kind := by
  induction h with
  | nil comments =>
      have hmem := List.mem_of_getLast? hlast
      simp at hmem
  | @cons comments t₀ t' line₀ groups more rest tokens first others ih =>
      rw [List.getLast?_append, List.getLast?_cons, Option.some_or] at hlast
      cases hrest : rest.getLast? with
      | some x =>
          rw [hrest, Option.getD_some] at hlast
          obtain ⟨u, hu, hkind⟩ := ih (hrest.trans hlast)
          exact ⟨u, by rw [List.getLast?_cons, hu, Option.getD_some], hkind⟩
      | none =>
          obtain rfl := List.getLast?_eq_none_iff.mp hrest
          rw [hrest, Option.getD_none, Option.some.injEq, Lexeme.token.injEq] at hlast
          rw [others.tokens_eq_nil rfl]
          exact ⟨t', rfl, by rw [first.kind, hlast.1]⟩

theorem placed_of_chain {n : Nat} (hchain : Chain src n xs) (h : AttachedAll xs tokens groups)
    {t : Token} {line : Nat} (hlast : xs.getLast? = some (.token t line)) (heof : t.kind = .eof) :
    Placed src tokens groups := by
  obtain ⟨hall, hordered⟩ := hchain.spec
  exact {
    token_fits := fun u hu hw => by
      obtain ⟨t, n, ht, hkind, htext, hstart, hstop, himplied⟩ := h.exists_token hu
      have hfits : t.Fits src :=
        ((hall _ ht).2 (by simp [Lexeme.isWritten, ← himplied, hw])).2
      exact ⟨by rw [hstart, hstop]; exact hfits.start_le,
        by rw [hstart, hstop, hkind]; exact hfits.start_lt, by rw [hstop]; exact hfits.stop_le,
        by rw [hstart]; exact hfits.first, by rw [hstart, hstop]; exact hfits.ends,
        by rw [hstart, hstop, hkind, htext]; exact hfits.text,
        by rw [hkind, htext]; exact hfits.spelled⟩
    implied_kind := fun u hu hw => by
      obtain ⟨t, n, ht, hkind, -, -, -, himplied⟩ := h.exists_token hu
      exact hkind.trans ((hall _ ht).1.2 (himplied.symm.trans hw))
    comment_fits := fun g hg c hc => by
      obtain ⟨n, hn⟩ := h.exists_comment hg hc
      exact ((hall _ hn).2 rfl).2
    list_ne_nil := h.list_ne_nil
    tokens_ordered := h.tokens_ordered hordered
    comments_ordered := h.comments_ordered hordered
    token_or_comment := fun t ht hw g hg c hc => h.token_or_comment hordered ht hw hg hc
    lead_mem := fun t ht g hg => h.lead_mem ht hg
    lead_last := fun t ht hw g hg => h.lead_last hordered ht hw hg
    lead_before := (h.lead_ordered hordered).1
    lead_after := (h.lead_ordered hordered).2
    ends := by
      obtain ⟨u, hu, hkind⟩ := h.exists_last hlast
      exact ⟨u, hu, hkind.trans heof⟩ }

end

theorem length_byteOrderMark_le (src : Bytes) :
    (if Bytes.startsWith byteOrderMark src then byteOrderMark.length else 0) ≤ src.length := by
  split
  · rename_i h
    obtain ⟨rest, hrest⟩ := Option.isSome_iff_exists.mp h
    rw [Bytes.stripStart?_eq_some_iff.mp hrest]
    simp
  · exact Nat.zero_le _

/-- The tokens and comment groups of a text are those of the lexemes in it, the last of which is the end
of the file. -/
theorem exists_lexemes_of_lex? {name src : Bytes} {l : Lexed} (h : lex? name src = some l) :
    ∃ skip lexemes infos, lexFrom name src.length skip .start [] src = some (lexemes, infos) ∧
      Chain src (LexState.start.offset + skip) lexemes ∧ AttachedAll lexemes l.tokens l.comments ∧
      l.table = .ofText name src infos ∧
      ∃ t line, lexemes.getLast? = some (.token t line) ∧ t.kind = .eof := by
  have hskip := length_byteOrderMark_le src
  unfold lex? at h
  dsimp only at h
  generalize (if Bytes.startsWith byteOrderMark src then byteOrderMark.length else 0) = skip
    at h hskip
  split at h
  · cases h
  · split at h
    · cases h
    · rename_i lexemes infos hlex
      cases h
      obtain ⟨new, hnew, hchain, hlast⟩ :=
        exists_chain_of_lexFrom src skip .start [] rfl (Nat.zero_le _) hskip hlex
      rw [List.reverse_nil, List.nil_append] at hnew
      subst hnew
      have hbare : ∀ x ∈ lexemes, x.IsBare := fun x hx => (hchain.spec.1 x hx).1
      exact ⟨skip, lexemes, infos, hlex, hchain, attachedAll_attachAll 0 [] lexemes hbare, rfl,
        hlast⟩

/-- The lexer puts every token and comment where its text stands. -/
theorem placed_of_lex? {name src : Bytes} {l : Lexed} (h : lex? name src = some l) :
    Placed src l.tokens l.comments := by
  obtain ⟨skip, lexemes, infos, -, hchain, hattached, -, t, line, hlast, heof⟩ :=
    exists_lexemes_of_lex? h
  exact placed_of_chain hchain hattached hlast heof

end RetryWeave.Syntax
