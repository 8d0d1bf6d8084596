import RetryWeave.Proofs.Splice.Sites
import RetryWeave.Proofs.Splice.Weave

/-! # What an expansion leaves alone

The edits of a plan do not overlap. A body is replaced by a block that holds its text, a directive is
removed together with the line it stands alone on, and every other byte of the source is kept. -/

namespace RetryWeave

open Syntax

theorem slice_eq_drop_take (src : Bytes) (start stop : Nat) :
    Bytes.slice src start stop = (src.take stop).drop start :=
  (List.drop_take ..).symm

theorem mem_slice {src : Bytes} {start stop n : Nat} (hstart : start ≤ n) (hstop : n < stop)
    {b : UInt8} (hb : src[n]? = some b) : b ∈ Bytes.slice src start stop := by
  refine List.mem_of_getElem? (i := n - start) ?_
  rw [slice_eq_drop_take, List.getElem?_drop, Nat.add_sub_cancel' hstart,
    List.getElem?_take_of_lt hstop, hb]

namespace Edit

/-! ## Removing a comment -/

section

variable {src : Bytes} {n : Nat}

/-- The blanks in front of an offset. -/
def blanksBefore (src : Bytes) (n : Nat) : Bytes :=
  ((src.take n).reverse.takeWhile Ascii.isBlank).reverse

theorem isBlank_of_mem_blanksBefore {b : UInt8} (h : b ∈ blanksBefore src n) :
    Ascii.isBlank b = true :=
  List.mem_takeWhile_imp (List.mem_reverse.mp h)

theorem take_eq_append_blanksBefore (hn : n ≤ src.length) :
    src.take n = src.take (n - (blanksBefore src n).length) ++ blanksBefore src n := by
  have hlength : (src.take n).length = n := List.length_take_of_le hn
  have hsuffix : blanksBefore src n <:+ src.take n := by
    rw [← List.reverse_prefix, blanksBefore, List.reverse_reverse]
    exact List.takeWhile_prefix _
  obtain ⟨front, hfront⟩ := hsuffix
  have hle := congrArg List.length hfront
  rw [List.length_append, hlength] at hle
  have htake : (src.take n).take front.length = src.take (n - (blanksBefore src n).length) := by
    rw [List.take_take]
    congr 1
    omega
  rw [← htake, ← hfront, List.take_left]

theorem drop_blanksBefore (hn : n ≤ src.length) :
    (src.take n).reverse.drop ((src.take n).reverse.takeWhile Ascii.isBlank).length =
      (src.take (n - (blanksBefore src n).length)).reverse := by
  have hlength : ((src.take n).reverse.takeWhile Ascii.isBlank).length =
      (blanksBefore src n).reverse.length := by
    rw [blanksBefore, List.reverse_reverse]
  rw [hlength, take_eq_append_blanksBefore hn, List.reverse_append, List.drop_left]

theorem length_blanksBefore_le (hn : n ≤ src.length) : (blanksBefore src n).length ≤ n := by
  have hlength := congrArg List.length (take_eq_append_blanksBefore hn)
  rw [List.length_append, List.length_take_of_le hn] at hlength
  omega

/-- What may end a line. -/
def lineEndings : List Bytes :=
  [[], [Ascii.cr], [Ascii.newline], [Ascii.cr, Ascii.newline]]

def endingLength : Bytes → Nat
  | Ascii.cr :: Ascii.newline :: _ => 2
  | Ascii.cr :: _ => 1
  | Ascii.newline :: _ => 1
  | _ => 0

theorem exists_ending (after : Bytes) :
    ∃ ending ∈ lineEndings, ending <+: after ∧ ending.length = endingLength after := by
  unfold endingLength
  split
  · exact ⟨[Ascii.cr, Ascii.newline], by simp [lineEndings], ⟨_, rfl⟩, rfl⟩
  · exact ⟨[Ascii.cr], by simp [lineEndings], ⟨_, rfl⟩, rfl⟩
  · exact ⟨[Ascii.newline], by simp [lineEndings], ⟨_, rfl⟩, rfl⟩
  · exact ⟨[], by simp [lineEndings], List.nil_prefix, rfl⟩

/-- Whether a line starts after a text that is given from its end. -/
def startsLine : Bytes → Bool
  | [] => true
  | b :: _ => b == Ascii.newline

theorem startsLine_reverse_take (hn : n ≤ src.length) :
    startsLine (src.take n).reverse = decide (n = 0 ∨ src[n - 1]? = some Ascii.newline) := by
  cases n with
  | zero => rfl
  | succ n =>
      rw [List.take_succ_eq_append_getElem hn, List.reverse_append, Nat.add_sub_cancel,
        List.getElem?_eq_getElem hn, Bool.eq_iff_iff]
      simp [startsLine]

/-- Only what precedes a comment on its line decides whether the blanks before it and the end of the
line after it are removed too. -/
theorem ofComment_eq (src : Bytes) {c : Comment} (hc : c.start ≤ src.length) :
    ∃ ending ∈ lineEndings, ending <+: src.drop c.stop ∧ ofComment src c =
      let start := c.start - (blanksBefore src c.start).length
      if start = 0 ∨ src[start - 1]? = some Ascii.newline then
        ⟨start, c.stop + ending.length, []⟩
      else ⟨c.start, c.stop, []⟩ := by
  have hlength : ((src.take c.start).reverse.takeWhile Ascii.isBlank).length =
      (blanksBefore src c.start).length := by
    rw [blanksBefore, List.length_reverse]
  have hle := length_blanksBefore_le hc
  have hdef : ofComment src c =
      if !startsLine ((src.take c.start).reverse.drop
          ((src.take c.start).reverse.takeWhile Ascii.isBlank).length) then ⟨c.start, c.stop, []⟩
      else ⟨c.start - ((src.take c.start).reverse.takeWhile Ascii.isBlank).length,
        c.stop + endingLength (src.drop c.stop), []⟩ := rfl
  obtain ⟨ending, hmem, hprefix, hending⟩ := exists_ending (src.drop c.stop)
  refine ⟨ending, hmem, hprefix, ?_⟩
  rw [hdef, drop_blanksBefore hc, hlength, startsLine_reverse_take (by omega), hending]
  dsimp only
  generalize c.start - (blanksBefore src c.start).length = start
  by_cases hline : start = 0 ∨ src[start - 1]? = some Ascii.newline
  · rw [decide_eq_true hline, if_pos hline]
    rfl
  · rw [decide_eq_false hline, if_neg hline]
    rfl

end

/-- An edit removes a comment, and with it at most the blanks before it and the end of its line, if
nothing else stands on the line before it. -/
structure Removes (src : Bytes) (c : Comment) (e : Edit) : Prop where
  text_eq : e.text = []
  start_le : e.start ≤ c.start
  le_stop : c.stop ≤ e.stop
  stop_le : e.stop ≤ src.length
  blanks : ∀ b ∈ Bytes.slice src e.start c.start, Ascii.isBlank b = true
  ending : Bytes.slice src c.stop e.stop ∈ lineEndings
  alone : e.start < c.start ∨ c.stop < e.stop → e.start = 0 ∨ src[e.start - 1]? = some Ascii.newline

theorem removes_ofComment {src : Bytes} {c : Comment} (hc : c.Fits src) :
    (ofComment src c).Removes src c := by
  have hstop : c.stop ≤ src.length := hc.stop_le.trans hc.reach_le
  have hstart : c.start ≤ src.length := (Nat.le_add_right _ _).trans hstop
  obtain ⟨ending, hmem, hprefix, heq⟩ := ofComment_eq src hstart
  have hlength := hprefix.length_le
  rw [List.length_drop] at hlength
  have hblanks := length_blanksBefore_le hstart
  rw [heq]
  dsimp only
  split
  · rename_i hline
    exact {
      text_eq := rfl
      start_le := Nat.sub_le _ _
      le_stop := Nat.le_add_right _ _
      stop_le := by dsimp only; omega
      blanks := fun b hb => by
        have hslice : Bytes.slice src (c.start - (blanksBefore src c.start).length) c.start =
            blanksBefore src c.start := by
          rw [slice_eq_drop_take, take_eq_append_blanksBefore hstart, List.drop_left']
          rw [List.length_take_of_le (by omega)]
        exact isBlank_of_mem_blanksBefore (hslice ▸ hb)
      ending := by
        rw [Bytes.slice, Nat.add_sub_cancel_left, ← List.prefix_iff_eq_take.mp hprefix]
        exact hmem
      alone := fun _ => hline }
  · exact {
      text_eq := rfl
      start_le := le_rfl
      le_stop := le_rfl
      stop_le := hstop
      blanks := by simp [Bytes.slice]
      ending := by simp [Bytes.slice, lineEndings]
      alone := by simp }

/-- What is not blank stays in front of a comment that is removed. -/
theorem Removes.le_start {src : Bytes} {c : Comment} {e : Edit} (h : e.Removes src c) {n : Nat}
    (hn : n < c.start) {b : UInt8} (hb : src[n]? = some b) (hblank : Ascii.isBlank b = false) :
    n + 1 ≤ e.start := by
  by_contra hlt
  have hmem : b ∈ Bytes.slice src e.start c.start := mem_slice (by omega) hn hb
  simp [h.blanks b hmem] at hblank

end Edit

/-! ## Lines -/

namespace Syntax

theorem getElem?_lineEnd {src : Bytes} {n : Nat} (h : lineEnd src n < src.length) :
    src[lineEnd src n]? = some Ascii.newline := by
  have hsplit := List.takeWhile_append_dropWhile (p := fun b => decide (b ≠ Ascii.newline))
    (l := src.drop n)
  have hlength := congrArg List.length hsplit
  rw [List.length_append, List.length_drop] at hlength
  unfold lineEnd at h ⊢
  rw [← List.getElem?_drop]
  cases hrest : (src.drop n).dropWhile fun b => decide (b ≠ Ascii.newline) with
  | nil =>
      rw [hrest, List.length_nil] at hlength
      omega
  | cons b rest =>
      have hb := List.head?_dropWhile_not (fun b => decide (b ≠ Ascii.newline)) (src.drop n)
      rw [hrest, List.head?_cons] at hb
      rw [hrest] at hsplit
      have hget : ((src.drop n).takeWhile (fun b => decide (b ≠ Ascii.newline)) ++ b :: rest)[
          ((src.drop n).takeWhile fun b => decide (b ≠ Ascii.newline)).length]? = some b := by
        rw [List.getElem?_append_right le_rfl, Nat.sub_self, List.getElem?_cons_zero]
      rw [hsplit] at hget
      rw [hget]
      simpa using hb

/-- The line of a comment is over before anything else starts. -/
theorem lineEnd_lt {src : Bytes} {n m : Nat} (hle : lineEnd src n ≤ m) {b : UInt8}
    (hb : src[m]? = some b) (hne : b ≠ Ascii.newline) : lineEnd src n < m := by
  refine lt_of_le_of_ne hle fun heq => ?_
  obtain ⟨hlt, -⟩ := List.getElem?_eq_some_iff.mp hb
  have hnewline : src[lineEnd src n]? = some Ascii.newline := getElem?_lineEnd (by omega)
  rw [heq, hb] at hnewline
  exact hne (Option.some.inj hnewline)

end Syntax

namespace Edit

variable {src : Bytes} {c : Comment} {e : Edit}

theorem Removes.stop_le_lineEnd (h : e.Removes src c) (hc : c.Fits src) (hline : c.isLine = true) :
    e.stop ≤ lineEnd src c.start + 1 := by
  have hstop : c.stop ≤ lineEnd src c.start := by
    have hle := hc.stop_le
    rwa [Comment.reach, if_pos hline] at hle
  have hending := h.ending
  have hle := h.le_stop
  have hlength : (Bytes.slice src c.stop e.stop).length = e.stop - c.stop := by
    rw [slice_eq_drop_take, List.length_drop, List.length_take_of_le h.stop_le]
  by_cases hshort : e.stop ≤ c.stop + 1
  · omega
  · -- a carriage return stands before the end of the line
    have hslice : Bytes.slice src c.stop e.stop = [Ascii.cr, Ascii.newline] := by
      simp only [lineEndings, List.mem_cons, List.not_mem_nil, or_false] at hending
      rcases hending with heq | heq | heq | heq
      · rw [heq, List.length_nil] at hlength
        omega
      · rw [heq, List.length_singleton] at hlength
        omega
      · rw [heq, List.length_singleton] at hlength
        omega
      · exact heq
    have hcr : src[c.stop]? = some Ascii.cr := by
      have hhead := congrArg (·[0]?) hslice
      simp only [slice_eq_drop_take] at hhead
      rwa [List.getElem?_drop, Nat.add_zero, List.getElem?_take_of_lt (by omega)] at hhead
    have hne : c.stop ≠ lineEnd src c.start := fun heq => by
      obtain ⟨hlt, -⟩ := List.getElem?_eq_some_iff.mp hcr
      have hnewline := getElem?_lineEnd (heq ▸ hlt)
      rw [← heq, hcr] at hnewline
      cases hnewline
    rw [hslice, List.length_cons, List.length_singleton] at hlength
    omega

/-- A comment that is removed is gone before what stands after its line. -/
theorem Removes.stop_le_of_lineEnd_le (h : e.Removes src c) (hc : c.Fits src)
    (hline : c.isLine = true) {n : Nat} (hn : c.reach src ≤ n) {b : UInt8} (hb : src[n]? = some b)
    (hne : b ≠ Ascii.newline) : e.stop ≤ n := by
  rw [Comment.reach, if_pos hline] at hn
  have hlt := lineEnd_lt hn hb hne
  have hstop := h.stop_le_lineEnd hc hline
  omega

/-- Two comments that are removed leave the text between them. -/
theorem stop_ofComment_le {c' : Comment} (hc : c.Fits src) (hc' : c'.Fits src)
    (hline : c.isLine = true) (hle : c.reach src ≤ c'.start) :
    (ofComment src c).stop ≤ (ofComment src c').start := by
  have hremoves := removes_ofComment hc
  have hremoves' := removes_ofComment hc'
  have hstop := hremoves.stop_le_lineEnd hc hline
  rw [Comment.reach, if_pos hline] at hle
  have hlt := lineEnd_lt hle hc'.slash (by decide)
  obtain ⟨hlength, -⟩ := List.getElem?_eq_some_iff.mp hc'.slash
  have hnewline : src[lineEnd src c.start]? = some Ascii.newline := getElem?_lineEnd (by omega)
  exact hstop.trans (hremoves'.le_start hlt hnewline (by decide))

end Edit

/-! ## The edits of an expansion -/

theorem Directive.isLine_of_isSome {name : Bytes} {c : Comment}
    (h : (Directive.args? name c.text).isSome = true) : c.isLine = true := by
  unfold Directive.args? at h
  split at h
  · cases h
  all_goals
    rename_i hstrip
    have htext := Bytes.stripStart?_eq_some_iff.mp hstrip
    rw [Comment.isLine, htext]
    rfl

namespace Expansion

/-- The edit that replaces the body. -/
def bodyEdit (e : Expansion) (src : Bytes) : Edit :=
  ⟨e.loop.body.lbrace.getD 0, (e.loop.body.rbrace.plus 1).getD 0, e.loop.blockText src⟩

theorem edits_eq (e : Expansion) (src : Bytes) :
    e.edits src = e.bodyEdit src :: e.comments.map (Edit.ofComment src) := rfl

namespace Accepted

variable {src : Bytes} {tokens : List Token} {o : Options} {f : File} {g : CommentGroup}
  {e : Expansion} {start lb rb : Nat}

theorem bodyEdit_eq (h : e.Accepted o f g) (hstands : e.decl.Stands src start lb rb) :
    e.bodyEdit src = ⟨lb, rb + 1, e.loop.blockText src⟩ := by
  have hlbrace := hstands.lbrace_eq
  have hrbrace := hstands.rbrace_eq
  rw [h.body, Option.bind_some] at hlbrace hrbrace
  simp [bodyEdit, hlbrace, hrbrace, Pos.plus]

theorem isLine (h : e.Accepted o f g) {c : Comment} (hc : c ∈ e.comments) : c.isLine = true := by
  rw [h.comments, List.mem_filter] at hc
  exact Directive.isLine_of_isSome hc.2

theorem comment_spec (hf : FilePlaced src tokens f) (h : e.Accepted o f g)
    (hstands : e.decl.Stands src start lb rb) {c : Comment} (hc : c ∈ e.comments) :
    c.Fits src ∧ c.isLine = true ∧ c.reach src ≤ start :=
  ⟨hf.placed.comment_fits g h.group_mem c (h.comment_mem hc), h.isLine hc,
    (hf.doc_before h.decl_mem h.doc).2 start hstands.start_eq c (h.comment_mem hc)⟩

/-- A function starts with a letter. -/
theorem start_byte (hstands : e.decl.Stands src start lb rb) :
    src[start]? = some 'f'.toNat.toUInt8 := by
  have hhead := congrArg (·[0]?) hstands.keyword
  simp only [slice_eq_drop_take] at hhead
  rwa [List.getElem?_drop, Nat.add_zero, List.getElem?_take_of_lt (by omega)] at hhead

/-- The comments are removed before the function starts. -/
theorem stop_ofComment_le_start (hf : FilePlaced src tokens f) (h : e.Accepted o f g)
    (hstands : e.decl.Stands src start lb rb) {c : Comment} (hc : c ∈ e.comments) :
    (Edit.ofComment src c).stop ≤ start := by
  obtain ⟨hfits, hline, hreach⟩ := h.comment_spec hf hstands hc
  exact (Edit.removes_ofComment hfits).stop_le_of_lineEnd_le hfits hline hreach
    (start_byte hstands) (by decide)

theorem edits_within (hf : FilePlaced src tokens f) (h : e.Accepted o f g) {ed : Edit}
    (hed : ed ∈ e.edits src) : ed.Within src := by
  obtain ⟨start, lb, rb, hstands⟩ := hf.exists_stands h.decl_mem h.body
  rw [edits_eq] at hed
  rcases List.mem_cons.mp hed with rfl | hed
  · rw [h.bodyEdit_eq hstands]
    obtain ⟨hlength, -⟩ := List.getElem?_eq_some_iff.mp hstands.rbrace
    exact ⟨hstands.lt.trans (Nat.lt_succ_self rb), hlength⟩
  · obtain ⟨c, hc, rfl⟩ := List.mem_map.mp hed
    obtain ⟨hfits, -, -⟩ := h.comment_spec hf hstands hc
    have hremoves := Edit.removes_ofComment hfits
    have htwo := hfits.two_le
    have hstart := hremoves.start_le
    have hstop := hremoves.le_stop
    unfold Comment.stop at hstop
    exact ⟨by omega, hremoves.stop_le⟩

theorem edits_apart (hf : FilePlaced src tokens f) (h : e.Accepted o f g) :
    (e.edits src).Pairwise Edit.Apart := by
  obtain ⟨start, lb, rb, hstands⟩ := hf.exists_stands h.decl_mem h.body
  rw [edits_eq, List.pairwise_cons, List.pairwise_map]
  constructor
  · intro ed hed
    obtain ⟨c, hc, rfl⟩ := List.mem_map.mp hed
    have hstop := h.stop_ofComment_le_start hf hstands hc
    have hkeyword := hstands.keyword_le
    rw [h.bodyEdit_eq hstands]
    exact .inr (by dsimp only; omega)
  · have hordered := (List.pairwise_flatMap.mp hf.placed.comments_ordered).1 g h.group_mem
    have hsublist : e.comments.Sublist g.list := h.comments ▸ List.filter_sublist
    refine (hordered.sublist hsublist).imp_of_mem fun {c c'} hc hc' hle => ?_
    obtain ⟨hfits, hline, -⟩ := h.comment_spec hf hstands hc
    obtain ⟨hfits', -, -⟩ := h.comment_spec hf hstands hc'
    exact .inl (Edit.stop_ofComment_le hfits hfits' hline hle)

/-- All edits of an expansion end with the body. -/
theorem edits_stop_le (hf : FilePlaced src tokens f) (h : e.Accepted o f g)
    (hstands : e.decl.Stands src start lb rb) {ed : Edit} (hed : ed ∈ e.edits src) :
    ed.stop ≤ rb + 1 := by
  rw [edits_eq] at hed
  rcases List.mem_cons.mp hed with rfl | hed
  · rw [h.bodyEdit_eq hstands]
  · obtain ⟨c, hc, rfl⟩ := List.mem_map.mp hed
    have hstop := h.stop_ofComment_le_start hf hstands hc
    have hkeyword := hstands.keyword_le
    have hlt := hstands.lt
    omega

/-- The edits of an expansion start after the bodies before it. -/
theorem le_edits_start (hf : FilePlaced src tokens f) {e' : Expansion} {g' : CommentGroup}
    (h' : e'.Accepted o f g') (hstands : e.decl.Stands src start lb rb)
    (hbefore : FuncDecl.Before tokens e.decl e'.decl) {ed : Edit} (hed : ed ∈ e'.edits src) :
    rb + 1 ≤ ed.start := by
  obtain ⟨start', lb', rb', hstands'⟩ := hf.exists_stands h'.decl_mem h'.body
  obtain ⟨hstart, hdoc⟩ := hf.stands_before hbefore hstands hstands'.start_eq
  rw [edits_eq] at hed
  rcases List.mem_cons.mp hed with rfl | hed
  · have hkeyword := hstands'.keyword_le
    rw [h'.bodyEdit_eq hstands']
    dsimp only
    omega
  · obtain ⟨c, hc, rfl⟩ := List.mem_map.mp hed
    obtain ⟨hfits, -, -⟩ := h'.comment_spec hf hstands' hc
    have hlt := hdoc g' h'.doc c (h'.comment_mem hc)
    exact (Edit.removes_ofComment hfits).le_start hlt hstands.rbrace (by decide)

end Accepted

end Expansion

/-! ## The block that replaces a body -/

/-- The last result of a declaration that can fail is named `error`. -/
theorem Signature.last_of_fallible? {signature : Signature} {results : FieldList}
    (h : signature.fallible? = some results) : ∃ field id, results.list.getLast? = some field ∧
      field.type = .ident id ∧ id.name = Bytes.ofString "error" := by
  obtain ⟨-, hlast⟩ := Option.filter_eq_some_iff.mp h
  split at hlast
  · rename_i doc names id tag comment hget
    exact ⟨_, id, hget, rfl, by simpa using hlast⟩
  · cases hlast

namespace Syntax

theorem FieldList.stop_of_closing {l : FieldList} {n : Nat} (h : l.closing = some n) :
    l.stop = some (n + 1) := by
  cases l with
  | mk opening list closing =>
      dsimp only at h
      rw [h, FieldList.stop]

/-- A list that is one bare name stands where the name stands. -/
theorem FieldList.extent_of_ident (n : Nat) (name : Bytes) :
    (FieldList.mk none [⟨none, [], .ident ⟨some n, name⟩, none, none⟩] none).start = some n ∧
      (FieldList.mk none [⟨none, [], .ident ⟨some n, name⟩, none, none⟩] none).stop =
        some (n + name.length) :=
  ⟨rfl, by simp [FieldList.stop, lastStop, Field.stop, Expr.stop, Ident.stop, Pos.plus]⟩

theorem FilePlaced.parens_spec {src : Bytes} {tokens : List Token} {f : File}
    (hf : FilePlaced src tokens f) {t u : Token} (hpair : [t, u].Sublist tokens)
    (ht : t.kind = .lparen) (hu : u.kind = .rparen) :
    t.start < u.start ∧ u.stop = u.start + 1 := by
  have htfits := hf.placed.fits (hpair.subset List.mem_cons_self) (by simp [ht])
  have humem : u ∈ tokens := hpair.subset (by simp)
  have hufits := hf.placed.fits humem (by simp [hu])
  obtain ⟨htstop, -⟩ := htfits.getElem?_of_spelling (by simp [ht])
    (show _ = [Ascii.lparen] by rw [ht]; rfl)
  obtain ⟨hustop, -⟩ := hufits.getElem?_of_spelling (by simp [hu])
    (show _ = [Ascii.rparen] by rw [hu]; rfl)
  have hle := hf.placed.stop_le_start hpair (by simp [ht]) (by simp [hu])
  exact ⟨by omega, hustop⟩

end Syntax

namespace Expansion.Accepted

variable {src : Bytes} {tokens : List Token} {o : Options} {f : File} {g : CommentGroup}
  {e : Expansion} {start lb rb : Nat}

/-- The results stand between the keyword and the body. -/
theorem exists_results (hf : FilePlaced src tokens f) (h : e.Accepted o f g)
    (hstands : e.decl.Stands src start lb rb) :
    ∃ a z, e.loop.results.start = some a ∧ e.loop.results.stop = some z ∧ start + 4 ≤ a ∧
      a < z ∧ z ≤ lb := by
  obtain ⟨m, hm, hsublist⟩ := hf.marked e.decl h.decl_mem
  obtain ⟨l, r, hbody, hlkind, -, hlstart, -⟩ := hm.body e.loop.body h.body
  obtain rfl : m.func.start = start := Option.some.inj (hm.start.symm.trans hstands.start_eq)
  obtain rfl : l.start = lb := by
    have hlbrace := hstands.lbrace_eq
    rw [h.body, Option.bind_some, hlstart] at hlbrace
    exact Option.some.inj hlbrace
  obtain ⟨-, hkeyword⟩ := hf.keyword_spec hm hsublist
  have hafter : ∀ t ∈ m.results, t.kind ≠ .semicolon → m.func.start + 4 ≤ t.start :=
    fun t ht hkind => hkeyword ▸ hf.placed.stop_le_start
      (FuncMarks.func_sublist hsublist (List.mem_append_left _ ht)) (by simp [hm.kind]) hkind
  have hbefore : ∀ t ∈ m.results, t.kind ≠ .semicolon → t.stop ≤ l.start :=
    fun t ht hkind => hf.placed.stop_le_start
      (FuncMarks.results_body_sublist hsublist ht (by simp [hbody])) hkind (by simp [hlkind])
  have hresults := FuncMarks.results_sublist hsublist
  rcases hm.results e.loop.results (Signature.results_of_fallible? h.results) with
    ⟨t, u, hpair, htkind, hukind, hopen, hclose⟩ | ⟨type, heq, hident⟩
  · -- in parentheses
    rw [hpair] at hafter hbefore hresults
    obtain ⟨hlt, hstop⟩ := hf.parens_spec hresults htkind hukind
    have hge := hafter t (by simp) (by simp [htkind])
    have hle := hbefore u (by simp) (by simp [hukind])
    refine ⟨t.start, u.start + 1, ?_, FieldList.stop_of_closing hclose, hge, by omega, by omega⟩
    simp [FieldList.start, hopen]
  · -- the name `error` alone
    obtain ⟨field, id, hlast, htype, hname⟩ := Signature.last_of_fallible? h.results
    rw [heq, List.getLast?_singleton] at hlast
    obtain rfl := Option.some.inj hlast
    dsimp only at htype
    obtain ⟨t, hsingle, htkind, rfl⟩ := hident id htype
    rw [hsingle] at hafter hbefore hresults
    have hfits := hf.placed.fits (hresults.subset List.mem_cons_self) (by simp [htkind])
    have hstop := hfits.stop_eq (by simp [htkind])
    have hpos : 0 < t.text.length := by
      rw [show t.text = Bytes.ofString "error" from hname]
      decide
    have hle := hbefore t (by simp) (by simp [htkind])
    have hge := hafter t (by simp) (by simp [htkind])
    obtain ⟨hstart, hend⟩ := FieldList.extent_of_ident t.start t.text
    rw [← htype, ← heq] at hstart hend
    exact ⟨t.start, t.start + t.text.length, hstart, hend, hge, by omega, by omega⟩

/-- The block holds the text of the results and of the body as it is. -/
theorem blockText_eq (h : e.Accepted o f g) (hstands : e.decl.Stands src start lb rb) {a z : Nat}
    (hstart : e.loop.results.start = some a) (hstop : e.loop.results.stop = some z) :
    ∃ front back, e.loop.blockText src =
      front ++ Bytes.slice src a z ++ " " ++ Bytes.slice src lb (rb + 1) ++ back := by
  have hlbrace := hstands.lbrace_eq
  have hrbrace := hstands.rbrace_eq
  rw [h.body, Option.bind_some] at hlbrace hrbrace
  refine ⟨"\x7b\n" ++ e.loop.helper ++ " := func() ",
    "\n" ++ (e.loop.stmts.flatMap fun s => Layout.stmtText s ++ [Ascii.newline]) ++ "\x7d", ?_⟩
  simp only [RetryLoop.blockText, RetryLoop.textBetween, hstart, hstop, hlbrace, hrbrace, Pos.plus,
    Option.map_some, Option.getD_some, List.append_assoc]

end Expansion.Accepted

/-! ## What the edits spare -/

namespace Edit

/-- An edit does not touch a part of the source. -/
def Spares (ed : Edit) (start stop : Nat) : Prop := ed.stop ≤ start ∨ stop ≤ ed.start

/-- An edit replaces a part of the source as a whole. -/
def Contains (ed : Edit) (start stop : Nat) : Prop := ed.start ≤ start ∧ stop ≤ ed.stop

end Edit

namespace Expansion.Accepted

variable {src : Bytes} {tokens : List Token} {o : Options} {f : File} {g : CommentGroup}
  {e : Expansion}

/-- The braces of the body are tokens. -/
theorem exists_braces (hf : FilePlaced src tokens f) (h : e.Accepted o f g) :
    ∃ l r, l ∈ tokens ∧ r ∈ tokens ∧ l.implied = false ∧ r.implied = false ∧
      l.stop ≤ r.start ∧ (e.bodyEdit src).start = l.start ∧ (e.bodyEdit src).stop = r.stop := by
  obtain ⟨m, hm, hsublist⟩ := hf.marked e.decl h.decl_mem
  obtain ⟨l, r, hbody, hlkind, hrkind, hlstart, hrstart⟩ := hm.body e.loop.body h.body
  have hbraces : [l, r].Sublist tokens := hbody ▸ FuncMarks.body_sublist hsublist
  have hl : l ∈ tokens := hbraces.subset List.mem_cons_self
  have hr : r ∈ tokens := hbraces.subset (by simp)
  have hrfits := hf.placed.fits hr (by simp [hrkind])
  obtain ⟨hrstop, -⟩ := hrfits.getElem?_of_spelling (by simp [hrkind])
    (show _ = [Ascii.rbrace] by rw [hrkind]; rfl)
  refine ⟨l, r, hl, hr, hf.placed.implied_eq_false hl (by simp [hlkind]),
    hf.placed.implied_eq_false hr (by simp [hrkind]),
    hf.placed.stop_le_start hbraces (by simp [hlkind]) (by simp [hrkind]), ?_, ?_⟩
  · simp [bodyEdit, hlstart]
  · simp [bodyEdit, hrstart, Pos.plus, hrstop]

/-- A token is part of the body or stands beside it. -/
theorem bodyEdit_token (hf : FilePlaced src tokens f) (h : e.Accepted o f g) {t : Token}
    (ht : t ∈ tokens) (hwritten : t.implied = false) :
    (e.bodyEdit src).Spares t.start t.stop ∨ (e.bodyEdit src).Contains t.start t.stop := by
  obtain ⟨l, r, hl, hr, hlwritten, hrwritten, hle, hstart, hstop⟩ := h.exists_braces hf
  have hlfits := hf.placed.token_fits l hl hlwritten
  have hrfits := hf.placed.token_fits r hr hrwritten
  have hltrich := hf.placed.token_cases ht hl hwritten hlwritten
  have hrtrich := hf.placed.token_cases ht hr hwritten hrwritten
  have hlle := hlfits.start_le
  have hrle := hrfits.start_le
  unfold Edit.Spares Edit.Contains
  rw [hstart, hstop]
  rcases hltrich with rfl | hl | hl <;> rcases hrtrich with rfl | hr | hr <;> omega

/-- So does a comment. -/
theorem bodyEdit_comment (hf : FilePlaced src tokens f) (h : e.Accepted o f g)
    {k : CommentGroup} (hk : k ∈ f.comments) {c : Comment} (hc : c ∈ k.list) :
    (e.bodyEdit src).Spares c.start (c.reach src) ∨
      (e.bodyEdit src).Contains c.start (c.reach src) := by
  obtain ⟨l, r, hl, hr, hlwritten, hrwritten, hle, hstart, hstop⟩ := h.exists_braces hf
  have hlcases := hf.placed.token_or_comment l hl hlwritten k hk c hc
  have hrcases := hf.placed.token_or_comment r hr hrwritten k hk c hc
  have hlle := (hf.placed.token_fits l hl hlwritten).start_le
  have hrle := (hf.placed.token_fits r hr hrwritten).start_le
  unfold Edit.Spares Edit.Contains
  rw [hstart, hstop]
  rcases hlcases with hl | hl <;> rcases hrcases with hr | hr <;> omega

end Expansion.Accepted

section

variable {src : Bytes} {tokens : List Token} {f : File} {c : Comment} {k : CommentGroup}

theorem ofComment_spares_token (hf : FilePlaced src tokens f) (hk : k ∈ f.comments)
    (hc : c ∈ k.list) (hline : c.isLine = true) {t : Token} (ht : t ∈ tokens)
    (hwritten : t.implied = false) (hlt : t.start < t.stop) :
    (Edit.ofComment src c).Spares t.start t.stop := by
  have hfits := hf.placed.comment_fits k hk c hc
  have htfits := hf.placed.token_fits t ht hwritten
  have hremoves := Edit.removes_ofComment hfits
  rcases hf.placed.token_or_comment t ht hwritten k hk c hc with hbefore | hafter
  · left
    cases hb : src[t.start]? with
    | none => exact hremoves.stop_le.trans (List.getElem?_eq_none_iff.mp hb)
    | some b =>
        refine hremoves.stop_le_of_lineEnd_le hfits hline hbefore hb ?_
        rintro rfl
        exact absurd (htfits.first _ hb) (by decide)
  · right
    -- the last byte of the token is no blank
    obtain ⟨b, hb⟩ : ∃ b, src[t.stop - 1]? = some b :=
      ⟨_, List.getElem?_eq_getElem (by have := htfits.stop_le; omega)⟩
    have hlast : (Bytes.slice src t.start t.stop).getLast? = some b := by
      rw [slice_eq_drop_take, List.getLast?_drop, List.length_take_of_le htfits.stop_le,
        if_neg (by omega), List.getLast?_take, if_neg (by omega), hb, Option.some_or]
    have hsolid := htfits.ends b hlast
    have hblank : Ascii.isBlank b = false := by
      cases hblank : Ascii.isBlank b with
      | false => rfl
      | true => simp [isSolid, hblank] at hsolid
    have hstart := hremoves.le_start (show t.stop - 1 < c.start by omega) hb hblank
    omega

theorem ofComment_spares_comment (hf : FilePlaced src tokens f) (hk : k ∈ f.comments)
    (hc : c ∈ k.list) (hline : c.isLine = true) {k' : CommentGroup} (hk' : k' ∈ f.comments)
    {c' : Comment} (hc' : c' ∈ k'.list) (hline' : c'.isLine = true) (hne : c' ≠ c) :
    (Edit.ofComment src c).Spares c'.start (c'.reach src) := by
  have hfits := hf.placed.comment_fits k hk c hc
  have hfits' := hf.placed.comment_fits k' hk' c' hc'
  have hremoves := Edit.removes_ofComment hfits
  rcases hf.placed.comment_cases hk hc hk' hc' (Ne.symm hne) with hbefore | hafter
  · exact .inl (hremoves.stop_le_of_lineEnd_le hfits hline hbefore hfits'.slash (by decide))
  · right
    rw [Comment.reach, if_pos hline'] at hafter ⊢
    have hlt := lineEnd_lt hafter hfits.slash (by decide)
    obtain ⟨hlength, -⟩ := List.getElem?_eq_some_iff.mp hfits.slash
    have hnewline : src[lineEnd src c'.start]? = some Ascii.newline :=
      getElem?_lineEnd (by omega)
    exact (Nat.le_succ _).trans (hremoves.le_start hlt hnewline (by decide))

end

/-! ## The frame of a plan -/

namespace Plan

variable {src : Bytes} {tokens : List Token} {o : Options} {name : Bytes} {p : Plan}

/-- All edits of a plan. -/
def edits (p : Plan) (src : Bytes) : List Edit := p.expansions.flatMap (·.edits src)

theorem edits_apart (h : Plan.ofSource? o name src = some p) (hf : FilePlaced src tokens p.file) :
    (p.edits src).Pairwise Edit.Apart := by
  obtain ⟨haccepted, hordered⟩ := expansions_spec h hf
  refine List.pairwise_flatMap.mpr ⟨fun e he => ?_, ?_⟩
  · obtain ⟨g, hg⟩ := haccepted e he
    exact hg.edits_apart hf
  · refine hordered.imp_of_mem fun {e e'} he he' hbefore ed hed ed' hed' => ?_
    obtain ⟨g, hg⟩ := haccepted e he
    obtain ⟨g', hg'⟩ := haccepted e' he'
    obtain ⟨start, lb, rb, hstands⟩ := hf.exists_stands hg.decl_mem hg.body
    exact .inl ((hg.edits_stop_le hf hstands hed).trans
      (Expansion.Accepted.le_edits_start hf hg' hstands hbefore.decl hed'))

/-- Two directives on a function, one of them on an indented line that ends in a carriage return, a
directive after its body and one on a type. -/
def mixedSource : Bytes :=
  "package p\n\n// F is retried.\n\t//retry:onfailure 3\r\n//retry:onfailure 5\n" ++
    "func f() (int, error) \x7b return 1, nil \x7d //retry:onfailure\n\n" ++
    "//retry:onfailure\ntype T int\n"

/-- The body is replaced, and the two lines in front of the function are removed. -/
theorem edits_mixedSource : ∃ p ∈ Plan.ofSource? .standard "a.go" mixedSource,
    (p.edits mixedSource).map (fun e => (e.start, e.stop)) = [(92, 109), (28, 50), (50, 70)] ∧
    p.diagnostics.length = 2 := by
  decide +kernel

/-- A directive that is rejected belongs to no expansion. -/
theorem notMem_of_rejected (h : Plan.ofSource? o name src = some p)
    (hf : FilePlaced src tokens p.file) {d : DirectiveGroup}
    (hd : d ∈ DirectiveGroup.ofFile o.directive p.file)
    (hrejected : (rule o name p.file p.file.idents d).expansion? = none) {c : Comment}
    (hc : c ∈ d.comments) {e : Expansion} (he : e ∈ p.expansions) : c ∉ e.comments := by
  intro hce
  obtain ⟨k, hk, hd⟩ := List.mem_flatMap.mp hd
  rw [expansions_eq h] at he
  obtain ⟨k', hk', he⟩ := List.mem_flatMap.mp he
  have haccepted := accepted_of_mem hf hk' he
  obtain rfl : k = k' := hf.placed.group_eq_of_mem hk hk' (DirectiveGroup.mem_comments_ofComments_iff.mp ⟨d, hd, hc⟩).1
    (haccepted.comment_mem hce)
  obtain ⟨d', hd', he⟩ := List.mem_filterMap.mp he
  rcases DirectiveGroup.ofComments_cases o.directive (Owner.index p.file) k with hnone | ⟨x, hsingle⟩
  · rw [expansion?_of_owner_eq_none (hnone d' hd')] at he
    cases he
  · rw [hsingle, List.mem_singleton] at hd hd'
    rw [hd', ← hd, hrejected] at he
    cases he

/-- How the text with all edits of a plan follows from the source. -/
structure Frame (o : Options) (name src : Bytes) (p : Plan) (tokens : List Token) : Prop where
  /-- One edit replaces the body of an expanded function, and one removes each directive among the
  comments that document it. -/
  edits_eq : ∀ e ∈ p.expansions, ∃ g, e.decl ∈ p.file.funcs ∧ e.decl.doc = some g ∧
    e.edits src = e.bodyEdit src ::
      (g.list.filter fun c => (Directive.args? o.directive c.text).isSome).map (Edit.ofComment src)
  within : ∀ ed ∈ p.edits src, ed.Within src
  apart : (p.edits src).Pairwise Edit.Apart
  /-- A directive lies within its line; with it go at most the blanks before it and one end of a
  line after it. -/
  removes : ∀ e ∈ p.expansions, ∀ c ∈ e.comments, c.stop ≤ lineEnd src c.start ∧
    (Edit.ofComment src c).Removes src c
  /-- What no edit covers is kept once and in order. -/
  spliced : ∃ woven, Edit.Spliced src (p.edits src) (p.edited src) woven
  /-- The block that replaces a body holds the results and the body, with its braces, verbatim. -/
  block : ∀ e ∈ p.expansions, ∃ start lb rb a z front back, e.decl.Stands src start lb rb ∧
    e.loop.results.start = some a ∧ e.loop.results.stop = some z ∧ start + 4 ≤ a ∧ a < z ∧ z ≤ lb ∧
    e.bodyEdit src = ⟨lb, rb + 1,
      front ++ Bytes.slice src a z ++ " " ++ Bytes.slice src lb (rb + 1) ++ back⟩
  /-- A token is not touched, unless it is part of a body that is replaced. -/
  tokens_spared : ∀ t ∈ tokens, t.implied = false → t.start < t.stop → ∀ ed ∈ p.edits src,
    ed.Spares t.start t.stop ∨
      ∃ e ∈ p.expansions, ed = e.bodyEdit src ∧ ed.Contains t.start t.stop
  /-- Neither is a directive that is rejected. -/
  rejected_spared : ∀ d ∈ DirectiveGroup.ofFile o.directive p.file,
    (rule o name p.file p.file.idents d).expansion? = none → ∀ c ∈ d.comments,
    ∀ ed ∈ p.edits src, ed.Spares c.start (lineEnd src c.start) ∨
      ∃ e ∈ p.expansions, ed = e.bodyEdit src ∧ ed.Contains c.start (lineEnd src c.start)

theorem frame_of_placed (h : Plan.ofSource? o name src = some p)
    (hf : FilePlaced src tokens p.file) : Frame o name src p tokens := by
  obtain ⟨haccepted, -⟩ := expansions_spec h hf
  have hwithin : ∀ ed ∈ p.edits src, ed.Within src := fun ed hed => by
    obtain ⟨e, he, hed⟩ := List.mem_flatMap.mp hed
    obtain ⟨g, hg⟩ := haccepted e he
    exact hg.edits_within hf hed
  have hapart := edits_apart h hf
  exact {
    edits_eq := fun e he => by
      obtain ⟨g, hg⟩ := haccepted e he
      exact ⟨g, hg.decl_mem, hg.doc, by rw [Expansion.edits_eq, hg.comments]⟩
    within := hwithin
    apart := hapart
    removes := fun e he c hc => by
      obtain ⟨g, hg⟩ := haccepted e he
      obtain ⟨start, lb, rb, hstands⟩ := hf.exists_stands hg.decl_mem hg.body
      obtain ⟨hfits, hline, -⟩ := hg.comment_spec hf hstands hc
      have hstop := hfits.stop_le
      rw [Comment.reach, if_pos hline] at hstop
      exact ⟨hstop, Edit.removes_ofComment hfits⟩
    spliced := Edit.exists_spliced hwithin hapart
    block := fun e he => by
      obtain ⟨g, hg⟩ := haccepted e he
      obtain ⟨start, lb, rb, hstands⟩ := hf.exists_stands hg.decl_mem hg.body
      obtain ⟨a, z, hstart, hstop, hbounds⟩ := hg.exists_results hf hstands
      obtain ⟨front, back, htext⟩ := hg.blockText_eq hstands hstart hstop
      exact ⟨start, lb, rb, a, z, front, back, hstands, hstart, hstop, hbounds.1, hbounds.2.1,
        hbounds.2.2, by rw [hg.bodyEdit_eq hstands, htext]⟩
    tokens_spared := fun t ht hwritten hlt ed hed => by
      obtain ⟨e, he, hed⟩ := List.mem_flatMap.mp hed
      obtain ⟨g, hg⟩ := haccepted e he
      rcases List.mem_cons.mp hed with rfl | hed
      · exact (hg.bodyEdit_token hf ht hwritten).imp_right fun hin => ⟨e, he, rfl, hin⟩
      · obtain ⟨c, hc, rfl⟩ := List.mem_map.mp hed
        exact .inl (ofComment_spares_token hf hg.group_mem (hg.comment_mem hc) (hg.isLine hc) ht
          hwritten hlt)
    rejected_spared := fun d hd hrejected c hc ed hed => by
      obtain ⟨k, hk, hdk⟩ := List.mem_flatMap.mp hd
      obtain ⟨hck, hdirective⟩ := DirectiveGroup.mem_comments_ofComments_iff.mp ⟨d, hdk, hc⟩
      have hline := Directive.isLine_of_isSome hdirective
      have hreach : c.reach src = lineEnd src c.start := if_pos hline
      obtain ⟨e, he, hed⟩ := List.mem_flatMap.mp hed
      obtain ⟨g, hg⟩ := haccepted e he
      rw [← hreach]
      rcases List.mem_cons.mp hed with rfl | hed
      · exact (hg.bodyEdit_comment hf hk hck).imp_right fun hin => ⟨e, he, rfl, hin⟩
      · obtain ⟨c', hc', rfl⟩ := List.mem_map.mp hed
        refine .inl (ofComment_spares_comment hf hg.group_mem (hg.comment_mem hc')
          (hg.isLine hc') hk hck hline ?_)
        rintro rfl
        exact notMem_of_rejected h hf hd hrejected hc he hc' }

/-- The edits of a plan replace the bodies of the expanded functions and remove their directives;
they do not overlap, and all else is kept. -/
theorem edits_frame (h : Plan.ofSource? o name src = some p) :
    ∃ l, lex? name src = some l ∧ Frame o name src p l.tokens := by
  obtain ⟨f, hf, rfl⟩ := Option.map_eq_some_iff.mp h
  obtain ⟨l, hl, hplaced⟩ := exists_filePlaced hf
  exact ⟨l, hl, frame_of_placed h hplaced⟩

theorem edits_frame_mixedSource : ∃ p l, Plan.ofSource? .standard "a.go" mixedSource = some p ∧
    (p.edits mixedSource).map (fun e => (e.start, e.stop)) = [(92, 109), (28, 50), (50, 70)] ∧
    p.diagnostics.length = 2 ∧ lex? "a.go" mixedSource = some l ∧
    Frame .standard "a.go" mixedSource p l.tokens := by
  obtain ⟨p, hp, hedits, hdiagnostics⟩ := edits_mixedSource
  obtain ⟨l, hl, hframe⟩ := edits_frame hp
  exact ⟨p, l, hp, hedits, hdiagnostics, hl, hframe⟩

end Plan

end RetryWeave
