import RetryWeave.Proofs.Syntax.Extents
import RetryWeave.Syntax.Lexer

/-! # The places of tokens and comments

The lexer goes through a text from left to right: tokens and comments lie one after another, each
where its text stands. A semicolon that stands for the end of a line has no text of its own. -/

namespace RetryWeave.Syntax

/-- The end of the line with the offset `n`, without its newline. -/
def lineEnd (src : Bytes) (n : Nat) : Nat :=
  n + ((src.drop n).takeWhile (· ≠ Ascii.newline)).length

namespace Comment

/-- The end of a comment in a text: a line comment goes on to the end of its line, also where
carriage returns are left out of its text. -/
def reach (src : Bytes) (c : Comment) : Nat := if c.isLine then lineEnd src c.start else c.stop

/-- The bytes of a line comment without a carriage return at its end. -/
def rawLine (src : Bytes) (c : Comment) : Bytes :=
  let line := (src.drop c.start).takeWhile (· ≠ Ascii.newline)
  (Bytes.stripEnd? [Ascii.cr] line).getD line

/-- A comment stands in a text. -/
structure Fits (src : Bytes) (c : Comment) : Prop where
  slash : src[c.start]? = some Ascii.slash
  two_le : 2 ≤ c.text.length
  stop_le : c.stop ≤ c.reach src
  reach_le : c.reach src ≤ src.length
  text_line : c.isLine = true → c.text = (c.rawLine src).filter (· ≠ Ascii.cr)

end Comment

/-- A token stands in a text. -/
structure Token.Fits (src : Bytes) (t : Token) : Prop where
  start_le : t.start ≤ t.stop
  start_lt : t.kind = .ident → t.start < t.stop
  stop_le : t.stop ≤ src.length
  first : ∀ b, src[t.start]? = some b → isSolid b = true
  ends : EndsSolid (Bytes.slice src t.start t.stop)
  text : t.kind ≠ .string → Bytes.slice src t.start t.stop = t.text
  spelled : t.kind.spelling ≠ [] → t.text = t.kind.spelling

namespace Lexeme

def start : Lexeme → Nat
  | .comment c _ => c.start
  | .token t _ => t.start

def reach (src : Bytes) : Lexeme → Nat
  | .comment c _ => c.reach src
  | .token t _ => t.stop

/-- Whether a lexeme has text: a semicolon that stands for the end of a line has none. -/
def isWritten : Lexeme → Bool
  | .comment _ _ => true
  | .token t _ => !t.implied

def Fits (src : Bytes) : Lexeme → Prop
  | .comment c _ => c.Fits src
  | .token t _ => t.Fits src

/-- No comments are attached to a token yet, and only a semicolon is without text. -/
def IsBare : Lexeme → Prop
  | .comment _ _ => True
  | .token t _ => t.lead = none ∧ (t.implied = true → t.kind = .semicolon)

/-- A semicolon that stands for the end of a line. -/
def IsImplied (x : Lexeme) : Prop := x.isWritten = false ∧ x.IsBare

end Lexeme

/-- The lexemes with text stand one after another, from the offset `n` on. -/
def Chain (src : Bytes) : Nat → List Lexeme → Prop
  | _, [] => True
  | n, x :: rest =>
    (x.isWritten = true → n ≤ x.start ∧ x.Fits src) ∧ x.IsBare ∧
      Chain src (if x.isWritten then x.reach src else n) rest

theorem Chain.mono {src : Bytes} {m n : Nat} {xs : List Lexeme} (h : Chain src n xs) (hle : m ≤ n) :
    Chain src m xs := by
  induction xs generalizing m n with
  | nil => trivial
  | cons x rest ih =>
      obtain ⟨hx, hbare, hrest⟩ := h
      refine ⟨fun hw => ⟨hle.trans (hx hw).1, (hx hw).2⟩, hbare, ?_⟩
      split
      · rename_i hw
        rwa [if_pos hw] at hrest
      · rename_i hw
        rw [if_neg hw] at hrest
        exact ih hrest hle

/-! ## One step -/

theorem length_stripReturns_le (star : Bool) (text : Bytes) :
    (stripReturns star text).length ≤ text.length := by
  induction text generalizing star with
  | nil => simp [stripReturns]
  | cons b rest ih =>
      simp only [stripReturns]
      split
      · exact (ih star).trans (Nat.le_succ _)
      · exact Nat.succ_le_succ (ih _)

theorem length_commentText_le (raw : Bytes) : (commentText raw).length ≤ raw.length := by
  unfold commentText
  split
  · have h := length_stripReturns_le false (raw.drop 2)
    simp only [List.length_append, List.length_take, List.length_drop] at h ⊢
    omega
  · exact List.length_filter_le _ raw

namespace LexState

theorem isImplied_impliedSemicolon (s : LexState) (offset : Nat) :
    (s.impliedSemicolon offset).IsImplied :=
  ⟨rfl, rfl, fun _ => rfl⟩

/-- What the lexer can find at `b :: rest`. -/
inductive Finds (s : LexState) (name : Bytes) (size : Nat) :
    UInt8 → Bytes → LexStep → Prop
  /-- White space, with the semicolon that the end of a line may imply. -/
  | blank {b rest implied semi} (himplied : ∀ x ∈ implied, x.IsImplied) :
    Finds s name size b rest { length := 1, lexemes := implied, semi }
  | word {b rest} (hb : isSolid b = true)
    (hstart : isIdentStart (Rune.first b rest).char = true) :
    Finds s name size b rest
      (s.token ((Tok.keyword? ((b :: rest).take (identLength 0 (b :: rest)))).getD .ident)
        ((b :: rest).take (identLength 0 (b :: rest))) (identLength 0 (b :: rest)))
  | number {b rest kind n} (hb : isSolid b = true)
    (hnumber : number? (b :: rest) = some (kind, n)) :
    Finds s name size b rest (s.token kind ((b :: rest).take n) n)
  /-- A string, up to its delimiter. Carriage returns may be left out of its text. -/
  | text {b rest text n delim} (hb : isSolid b = true)
    (hlast : n ≤ rest.length ∧ (rest.take n).getLast? = some delim)
    (hdelim : isSolid delim = true) :
    Finds s name size b rest (s.token .string text (n + 1))
  | char {b rest n delim} (hb : isSolid b = true)
    (hlast : n ≤ rest.length ∧ (rest.take n).getLast? = some delim)
    (hdelim : isSolid delim = true) :
    Finds s name size b rest (s.token .char ((b :: rest).take (n + 1)) (n + 1))
  | lineComment {rest next st}
    (hcomment :
      let line := (Ascii.slash :: Ascii.slash :: rest).takeWhile (· ≠ Ascii.newline)
      s.comment name ((Bytes.stripEnd? [Ascii.cr] line).getD line) line.length next size =
        some st) :
    Finds s name size Ascii.slash (Ascii.slash :: rest) st
  | blockComment {inner n next st} (hblock : blockLength? inner = some n)
    (hcomment : s.comment name ((Ascii.slash :: Ascii.star :: inner).take (n + 2)) (n + 2) next
      size = some st) :
    Finds s name size Ascii.slash (Ascii.star :: inner) st
  | operator {b rest kind n} (hb : isSolid b = true)
    (hoperator : Tok.operator? (b :: rest) = some (kind, n)) :
    Finds s name size b rest (s.token kind ((b :: rest).take n) n)

theorem finds_step {s : LexState} {name : Bytes} {size : Nat} {b : UInt8} {rest : Bytes}
    {st : LexStep} (h : s.step name size b rest = some st) : s.Finds name size b rest st := by
  unfold step at h
  split at h
  · cases h
    exact .blank (by simp)
  rename_i hblank
  split at h
  · cases h
    refine .blank fun x hx => ?_
    split at hx
    · rw [List.mem_singleton.mp hx]
      exact s.isImplied_impliedSemicolon s.offset
    · cases hx
  rename_i hnewline
  have hb : isSolid b = true := by
    simp only [Bool.or_eq_true, decide_eq_true_eq, not_or] at hblank
    simp only [isSolid, Ascii.isBlank, Bool.and_eq_true, Bool.not_eq_true', Bool.or_eq_false_iff,
      beq_eq_false_iff_ne, bne_iff_ne]
    exact ⟨⟨hblank.1, hnewline⟩, hblank.2⟩
  split at h
  · rename_i hstart
    cases h
    exact .word hb hstart
  split at h
  · obtain ⟨⟨kind, n⟩, hnumber, rfl⟩ := Option.map_eq_some_iff.mp h
    exact .number hb hnumber
  split at h
  · obtain ⟨⟨n, chars⟩, hquoted, rfl⟩ := Option.map_eq_some_iff.mp h
    exact .text hb (quotedLength?_spec hquoted) (by decide)
  split at h
  · split at h
    · rename_i n hquoted
      cases h
      exact .char hb (quotedLength?_spec hquoted) (by decide)
    · cases h
  split at h
  · obtain ⟨n, hraw, rfl⟩ := Option.map_eq_some_iff.mp h
    exact .text hb (rawLength?_spec hraw) (by decide)
  split at h
  · exact .lineComment h
  · split at h
    · rename_i n hblock
      exact .blockComment hblock h
    · cases h
  · obtain ⟨⟨kind, n⟩, hoperator, rfl⟩ := Option.map_eq_some_iff.mp h
    exact .operator hb hoperator

end LexState

/-- A step of the lexer lies within the text, and its lexemes stand in front of those that come
after it. -/
def StepFits (src : Bytes) (s : LexState) (st : LexStep) : Prop :=
  s.offset + st.length ≤ src.length ∧
    ∀ xs, Chain src (s.offset + st.length) xs → Chain src s.offset (st.lexemes ++ xs)

/-- A step over a comment leaves the comment, and the semicolon that it may imply. -/
theorem LexState.lexemes_comment {s : LexState} {name raw : Bytes} {length next size : Nat}
    {st : LexStep} (h : s.comment name raw length next size = some st) :
    st.length = length ∧ ∃ implied, st.lexemes =
      .comment ⟨s.offset, commentText raw⟩ s.line :: implied ∧ ∀ x ∈ implied, x.IsImplied := by
  have hlexemes : st.length = length ∧ st.lexemes =
      let before := raw.takeWhile (· ≠ Ascii.newline)
      if decide (before.length < raw.length) && s.semi then
        [.comment ⟨s.offset, commentText raw⟩ s.line, s.impliedSemicolon (s.offset + before.length)]
      else [.comment ⟨s.offset, commentText raw⟩ s.line] := by
    unfold LexState.comment at h
    split at h
    · cases h
    · cases h
      exact ⟨rfl, rfl⟩
    · cases h
      constructor <;> (split <;> split <;> rfl)
  refine ⟨hlexemes.1, ?_⟩
  rw [hlexemes.2]
  dsimp only
  split
  · exact ⟨[s.impliedSemicolon _], rfl, by
      simp [Lexeme.IsImplied, Lexeme.isWritten, Lexeme.IsBare, impliedSemicolon]⟩
  · exact ⟨[], rfl, by simp⟩

theorem Chain.append_implied {src : Bytes} {n : Nat} {implied xs : List Lexeme}
    (h : Chain src n xs) (himplied : ∀ x ∈ implied, x.IsImplied) :
    Chain src n (implied ++ xs) := by
  induction implied with
  | nil => exact h
  | cons x implied ih =>
      simp only [List.mem_cons, forall_eq_or_imp] at himplied
      refine ⟨by simp [himplied.1.1], himplied.1.2, ?_⟩
      rw [himplied.1.1]
      exact ih himplied.2

section

variable {src : Bytes} {s : LexState} {b : UInt8} {rest : Bytes} {xs : List Lexeme}

theorem length_eq_of_drop (hsrc : src.drop s.offset = b :: rest) :
    src.length = s.offset + (b :: rest).length := by
  have hlen := congrArg List.length hsrc
  rw [List.length_drop] at hlen
  simp only [List.length_cons] at hlen ⊢
  omega

theorem getElem?_of_drop (hsrc : src.drop s.offset = b :: rest) : src[s.offset]? = some b := by
  have h := congrArg List.head? hsrc
  rwa [List.head?_drop] at h

theorem stepFits_of_implied {st : LexStep} (hlength : s.offset + st.length ≤ src.length)
    (himplied : ∀ x ∈ st.lexemes, x.IsImplied) : StepFits src s st :=
  ⟨hlength, fun _ hrest => (hrest.mono (Nat.le_add_right _ _)).append_implied himplied⟩

theorem stepFits_token {kind : Tok} {text : Bytes} {n : Nat}
    (hsrc : src.drop s.offset = b :: rest) (hb : isSolid b = true)
    (hle : n ≤ (b :: rest).length) (hpos : kind = .ident → 0 < n)
    (hends : EndsSolid ((b :: rest).take n))
    (htext : kind ≠ .string → (b :: rest).take n = text)
    (hspelled : kind.spelling ≠ [] → text = kind.spelling) :
    StepFits src s (s.token kind text n) := by
  have hslice : Bytes.slice src s.offset (s.offset + n) = (b :: rest).take n := by
    rw [Bytes.slice, hsrc, Nat.add_sub_cancel_left]
  have hstop : s.offset + n ≤ src.length := by
    rw [length_eq_of_drop hsrc]
    exact Nat.add_le_add_left hle _
  refine ⟨hstop, fun xs hrest => ⟨fun _ => ⟨Nat.le_refl _, ?_⟩, ⟨rfl, nofun⟩, hrest⟩⟩
  exact {
    start_le := Nat.le_add_right _ _
    start_lt := fun hkind => Nat.lt_add_of_pos_right (hpos hkind)
    stop_le := hstop
    first := fun c hc => by
      rw [getElem?_of_drop hsrc] at hc
      exact Option.some.inj hc ▸ hb
    ends := hslice ▸ hends
    text := fun hkind => hslice ▸ htext hkind
    spelled := hspelled }

/-- A literal that ends with its delimiter. -/
theorem stepFits_delimited {kind : Tok} {text : Bytes} {n : Nat} {delim : UInt8}
    (hsrc : src.drop s.offset = b :: rest) (hb : isSolid b = true)
    (hlast : n ≤ rest.length ∧ (rest.take n).getLast? = some delim) (hdelim : isSolid delim = true)
    (htext : kind ≠ .string → (b :: rest).take (n + 1) = text) (hspelling : kind.spelling = []) :
    StepFits src s (s.token kind text (n + 1)) := by
  refine stepFits_token hsrc hb (Nat.succ_le_succ hlast.1) (fun _ => Nat.succ_pos n) ?_ htext
    (fun h => absurd hspelling h)
  intro c hc
  rw [List.take_succ_cons, List.getLast?_cons, hlast.2, Option.getD_some, Option.some.injEq] at hc
  exact hc ▸ hdelim

theorem stepFits_comment {name raw : Bytes} {length next size : Nat} {st : LexStep}
    (h : s.comment name raw length next size = some st)
    (hfits : (Comment.mk s.offset (commentText raw)).Fits src)
    (hreach : (Comment.mk s.offset (commentText raw)).reach src ≤ s.offset + length)
    (hlength : s.offset + length ≤ src.length) : StepFits src s st := by
  obtain ⟨heq, implied, hlexemes, himplied⟩ := LexState.lexemes_comment h
  rw [StepFits, heq, hlexemes]
  exact ⟨hlength, fun xs hrest =>
    ⟨fun _ => ⟨Nat.le_refl _, hfits⟩, trivial, (hrest.mono hreach).append_implied himplied⟩⟩

theorem length_getD_stripEnd?_le (p line : Bytes) :
    ((Bytes.stripEnd? p line).getD line).length ≤ line.length := by
  cases h : Bytes.stripEnd? p line with
  | none => exact Nat.le_refl _
  | some front =>
      rw [Bytes.stripEnd?_eq_some_iff.mp h]
      simp

/-- Two slashes and what follows them on the line, without a carriage return at the end. -/
theorem exists_rawLine (hsrc : src.drop s.offset = Ascii.slash :: Ascii.slash :: rest)
    (text : Bytes) : ∃ more, (Comment.mk s.offset text).rawLine src =
      Ascii.slash :: Ascii.slash :: more := by
  have hline : (src.drop s.offset).takeWhile (· ≠ Ascii.newline) =
      Ascii.slash :: Ascii.slash :: rest.takeWhile (· ≠ Ascii.newline) := by
    rw [hsrc]
    rfl
  simp only [Comment.rawLine, hline]
  cases hstrip : Bytes.stripEnd? [Ascii.cr]
      (Ascii.slash :: Ascii.slash :: rest.takeWhile (· ≠ Ascii.newline)) with
  | none => exact ⟨_, rfl⟩
  | some front =>
      have hfront := Bytes.stripEnd?_eq_some_iff.mp hstrip
      match front, hfront with
      | [], hfront => simp [Ascii.slash, Ascii.cr] at hfront
      | [_], hfront => simp [Ascii.slash, Ascii.cr] at hfront
      | x :: y :: more, hfront =>
          simp only [List.cons_append, List.cons.injEq] at hfront
          exact ⟨more, by rw [← hfront.1, ← hfront.2.1]; rfl⟩

theorem fits_lineComment {rest : Bytes}
    (hsrc : src.drop s.offset = Ascii.slash :: Ascii.slash :: rest) :
    let line := (Ascii.slash :: Ascii.slash :: rest).takeWhile (· ≠ Ascii.newline)
    let c : Comment := ⟨s.offset, commentText ((Bytes.stripEnd? [Ascii.cr] line).getD line)⟩
    c.Fits src ∧ c.reach src = s.offset + line.length := by
  intro line c
  obtain ⟨more, hmore⟩ := exists_rawLine hsrc c.text
  have hraw : (Bytes.stripEnd? [Ascii.cr] line).getD line = Ascii.slash :: Ascii.slash :: more := by
    rw [← hmore, Comment.rawLine, hsrc]
  have htext : c.text = Ascii.slash :: Ascii.slash :: more.filter (· ≠ Ascii.cr) := by
    simp only [c, hraw]
    rfl
  have hisLine : c.isLine = true := by
    rw [Comment.isLine, htext]
    rfl
  have hreach : c.reach src = s.offset + line.length := by
    rw [Comment.reach, if_pos hisLine, lineEnd, hsrc]
  have hle : line.length ≤ (Ascii.slash :: Ascii.slash :: rest).length :=
    (List.takeWhile_prefix _).length_le
  have hstop : c.text.length ≤ line.length :=
    (length_commentText_le _).trans (length_getD_stripEnd?_le _ _)
  refine ⟨?_, hreach⟩
  exact {
    slash := getElem?_of_drop hsrc
    two_le := by simp [htext]
    stop_le := by
      rw [hreach]
      exact Nat.add_le_add_left hstop _
    reach_le := by
      rw [hreach, length_eq_of_drop hsrc]
      exact Nat.add_le_add_left hle _
    text_line := fun _ => by
      rw [show c.rawLine src = _ from hmore, htext]
      rfl }

theorem fits_blockComment {inner : Bytes} {n : Nat}
    (hsrc : src.drop s.offset = Ascii.slash :: Ascii.star :: inner)
    (hn : blockLength? inner = some n) :
    let c : Comment := ⟨s.offset, commentText ((Ascii.slash :: Ascii.star :: inner).take (n + 2))⟩
    c.Fits src ∧ c.reach src ≤ s.offset + (n + 2) := by
  intro c
  have hle : n + 2 ≤ (Ascii.slash :: Ascii.star :: inner).length :=
    Nat.add_le_add_right (blockLength?_le hn) 2
  have htext : c.text = Ascii.slash :: Ascii.star :: stripReturns false (inner.take n) := rfl
  have hisLine : c.isLine = false := by
    rw [Comment.isLine, htext]
    rfl
  have hreach : c.reach src = c.stop := by
    rw [Comment.reach, hisLine, if_neg Bool.false_ne_true]
  have hstop : c.stop ≤ s.offset + (n + 2) := by
    have h := length_commentText_le ((Ascii.slash :: Ascii.star :: inner).take (n + 2))
    rw [List.length_take_of_le hle] at h
    exact Nat.add_le_add_left h _
  refine ⟨?_, hreach ▸ hstop⟩
  exact {
    slash := getElem?_of_drop hsrc
    two_le := by simp [htext]
    stop_le := hreach ▸ Nat.le_refl _
    reach_le := by
      rw [hreach, length_eq_of_drop hsrc]
      exact hstop.trans (Nat.add_le_add_left hle _)
    text_line := fun h => absurd h (by simp [hisLine]) }

theorem stepFits_step {name : Bytes} {size : Nat} {st : LexStep}
    (hsrc : src.drop s.offset = b :: rest) (h : s.step name size b rest = some st) :
    StepFits src s st := by
  have hlength := length_eq_of_drop hsrc
  cases LexState.finds_step h with
  | blank himplied =>
      refine stepFits_of_implied ?_ himplied
      rw [hlength]
      exact Nat.add_le_add_left (Nat.succ_pos _) _
  | word hb hstart =>
      refine stepFits_token hsrc hb (identLength_le 0 _) (fun _ => identLength_pos hstart)
        (endsSolid_ident _) (fun _ => rfl) ?_
      cases hkeyword : Tok.keyword? ((b :: rest).take (identLength 0 (b :: rest))) with
      | none => exact fun hspelling => absurd rfl hspelling
      | some k => exact fun _ => (spelling_of_keyword? hkeyword).symm
  | number hb hnumber =>
      obtain ⟨hle, hsolid, hkind⟩ := number?_spec hnumber
      refine stepFits_token hsrc hb hle ?_ (.of_forall hsolid) (fun _ => rfl) ?_
      · rcases hkind with rfl | rfl | rfl <;> simp
      · rcases hkind with rfl | rfl | rfl <;> exact fun hspelling => absurd rfl hspelling
  | text hb hlast hdelim =>
      exact stepFits_delimited hsrc hb hlast hdelim (fun hkind => absurd rfl hkind) rfl
  | char hb hlast hdelim => exact stepFits_delimited hsrc hb hlast hdelim (fun _ => rfl) rfl
  | lineComment hcomment =>
      obtain ⟨hfits, hreach⟩ := fits_lineComment hsrc
      refine stepFits_comment hcomment hfits hreach.le ?_
      exact hreach ▸ hfits.reach_le
  | blockComment hblock hcomment =>
      obtain ⟨hfits, hreach⟩ := fits_blockComment hsrc hblock
      refine stepFits_comment hcomment hfits hreach ?_
      rw [hlength]
      exact Nat.add_le_add_left (Nat.add_le_add_right (blockLength?_le hblock) 2) _
  | operator hb hoperator =>
      obtain ⟨htake, rfl, hmem⟩ := operator?_spec hoperator
      refine stepFits_token hsrc hb ?_ ?_ ?_ (fun _ => rfl) (fun _ => htake)
      · rw [← htake]
        exact List.length_take_le' _ _
      · rintro rfl
        exact absurd hmem (by decide)
      · rw [htake]
        exact .of_forall (isSolid_of_mem_spelling hmem)

end

/-! ## The whole text -/

@[simp] theorem LexState.offset_advance (s : LexState) (b : UInt8) :
    (s.advance b).offset = s.offset + 1 := by
  unfold advance
  split <;> rfl

/-- At the end of the text, the end of the file is all that is left. -/
theorem chain_end {src : Bytes} {s : LexState} (hend : s.offset = src.length) (line : Nat) :
    Chain src s.offset ((if s.semi then [s.impliedSemicolon s.offset] else []) ++
      [.token ⟨.eof, [], s.offset, s.offset, false, none, none⟩ line]) := by
  refine Chain.append_implied ⟨fun _ => ⟨Nat.le_refl _, ?_⟩, ⟨rfl, nofun⟩, trivial⟩ ?_
  · exact {
      start_le := Nat.le_refl _
      start_lt := nofun
      stop_le := Nat.le_of_eq hend
      first := fun b hb => by simp [hend] at hb
      ends := fun b hb => by simp [Bytes.slice] at hb
      text := fun _ => by simp [Bytes.slice]
      spelled := fun hspelling => absurd rfl hspelling }
  · split <;>
      simp [Lexeme.IsImplied, Lexeme.isWritten, Lexeme.IsBare, LexState.impliedSemicolon]

/-- From any state on, the lexer adds a chain of lexemes to those it has seen, the last of which is
the end of the file. -/
theorem exists_chain_of_lexFrom {name src : Bytes} {lexemes : List Lexeme} {infos : List LineInfo}
    (text : Bytes) (skip : Nat) (s : LexState) (seen : List Lexeme)
    (hsrc : src.drop s.offset = text) (hle : s.offset ≤ src.length) (hskip : skip ≤ text.length)
    (h : lexFrom name src.length skip s seen text = some (lexemes, infos)) :
    ∃ new, lexemes = seen.reverse ++ new ∧ Chain src (s.offset + skip) new ∧
      ∃ t line, new.getLast? = some (.token t line) ∧ t.kind = .eof := by
  induction text generalizing skip s seen with
  | nil =>
      obtain rfl : skip = 0 := Nat.le_zero.mp hskip
      have hend : s.offset = src.length :=
        Nat.le_antisymm hle (List.drop_eq_nil_iff.mp hsrc)
      simp only [lexFrom, Option.some.injEq, Prod.mk.injEq] at h
      obtain ⟨rfl, -⟩ := h
      refine ⟨(if s.semi then [s.impliedSemicolon s.offset] else []) ++
        [.token ⟨.eof, [], s.offset, s.offset, false, none, none⟩
          (if s.lineStart = src.length ∧ 0 < src.length then s.line - 1 else s.line)], ?_, ?_,
        _, _, List.getLast?_concat, rfl⟩
      · by_cases hsemi : s.semi = true <;> simp [hsemi]
      · exact chain_end hend _
  | cons b rest ih =>
      have hlength := length_eq_of_drop hsrc
      have htail : src.drop (s.offset + 1) = rest := by
        rw [← List.drop_drop, hsrc, List.drop_one, List.tail_cons]
      have hnext : s.offset + 1 ≤ src.length := by
        rw [hlength, List.length_cons]
        omega
      cases skip with
      | succ skip =>
          obtain ⟨new, hnew, hchain, hlast⟩ := ih skip (s.advance b) seen (by simpa using htail)
            (by simpa using hnext) (Nat.le_of_succ_le_succ hskip) h
          refine ⟨new, hnew, ?_, hlast⟩
          rwa [LexState.offset_advance, Nat.add_assoc, Nat.add_comm 1] at hchain
      | zero =>
          simp only [lexFrom] at h
          split at h
          · cases h
          · rename_i st hst
            obtain ⟨hfits, hchain⟩ := stepFits_step hsrc hst
            obtain ⟨new, hnew, hrest, t, line, hlast, heof⟩ :=
              ih _ _ _ (by simpa using htail) (by simpa using hnext)
              (by rw [hlength, List.length_cons] at hfits; omega) h
            refine ⟨st.lexemes ++ new, ?_, hchain new (hrest.mono ?_), t, line, ?_, heof⟩
            · rw [hnew]
              simp
            · simp only [LexState.offset_advance]
              omega
            · rw [List.getLast?_append, hlast, Option.some_or]

/-! ## Order -/

/-- One lexeme stands in front of another. -/
def Lexeme.Before (src : Bytes) (x y : Lexeme) : Prop :=
  x.isWritten = true → y.isWritten = true → x.reach src ≤ y.start

theorem Lexeme.Fits.start_le_reach {src : Bytes} {x : Lexeme} (h : x.Fits src) :
    x.start ≤ x.reach src := by
  cases x with
  | comment c line => exact (Nat.le_add_right _ _).trans (Comment.Fits.stop_le h)
  | token t line => exact Token.Fits.start_le h

theorem Chain.spec {src : Bytes} {n : Nat} {xs : List Lexeme} (h : Chain src n xs) :
    (∀ x ∈ xs, x.IsBare ∧ (x.isWritten = true → n ≤ x.start ∧ x.Fits src)) ∧
      xs.Pairwise (Lexeme.Before src) := by
  induction xs generalizing n with
  | nil => simp
  | cons x rest ih =>
      obtain ⟨hx, hbare, hrest⟩ := h
      obtain ⟨hall, hpairwise⟩ := ih hrest
      -- what comes after `x` starts after it, so also after `n`
      have hn : n ≤ if x.isWritten then x.reach src else n := by
        split
        · rename_i hw
          exact (hx hw).1.trans (hx hw).2.start_le_reach
        · exact Nat.le_refl n
      refine ⟨?_, List.pairwise_cons.mpr ⟨fun y hy hw hwy => ?_, hpairwise⟩⟩
      · simp only [List.mem_cons, forall_eq_or_imp]
        exact ⟨⟨hbare, hx⟩, fun y hy => ⟨(hall y hy).1, fun hw =>
          ⟨hn.trans ((hall y hy).2 hw).1, ((hall y hy).2 hw).2⟩⟩⟩
      · have hle := ((hall y hy).2 hwy).1
        rwa [if_pos hw] at hle

end RetryWeave.Syntax
