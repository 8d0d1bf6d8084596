import RetryWeave.Source.Position
import RetryWeave.Syntax.Literal

/-!
From source text to tokens. The end of a line that follows a token which can end a statement is an
implied semicolon, and comments are gathered into groups and handed to the tokens around them.
-/

namespace RetryWeave.Syntax

/-- A comment or a token, with its physical line. -/
inductive Lexeme where
  | comment (c : Comment) (line : Nat)
  | token (t : Token) (line : Nat)
deriving Repr

/-- Where the lexer stands. -/
structure LexState where
  offset : Nat
  line : Nat
  lineStart : Nat
  /-- The end of the line would end a statement here. -/
  semi : Bool
  /-- The latest first. -/
  infos : List LineInfo

/-- What the lexer finds at one place: how far it reaches, and what it leaves. -/
structure LexStep where
  length : Nat
  lexemes : List Lexeme
  semi : Bool
  info : Option LineInfo := none

namespace LexState

def start : LexState := ⟨0, 1, 0, false, []⟩

def advance (s : LexState) (b : UInt8) : LexState :=
  if b = Ascii.newline then
    { s with offset := s.offset + 1, line := s.line + 1, lineStart := s.offset + 1 }
  else { s with offset := s.offset + 1 }

def token (s : LexState) (kind : Tok) (text : Bytes) (length : Nat) : LexStep :=
  { length
    lexemes := [.token ⟨kind, text, s.offset, s.offset + length, false, none, none⟩ s.line]
    semi := kind.endsStatement }

def impliedSemicolon (s : LexState) (offset : Nat) : Lexeme :=
  .token ⟨.semicolon, [Ascii.newline], offset, offset, true, none, none⟩ s.line

/-- What a comment says about the lines after it. A comment that ends with its line says something
only at the start of a line. -/
def lineReading (s : LexState) (name raw : Bytes) (next : Nat) : LineInfo.Reading :=
  let block := raw.getD 1 0 == Ascii.star
  let body := if block then (raw.drop 2).dropLast.dropLast else raw.drop 2
  match Bytes.stripStart? "line " body with
  | some text =>
    if block || s.offset == s.lineStart then
      LineInfo.read name ((s.infos.head?.map (·.file)).getD name) text next
    else .nothing
  | none => .nothing

/-- The step over a comment whose bytes are `raw`, followed by the offset `next`. -/
def comment (s : LexState) (name raw : Bytes) (length next size : Nat) : Option LexStep :=
  let note : Lexeme := .comment ⟨s.offset, commentText raw⟩ s.line
  let before := raw.takeWhile (· ≠ Ascii.newline)
  let broken := before.length < raw.length
  let lexemes := if broken && s.semi then [note, s.impliedSemicolon (s.offset + before.length)]
    else [note]
  let step : LexStep := { length, lexemes, semi := s.semi && !broken }
  match s.lineReading name raw next with
  | .malformed => none
  | .nothing => some step
  | .info i =>
    let later := match s.infos with
      | [] => true
      | last :: _ => last.offset < i.offset
    some (if later && i.offset < size then { step with info := some i } else step)

/-- The lexeme at the start of `b :: rest`. -/
def step (s : LexState) (name : Bytes) (size : Nat) (b : UInt8) (rest : Bytes) :
    Option LexStep :=
  let text := b :: rest
  if b = Ascii.space || b = Ascii.tab || b = Ascii.cr then
    some { length := 1, lexemes := [], semi := s.semi }
  else if b = Ascii.newline then
    some { length := 1, lexemes := if s.semi then [s.impliedSemicolon s.offset] else [],
           semi := false }
  else if isIdentStart (Rune.first b rest).char then
    let n := identLength 0 text
    let name := text.take n
    some (s.token ((Tok.keyword? name).getD .ident) name n)
  else if Ascii.isDigit b || (b = Ascii.dot && (rest.head?.map Ascii.isDigit).getD false) then
    (number? text).map fun (kind, n) => s.token kind (text.take n) n
  else if b = Ascii.quote then
    (quotedLength? Ascii.quote 0 rest).map fun (n, _) => s.token .string (text.take (n + 1)) (n + 1)
  else if b = Ascii.apostrophe then
    match quotedLength? Ascii.apostrophe 0 rest with
    | some (n, 1) => some (s.token .char (text.take (n + 1)) (n + 1))
    | _ => none
  else if b = Ascii.backquote then
    (rawLength? rest).map fun n =>
      s.token .string ((text.take (n + 1)).filter (· ≠ Ascii.cr)) (n + 1)
  else
    match b, rest with
    | Ascii.slash, Ascii.slash :: _ =>
      let raw := text.takeWhile (· ≠ Ascii.newline)
      let next := if s.offset + raw.length < size then s.offset + raw.length + 1
        else s.offset + raw.length
      s.comment name ((Bytes.stripEnd? [Ascii.cr] raw).getD raw) raw.length next size
    | Ascii.slash, Ascii.star :: inner =>
      match blockLength? inner with
      | some n => s.comment name (text.take (n + 2)) (n + 2) (s.offset + n + 2) size
      | none => none
    | _, _ =>
      (Tok.operator? text).map fun (kind, n) => s.token kind (text.take n) n

end LexState

/-- Reads a text after its first `skip` bytes; the lexemes seen so far are kept latest first. -/
def lexFrom (name : Bytes) (size : Nat) :
    Nat → LexState → List Lexeme → Bytes → Option (List Lexeme × List LineInfo)
  | _, s, seen, [] =>
    let seen := if s.semi then s.impliedSemicolon s.offset :: seen else seen
    let line := if s.lineStart = size && 0 < size then s.line - 1 else s.line
    let last : Lexeme := .token ⟨.eof, [], s.offset, s.offset, false, none, none⟩ line
    some ((last :: seen).reverse, s.infos.reverse)
  | skip + 1, s, seen, b :: rest => lexFrom name size skip (s.advance b) seen rest
  | 0, s, seen, b :: rest =>
    match s.step name size b rest with
    | none => none
    | some step =>
      let infos := match step.info with
        | some i => i :: s.infos
        | none => s.infos
      let s' : LexState := { s with semi := step.semi, infos }
      lexFrom name size (step.length - 1) (s'.advance b) (step.lexemes.reverse ++ seen) rest

/-! ### Comment groups -/

def lastLine (c : Comment) (line : Nat) : Nat :=
  if c.isLine then line else line + c.text.count Ascii.newline

/-- The comments that start on the line on which the ones before them end, with that line. -/
def sameLine : Nat → List (Comment × Nat) → List Comment × Nat × List (Comment × Nat)
  | last, [] => ([], last, [])
  | last, (c, line) :: rest =>
    if line ≤ last then
      let (group, last', rest') := sameLine (lastLine c line) rest
      (c :: group, last', rest')
    else ([], last, (c, line) :: rest)

/-- Groups of comments without a blank line between them, with the last line of the last. The
first argument is the group being gathered, latest first. -/
def gather : List Comment → Nat → List (Comment × Nat) → List CommentGroup × Nat
  | group, last, [] => ([⟨group.reverse⟩], last)
  | group, last, (c, line) :: rest =>
    if line ≤ last + 1 then gather (c :: group) (lastLine c line) rest
    else
      let (groups, last') := gather [c] (lastLine c line) rest
      (⟨group.reverse⟩ :: groups, last')

/-- Groups the comments between a token on line `before` and the token `t`, and gives `t` the group
that trails the token before and the group that leads to it. -/
def attach (before : Nat) (comments : List (Comment × Nat)) (t : Token) (line : Nat) :
    Token × List CommentGroup :=
  match comments with
  | [] => (t, [])
  | (_, first) :: _ =>
    let (same, last, rest) : List Comment × Nat × List (Comment × Nat) :=
      if first = before then sameLine first comments else ([], 0, comments)
    let next := match rest with
      | [] => line
      | (_, n) :: _ => n
    let ends := next ≠ last || (rest.isEmpty && (t.kind == .semicolon || t.kind == .eof))
    let trail := if !same.isEmpty && ends then some ⟨same⟩ else none
    let head := if same.isEmpty then [] else [⟨same⟩]
    match rest with
    | [] => ({ t with trail }, head)
    | (c, n) :: more =>
      let (groups, final) := gather [c] (lastLine c n) more
      let lead := if final + 1 = line then groups.getLast? else none
      ({ t with trail, lead }, head ++ groups)

/-- Attaches all comments to tokens. The comments since the last token are kept latest first. -/
def attachAll : Nat → List (Comment × Nat) → List Lexeme → List Token × List CommentGroup
  | _, _, [] => ([], [])
  | before, pending, .comment c line :: rest => attachAll before ((c, line) :: pending) rest
  | before, pending, .token t line :: rest =>
    let (t', groups) := attach before pending.reverse t line
    let (tokens, more) := attachAll line [] rest
    (t' :: tokens, groups ++ more)

/-! ### Source text -/

def byteOrderMark : Bytes := [0xEF, 0xBB, 0xBF]

/-- Source text is UTF-8 without NUL, and with a byte order mark at its start only. -/
def isSourceText (src : Bytes) : Bool :=
  let body := (Bytes.stripStart? byteOrderMark src).getD src
  body.runes.all fun r => r.isValid && r.char.toNat ≠ 0 && r.char.toNat ≠ 0xFEFF

/-- The tokens and comment groups of a source file. -/
structure Lexed where
  tokens : List Token
  comments : List CommentGroup
  table : LineTable

def lex? (name src : Bytes) : Option Lexed :=
  if !isSourceText src then none
  else
    let skip := if Bytes.startsWith byteOrderMark src then byteOrderMark.length else 0
    match lexFrom name src.length skip .start [] src with
    | none => none
    | some (lexemes, infos) =>
      let (tokens, comments) := attachAll 0 [] lexemes
      some ⟨tokens, comments, .ofText name src infos⟩

end RetryWeave.Syntax
