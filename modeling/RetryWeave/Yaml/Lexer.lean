import RetryWeave.Yaml.Scalars

/-!
The tokens of a YAML stream. The start of a block collection is seen only from the column of its
first entry, and a key only from the colon after it, so tokens are also put in before others.
-/

namespace RetryWeave.Yaml

inductive Token where
  | version (major minor : Nat)
  | tagHandle (handle stem : List Char)
  | documentStart
  | documentEnd
  | blockSequence
  | blockMapping
  | blockEnd
  | flowSequence
  | flowSequenceEnd
  | flowMapping
  | flowMappingEnd
  | blockEntry
  | flowEntry
  | key
  | value
  | alias (name : List Char)
  | anchor (name : List Char)
  | tag (handle suffix : List Char)
  | scalar (isPlain : Bool) (text : List Char)
  | streamEnd
  /-- The stream goes on with something that is no token. -/
  | broken
deriving DecidableEq, Repr

/-- A token that turns out to be a key if a colon follows it. -/
structure PendingKey where
  /-- The place of the token among all tokens. -/
  number : Nat
  line : Nat
  column : Nat
  index : Nat
  /-- Nothing but a key may stand here. -/
  required : Bool

/-- The lexer between two tokens. -/
structure Lexer where
  cursor : Cursor
  /-- The tokens so far, the last one first. -/
  tokens : List Token
  /-- How many tokens there are. -/
  count : Nat
  /-- How many brackets are open. -/
  flow : Nat
  /-- The column of the innermost block collection, below zero outside any. -/
  indent : Int
  outer : List Int
  keyAllowed : Bool
  /-- The pending key outside brackets and inside each open bracket, innermost first. -/
  keys : List (Option PendingKey)

/-- A step of the lexer, which may find that no token follows. -/
abbrev Lex := StateT Lexer Option

namespace Lexer

def start (s : Supply) : Lexer := ⟨Cursor.start s, [], 0, 0, -1, [], true, [none]⟩

def put (t : Token) (s : Lexer) : Lexer := { s with tokens := t :: s.tokens, count := s.count + 1 }

/-- Puts a token in before the token of the given number. -/
def putAt (n : Nat) (t : Token) (s : Lexer) : Lexer :=
  let after := s.count - n
  { s with tokens := s.tokens.take after ++ t :: s.tokens.drop after, count := s.count + 1 }

def pending (s : Lexer) : Option PendingKey := (s.keys.head?).join

/-- A key has to be on the line of its colon and at most 1024 characters before it. -/
def isInReach (s : Lexer) (k : PendingKey) : Bool :=
  s.cursor.line ≤ k.line && s.cursor.index ≤ k.index + 1024

/-- Closes the block collections that are indented more than a column. -/
def unrollTo (column : Int) : List Int → Lexer → Lexer
  | [], s => s
  | i :: outer, s =>
    if s.indent > column then
      unrollTo column outer { s.put .blockEnd with indent := i, outer }
    else s

def unroll (column : Int) (s : Lexer) : Lexer :=
  if s.flow > 0 then s else unrollTo column s.outer s

/-- Opens a block collection at a column that is deeper than the current one. -/
def roll (column : Nat) (n : Nat) (t : Token) (s : Lexer) : Lexer :=
  if s.flow > 0 || (column : Int) ≤ s.indent then s
  else { s.putAt n t with indent := column, outer := s.indent :: s.outer }

end Lexer

namespace Lex

open Scan

def refuse {α : Type} : Lex α := fun _ => none

/-- Something about the lexer. -/
def ask {α : Type} (f : Lexer → α) : Lex α := fun s => some (f s, s)

/-- Runs a scan from the place of the lexer. -/
def scan {α : Type} (m : Scan α) : Lex α := fun s =>
  (m s.cursor).map fun (a, c) => (a, { s with cursor := c })

def put (t : Token) : Lex Unit := modify (·.put t)

/-- Puts a token of `n` characters and passes them. -/
def putSkip (t : Token) (n : Nat) : Lex Unit := do
  put t
  scan (skipMany n)

def allowKey (allowed : Bool) : Lex Unit := modify fun s => { s with keyAllowed := allowed }

/-! ### White space and comments -/

/-- How far from the end of a comment the next one is looked for. -/
def commentReach : Nat := 512

/-- Looks for a comment with nothing but white space before it: how many places ahead it starts. Of
line breaks only line feed and carriage return count. -/
def commentAhead : Nat → Nat → Scan (Option Nat)
  | 0, _ => return none
  | fuel + 1, n => do
    want (n + 1)
    match ← Scan.ask fun c => c.ahead[n]? with
    | none => return none
    | some ch =>
      if ch == '#' then return some n
      else if isBlank ch || ch == '\r' || ch == '\n' then commentAhead fuel (n + 1)
      else
        if isBreak ch && fuel > 0 then want (n + 2)
        return none

/-- Passes white space up to the place with the given number. -/
def passUntil (index : Nat) : Nat → Scan Unit
  | 0 => return ()
  | fuel + 1 => do
    want 1
    let c ← get
    if c.index ≥ index then return ()
    else
      if c.testAt 0 isBreak then
        let _ ← lineBreak
      else skip
      passUntil index fuel

def passCommentsFrom : Nat → Scan Unit
  | 0 => return ()
  | fuel + 1 => do
    restOfLine
    let c ← get
    if c.testAt 0 fun ch => isBreak ch && !(ch == '\r' || ch == '\n') then want 2
    else
      match ← commentAhead (commentReach - 1) 1 with
      | none => return ()
      | some n =>
        passUntil (c.index + n) (n + 1)
        passCommentsFrom fuel

/-- Passes comments, with the white space between one and the next. -/
def passComments : Scan Unit := do passCommentsFrom (← bound)

def passSpaceFrom : Nat → Lex Unit
  | 0 => return ()
  | fuel + 1 => do
    scan (want 1)
    if ← ask fun s => s.cursor.column = 0 && s.cursor.marked then scan skip
    let tabs ← ask fun s => s.flow > 0 || !s.keyAllowed
    let _ ← scan (takeWhile fun ch => ch == ' ' || (tabs && ch == '\t'))
    if ← ask (·.cursor.isAt '#') then scan passComments
    if ← ask (·.cursor.testAt 0 isBreak) then
      let _ ← scan lineBreak
      modify fun s => { s with keyAllowed := s.keyAllowed || s.flow = 0 }
      passSpaceFrom fuel

/-- Passes white space and comments. A tab may not stand where a key could start. At the start of a
line a character is passed as long as a mark of byte order is the first in memory. -/
def passSpace : Lex Unit := do passSpaceFrom (← scan bound)

/-- How many blanks stand before a comment on this line. -/
def lineCommentAhead : Nat → Nat → Scan (Option Nat)
  | 0, _ => return none
  | fuel + 1, n => do
    want (n + 1)
    if ← Scan.ask fun c => c.testAt n isBlank then lineCommentAhead fuel (n + 1)
    else return if ← Scan.ask fun c => c.testAt n (· == '#') then some n else none

/-- Passes a comment on the line of the last token; tabs may stand before it. -/
def passLineComment : Scan Unit := do
  if !(← Scan.ask Cursor.fresh) then
    match ← lineCommentAhead commentReach 0 with
    | none => return ()
    | some n =>
      skipMany n
      restOfLine

/-! ### Keys -/

/-- Gives up the pending key; a required one is missed. -/
def dropKey : Lex Unit := do
  match ← ask Lexer.pending with
  | some k => if k.required then refuse else modify fun s => { s with keys := none :: s.keys.tail }
  | none => return ()

/-- Notes that a key may start here. -/
def saveKey : Lex Unit := do
  if ← ask Lexer.keyAllowed then
    dropKey
    modify fun s =>
      let c := s.cursor
      let key := ⟨s.count, c.line, c.column, c.index, s.flow = 0 && s.indent = c.column⟩
      { s with keys := some key :: s.keys.tail }

/-! ### Directives and tags -/

def isUriChar (c : Char) : Bool := isWordChar c || ";/?:@&=+$,.!~*'()[]".toList.contains c

/-- The octets of escapes such as `%C3%A9` for one character. -/
def uriEscape : Nat → Nat → Scan Bytes
  | 0, _ => Scan.refuse
  | fuel + 1, seen => do
    want 3
    match ← Scan.ask fun c => c.ahead.take 3 with
    | ['%', a, b] =>
      match hexValue? [a, b] with
      | none => Scan.refuse
      | some n =>
        let width := if seen = 0 then Encoding.sequenceLength n.toUInt8 else seen
        if width = 0 || (seen > 0 && n / 64 ≠ 2) then Scan.refuse
        else
          skipMany 3
          if width = 1 then return [n.toUInt8]
          else return n.toUInt8 :: (← uriEscape fuel (width - 1))
    | _ => Scan.refuse

def uriFrom : Nat → Scan (List Char)
  | 0 => return []
  | fuel + 1 => do
    want 1
    match ← Scan.ask Cursor.head? with
    | none => return []
    | some ch =>
      if ch == '%' then
        let bs ← uriEscape 4 0
        return (Bytes.runes bs).map (·.char) ++ (← uriFrom fuel)
      else if isUriChar ch then
        skip
        return ch :: (← uriFrom fuel)
      else return []

/-- The characters of an identifier of a tag, with escapes replaced. -/
def uri : Scan (List Char) := do uriFrom (← bound)

/-- An identifier that is not empty. -/
def someUri : Scan (List Char) := do
  let text ← uri
  if text.isEmpty then Scan.refuse else return text

/-- A handle: an exclamation mark, word characters, and possibly another mark. -/
def handle : Scan (List Char) := do
  want 1
  if !(← Scan.ask (·.isAt '!')) then Scan.refuse
  else
    skip
    let word ← takeWhile isWordChar
    if ← Scan.ask (·.isAt '!') then
      skip
      return '!' :: word ++ ['!']
    else return '!' :: word

/-- A tag, as its handle and what follows it. -/
def tag : Scan Token := do
  want 2
  let t : Token ←
    if ← Scan.ask (·.testAt 1 (· == '<')) then do
      skipMany 2
      let text ← someUri
      if ← Scan.ask (·.isAt '>') then
        skip
        pure (Token.tag [] text)
      else Scan.refuse
    else do
      let h ← handle
      if h.length > 1 && h.getLast? == some '!' then
        pure (Token.tag h (← someUri))
      else
        let text := h.tail ++ (← uri)
        pure (if text.isEmpty then Token.tag [] ['!'] else Token.tag ['!'] text)
  want 1
  if ← Scan.ask (·.spaceAt 0) then return t else Scan.refuse

/-- A version number of one or two digits. -/
def versionNumber : Scan Nat := do
  let digits ← takeWhile Char.isDigit
  if digits.isEmpty || digits.length > 2 then Scan.refuse
  else return digits.foldl (fun n d => n * 10 + (d.toNat - 48)) 0

/-- The body of a directive after its name. -/
def directiveBody (name : List Char) : Scan Token := do
  blanks
  if name == "YAML".toList then
    let major ← versionNumber
    if ← Scan.ask (·.isAt '.') then
      skip
      return .version major (← versionNumber)
    else Scan.refuse
  else if name == "TAG".toList then
    let h ← handle
    want 1
    let closed := h == ['!'] || (h.length > 1 && h.getLast? == some '!')
    if closed && (← Scan.ask (·.testAt 0 isBlank)) then
      blanks
      let stem ← someUri
      want 1
      if ← Scan.ask (·.spaceAt 0) then return .tagHandle h stem else Scan.refuse
    else Scan.refuse
  else Scan.refuse

/-- A directive: a line that starts with a percent sign. -/
def directive : Scan Token := do
  skip
  let name ← takeWhile isWordChar
  if name.isEmpty || !(← Scan.ask (·.spaceAt 0)) then Scan.refuse
  else
    let t ← directiveBody name
    endOfLine
    return t

/-- The name after the mark of an anchor or alias. -/
def anchorName : Scan (List Char) := do
  skip
  let name ← takeWhile isWordChar
  let ended ← Scan.ask fun c =>
    c.spaceAt 0 || c.testAt 0 ("?:,]\x7d%@\x60".toList.contains ·)
  if name.isEmpty || !ended then Scan.refuse else return name

/-! ### Tokens -/

/-- Whether a plain scalar starts here. -/
def startsPlain (flow : Bool) (c : Cursor) : Bool :=
  match c.head? with
  | none => false
  | some ch =>
    !(isBlank ch || isBreak ch || "-?:,[]\x7b\x7d#&*!|>'\"%@\x60".toList.contains ch) ||
      (ch == '-' && !c.testAt 1 isBlank) ||
      (!flow && (ch == '?' || ch == ':') && !c.spaceAt 1)

/-- Opens a block collection at the place of the lexer, if it is deeper. -/
def rollHere (t : Token) : Lex Unit := modify fun s => s.roll s.cursor.column s.count t

/-- Where a key or an entry may not start, a block collection cannot go on. -/
def checkAllowed : Lex Unit := do
  if ← ask fun s => s.flow = 0 && !s.keyAllowed then refuse

/-- The mark of an entry of a block sequence. -/
def blockEntry : Lex Unit := do
  checkAllowed
  rollHere .blockSequence
  dropKey
  allowKey true
  putSkip .blockEntry 1

/-- The mark of a key. -/
def keyMark : Lex Unit := do
  checkAllowed
  rollHere .blockMapping
  dropKey
  allowKey (← ask fun s => decide (s.flow = 0))
  putSkip .key 1

/-- The mark of a value; the pending key before it becomes a key. -/
def valueMark : Lex Unit := do
  let key ← ask Lexer.pending
  let found ← ask fun s => key.filter s.isInReach
  if found.isNone && key.any (·.required) then refuse
  else
    match found with
    | some k =>
      modify fun s => (s.putAt k.number .key).roll k.column k.number .blockMapping
      allowKey false
    | none =>
      checkAllowed
      rollHere .blockMapping
      allowKey (← ask fun s => decide (s.flow = 0))
    modify fun s => { s with keys := none :: s.keys.tail }
    putSkip .value 1

/-- An opening bracket. -/
def openFlow (t : Token) : Lex Unit := do
  saveKey
  modify fun s => { s with keys := none :: s.keys, flow := s.flow + 1 }
  allowKey true
  putSkip t 1

/-- A closing bracket. -/
def closeFlow (t : Token) : Lex Unit := do
  dropKey
  modify fun s => if s.flow = 0 then s else { s with keys := s.keys.tail, flow := s.flow - 1 }
  allowKey false
  putSkip t 1

/-- A comma between entries. -/
def flowEntry : Lex Unit := do
  dropKey
  allowKey true
  putSkip .flowEntry 1

/-- A token that a scan returns; a key may start with it. -/
def fromScan {α : Type} (m : Scan α) (token : α → Token) : Lex Unit := do
  saveKey
  allowKey false
  put (token (← scan m))

/-- A plain scalar; after a line break a key may follow. -/
def plainScalar : Lex Unit := do
  saveKey
  let (flow, margin) ← ask fun s => (decide (s.flow > 0), (s.indent + 1).toNat)
  let (text, broke) ← scan (plain flow margin)
  allowKey broke
  put (.scalar true text)

/-- A block scalar. -/
def blockScalar (literal : Bool) : Lex Unit := do
  dropKey
  allowKey true
  put (.scalar false (← scan (block literal (← ask Lexer.indent))))

/-- A line that belongs to no document. -/
def documentMark : Lex Unit := do
  modify (·.unroll (-1))
  dropKey
  allowKey false

/-- The end of the stream, which is also that of a line. -/
def streamEnd : Lex Unit := do
  modify fun s =>
    let c := s.cursor
    { s with cursor := if c.column = 0 then c else { c with line := c.line + 1, column := 0 } }
  documentMark
  put .streamEnd

/-- A token inside a document. -/
def content (ch : Char) : Lex Unit := do
  let c ← ask Lexer.cursor
  let flow := decide ((← ask Lexer.flow) > 0)
  match ch with
  | '[' => openFlow .flowSequence
  | '\x7b' => openFlow .flowMapping
  | ']' => closeFlow .flowSequenceEnd
  | '\x7d' => closeFlow .flowMappingEnd
  | ',' => flowEntry
  | '*' => fromScan anchorName .alias
  | '&' => fromScan anchorName .anchor
  | '!' => fromScan tag id
  | '\'' => fromScan (quoted true) (.scalar false)
  | '"' => fromScan (quoted false) (.scalar false)
  | _ =>
    if ch == '-' && c.spaceAt 1 then blockEntry
    else if ch == '?' && (flow || c.spaceAt 1) then keyMark
    else if ch == ':' && (flow || c.spaceAt 1) then valueMark
    else if (ch == '|' || ch == '>') && !flow then blockScalar (ch == '|')
    else if startsPlain flow c then plainScalar
    else refuse

/-- The next token. A comment on its line goes with it, except after the mark of an entry. -/
def next : Lex Unit := do
  passSpace
  modify fun s => s.unroll s.cursor.column
  scan (want 4)
  let c ← ask Lexer.cursor
  match c.head? with
  | none => streamEnd
  | some ch =>
    if c.column = 0 && ch == '%' then
      documentMark
      put (← scan directive)
    else if c.isMarker then
      documentMark
      putSkip (if ch == '-' then .documentStart else .documentEnd) 3
    else
      content ch
      if (← ask (·.tokens.head?)) != some .blockEntry then scan passLineComment

end Lex

namespace Lexer

/-- How many tokens can be told before the stream breaks: the last two are still looked at together
with what follows, and so is a token that may become a key. -/
def settled (s : Lexer) : Nat :=
  (s.keys.filterMap fun k => (k.filter s.isInReach).map (·.number)).foldl min (s.count - 2)

/-- All tokens up to the end of the stream. -/
def run : Nat → Lexer → List Token
  | 0, s => s.tokens.reverse
  | fuel + 1, s =>
    match Lex.next s with
    | none => (.broken :: s.tokens.drop (s.count - s.settled)).reverse
    | some (_, s') => if s'.tokens.head? == some .streamEnd then s'.tokens.reverse else run fuel s'

end Lexer

/-- The tokens of a stream. -/
def tokens (b : Bytes) : List Token :=
  let s := Supply.ofBytes b
  Lexer.run (2 * s.size + 2) (Lexer.start s)

end RetryWeave.Yaml
