import RetryWeave.Text.Rune

/-!
The block structure of documentation comments: paragraphs, headings, lists and code.
-/

namespace RetryWeave.DocComment

/-- An item of a list: its number, if the list is numbered, and its paragraphs. -/
structure Item where
  number : Bytes
  paragraphs : List Bytes
deriving DecidableEq, Repr

/-- The target of a link, given on a line `[text]: url`. -/
structure LinkDef where
  text : Bytes
  url : Bytes
deriving DecidableEq, Repr

inductive Block where
  | paragraph (text : Bytes)
  | heading (text : Bytes)
  | code (lines : List Bytes)
  /-- A list, with whether a blank line stood before it, and whether one stood inside it. -/
  | list (items : List Item) (blankBefore blankBetween : Bool)
  /-- Lines that only define links. -/
  | links (defs : List LinkDef)
deriving DecidableEq, Repr

/-! ### Lines -/

def isIndented (line : Bytes) : Bool := (line.head?.map Ascii.isBlank).getD false

def leadingBlanks (line : Bytes) : Bytes := line.takeWhile Ascii.isBlank

/-- Without empty lines at the start and at the end. -/
def trimEmpty (lines : List Bytes) : List Bytes :=
  ((lines.dropWhile (·.isEmpty)).reverse.dropWhile (·.isEmpty)).reverse

/-- Removes the indentation that all lines share; lines of white space become empty. -/
def unindent (lines : List Bytes) : List Bytes :=
  match trimEmpty lines with
  | [] => []
  | first :: rest =>
    let margin := (rest.filter (!·.isEmpty)).foldl
      (fun m line => Bytes.commonStart m (leadingBlanks line)) (leadingBlanks first)
    trimEmpty ((first :: rest).map fun line =>
      let line := (Bytes.stripStart? margin line).getD line
      if (Bytes.trimSpace line).isEmpty then [] else line)

/-! ### Markers -/

def bullets : List Char := ['•', '*', '+', '-']

/-- The number (empty for a bullet) and the rest of a line that starts a list item. -/
def listMarker? (line : Bytes) : Option (Bytes × Bytes) :=
  let line := Bytes.trimSpace line
  let found : Option (Bytes × Bytes) :=
    match line with
    | [] => none
    | b :: rest =>
      let r := Rune.first b rest
      if bullets.contains r.char then some ([], line.drop r.raw.length)
      else
        let digits := line.takeWhile Ascii.isDigit
        match digits, line.drop digits.length with
        | [], _ => none
        | _, mark :: after =>
          if mark == Ascii.dot || mark == Ascii.rparen then some (digits, after) else none
        | _, [] => none
  found.filter fun (_, rest) => isIndented rest && !(Bytes.trimSpace rest).isEmpty

def isList (line : Bytes) : Bool := (listMarker? line).isSome

/-- A heading: a `#`, a blank, and text. -/
def isHeading (line : Bytes) : Bool :=
  match line with
  | Ascii.hash :: b :: _ => Ascii.isBlank b && Bytes.trimSpace line ≠ [Ascii.hash]
  | _ => false

/-- Whether every text after an occurrence of `sep` passes a test. -/
def allAfter (sep : UInt8) (test : Bytes → Bool) : Bytes → Bool
  | [] => true
  | b :: rest => (b ≠ sep || test rest) && allAfter sep test rest

def headingStops : List Char := ";:!?+*/=[]\x7b\x7d_^°&§~%#@<\">\\".toList

/-- A heading without a mark: a single line between blank lines, followed by text that is not
indented. It starts with a capital, ends with a letter or digit, and has no punctuation but
parentheses, commas, `'s`, and points inside words. -/
def isPlainHeading (before line : Bytes) (after : List Bytes) : Bool :=
  match after with
  | [] :: next :: _ =>
    let runes := (Bytes.trimSpace line).runes
    let text := Bytes.trimSpace line
    let startsUpper := (runes.head?.map fun r =>
      Unicode.isLetter r.char && Unicode.isUpper r.char).getD false
    let endsWord := (runes.getLast?.map fun r =>
      Unicode.isLetter r.char || Unicode.isDigit r.char).getD false
    before.isEmpty && (leadingBlanks next).isEmpty && startsUpper && endsWord &&
      !runes.any (fun r => headingStops.contains r.char) &&
      allAfter Ascii.apostrophe
        (fun rest => rest = [115] || Bytes.startsWith [115, Ascii.space] rest) text &&
      allAfter Ascii.dot
        (fun rest => !rest.isEmpty && !Bytes.startsWith [Ascii.space] rest) text
  | _ => false

/-! ### Spans -/

inductive SpanKind where
  | code
  | heading
  | list
  | paragraph
deriving DecidableEq, Repr

/-- Lines from `start` up to `stop` that form a block. -/
structure Span where
  kind : SpanKind
  start : Nat
  stop : Nat
deriving DecidableEq, Repr

/-- The first line at or after `i` that fails a test, which is given the line and its number. -/
def skipWhile (lines : List Bytes) (test : Nat → Bytes → Bool) (i : Nat) : Nat :=
  i + (((lines.drop i).zipIdx i).takeWhile fun (line, k) => test k line).length

def lineAt (lines : List Bytes) (i : Nat) : Bytes := lines.getD i []

/-- The end of lines from `start` up to `stop`, without the empty ones at the end. -/
def trimStop (lines : List Bytes) (start stop : Nat) : Nat :=
  stop - (((lines.take stop).drop start).reverse.takeWhile (·.isEmpty)).length

/-- The span of indented lines at `start`. Lines before `forced` count as indented; a list that is
so forced takes further items up to a blank line. A brace that closes code may be unindented. -/
def indentedSpan (lines : List Bytes) (forced start : Nat) : Span :=
  let blankAt := skipWhile lines (fun _ line => !line.isEmpty) (start + 1)
  let loose := isList (lineAt lines start) && start < forced
  let after := skipWhile lines (fun k line =>
    line.isEmpty || k < forced || isIndented line || (loose && k ≤ blankAt && isList line))
    (start + 1)
  let stop := trimStop lines start after
  let stop := if stop < lines.length && Bytes.startsWith [Ascii.rbrace] (lineAt lines stop) then
      stop + 1
    else stop
  ⟨if isList (lineAt lines start) then .list else .code, start, stop⟩

/-- Where unindented lines from `start` stop, and before which line all lines count as indented.
List items, or the opening of code, right above an indented line belong to it. -/
def unindentedStop (lines : List Bytes) (forced start : Nat) : Nat × Nat :=
  let after := skipWhile lines (fun _ line => !line.isEmpty && !isIndented line) (start + 1)
  let next := lineAt lines after
  let above := lineAt lines (after - 1)
  if after < lines.length && !next.isEmpty && !isList next then
    if isList above then
      let items := ((lines.take (after - 1)).drop start).reverse.takeWhile isList
      (after - 1 - items.length, after)
    else if Bytes.endsWith [Ascii.lbrace] above || Bytes.endsWith [Ascii.backslash] above then
      (after - 1, after)
    else (after, forced)
  else (after, forced)

def unindentedSpan (lines : List Bytes) (start stop : Nat) : Span :=
  let line := lineAt lines start
  let alone := stop = start + 1
  let kind : SpanKind :=
    if alone && isHeading line then .heading
    else if alone && 0 < start &&
        isPlainHeading (lineAt lines (start - 1)) line (lines.drop (start + 1)) then .heading
    else .paragraph
  ⟨kind, start, stop⟩

/-- The spans of lines from `i` on. Each step passes a line or forces one to count as indented. -/
def spansFrom (lines : List Bytes) : Nat → Nat → Nat → List Span
  | 0, _, _ => []
  | fuel + 1, forced, i =>
    let start := skipWhile lines (fun _ line => line.isEmpty) i
    if lines.length ≤ start then []
    else if start < forced || isIndented (lineAt lines start) then
      let span := indentedSpan lines forced start
      span :: spansFrom lines fuel forced span.stop
    else
      let (stop, forced') := unindentedStop lines forced start
      if stop = start && start < forced' then spansFrom lines fuel forced' start
      else unindentedSpan lines start stop :: spansFrom lines fuel forced' stop

def spans (lines : List Bytes) : List Span := spansFrom lines (2 * lines.length + 2) 0 0

/-! ### Blocks -/

def schemes : List String := ["file", "ftp", "gopher", "http", "https", "mailto", "nntp"]

def isScheme (text : Bytes) : Bool := schemes.any fun s => Bytes.ofString s == text

/-- Reads a line `[text]: url`. -/
def linkDef? (line : Bytes) : Option LinkDef :=
  match line with
  | Ascii.lbrack :: rest =>
    match Bytes.cut? "]:" rest with
    | some (text, b :: url) =>
      if !Ascii.isBlank b || url.isEmpty then none
      else
        let url := Bytes.trimSpace url
        match Bytes.cut? "://" url with
        | some (scheme, _) => if isScheme scheme then some ⟨text, url⟩ else none
        | none => none
    | _ => none
  | _ => none

/-- Lines that all define links, or else a paragraph. -/
def paragraphOrLinks (lines : List Bytes) : Block :=
  match lines.mapM linkDef? with
  | some defs => .links defs
  | none => .paragraph (Bytes.join "\n" lines)

/-- A list as it is being read: complete items with the links defined in them, and the lines of the
last paragraph. -/
structure ListState where
  items : List Item
  lines : List Bytes
  defs : List LinkDef
  blank : Bool

namespace ListState

/-- Ends the last paragraph. -/
def endParagraph (s : ListState) : ListState :=
  match s.items.reverse with
  | [] => { s with lines := [] }
  | item :: before =>
    match paragraphOrLinks s.lines with
    | .paragraph text =>
      { s with
        items := (⟨item.number, item.paragraphs ++ [text]⟩ :: before).reverse, lines := [] }
    | .links defs => { s with defs := s.defs ++ defs, lines := [] }
    | _ => { s with lines := [] }

def step (numbered : Bool) (s : ListState) (line : Bytes) : ListState :=
  let (s, line) : ListState × Bytes :=
    match listMarker? line with
    | some (number, rest) =>
      if !number.isEmpty == numbered then
        let s := s.endParagraph
        ({ s with items := s.items ++ [⟨number, []⟩] }, rest)
      else (s, line)
    | none => (s, line)
  let line := Bytes.trimSpace line
  if line.isEmpty then { s.endParagraph with blank := true }
  else { s with lines := s.lines ++ [line] }

end ListState

/-- The items of a list; all are numbered if the first is. -/
def listBlocks (lines : List Bytes) (blankBefore : Bool) : List Block :=
  let numbered := ((lines.head?.bind listMarker?).map fun (number, _) => !number.isEmpty).getD false
  let s := (lines.foldl (ListState.step numbered) ⟨[], [], [], false⟩).endParagraph
  [.list s.items blankBefore s.blank, .links s.defs]

def blocksOf (lines : List Bytes) (before : Nat) (s : Span) : List Block :=
  let part := (lines.take s.stop).drop s.start
  match s.kind with
  | .list => listBlocks part (before < s.start)
  | .code => [.code (unindent part)]
  | .heading =>
    let line := part.headD []
    [.heading (Bytes.trimSpace (if isHeading line then line.drop 1 else line))]
  | .paragraph => [paragraphOrLinks part]

/-- The blocks of the lines of a comment. -/
def blocks (lines : List Bytes) : List Block :=
  let lines := unindent lines
  let found := spans lines
  let stops := 0 :: found.map (·.stop)
  (stops.zip found).flatMap fun (before, s) => blocksOf lines before s

end RetryWeave.DocComment
