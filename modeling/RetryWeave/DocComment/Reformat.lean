import RetryWeave.DocComment.Blocks
import RetryWeave.Syntax.Literal

/-!
The normal form of documentation comments.
-/

namespace RetryWeave.DocComment

open Syntax

/-! ### URLs in running text -/

def isHostByte (b : UInt8) : Bool :=
  Ascii.isLetter b || Ascii.isDigit b || b == Ascii.atSign || b == Ascii.minus || b == Ascii.dot ||
    b == Ascii.lbrack || b == Ascii.rbrack || b == Ascii.colon

/-- Punctuation that belongs to a URL only if more of it follows. -/
def isUrlPunct (b : UInt8) : Bool :=
  b == Ascii.dot || b == Ascii.comma || b == Ascii.colon || b == Ascii.semicolon ||
    b == Ascii.question || b == Ascii.bang

def isPathByte (b : UInt8) : Bool :=
  Ascii.isLetter b || Ascii.isDigit b ||
    (Bytes.ofString "$'()*+&#=@~/-[]\x7b\x7d%").contains b

/-- The closing bracket for an opening one. -/
def closing? (b : UInt8) : Option UInt8 :=
  if b == Ascii.lparen then some Ascii.rparen
  else if b == Ascii.lbrack then some Ascii.rbrack
  else if b == Ascii.lbrace then some Ascii.rbrace
  else none

/-- The length of the path of a URL: brackets in it match, and it ends with no punctuation. The
arguments are the brackets still open, the length so far, and the length up to the last good end. -/
def urlPathLength : List UInt8 → Nat → Nat → Bytes → Nat
  | _, _, good, [] => good
  | stack, n, good, b :: rest =>
    if isUrlPunct b then urlPathLength stack (n + 1) good rest
    else if !isPathByte b then good
    else
      match closing? b with
      | some close => urlPathLength (close :: stack) (n + 1) good rest
      | none =>
        if b == Ascii.rparen || b == Ascii.rbrack || b == Ascii.rbrace then
          match stack with
          | top :: below =>
            if top = b then urlPathLength below (n + 1) (if below.isEmpty then n + 1 else good) rest
            else good
          | [] => good
        else urlPathLength stack (n + 1) (if stack.isEmpty then n + 1 else good) rest

/-- The length of the URL at the start of a text; zero if there is none. -/
def urlLength (text : Bytes) : Nat :=
  match Bytes.cut? "://" (text.take 9) with
  | none => 0
  | some (scheme, _) =>
    let host := text.drop (scheme.length + 3)
    match host with
    | [] => 0
    | b :: _ =>
      if !isScheme scheme || text.length < 7 || !isHostByte b || isUrlPunct b then 0
      else
        let run := host.takeWhile isHostByte
        let name := Bytes.trimEndWhile isUrlPunct run
        scheme.length + 3 + name.length + urlPathLength [] 0 0 (host.drop name.length)

/-- The length of the identifier at the start of a text. -/
def wordLength (text : Bytes) : Nat :=
  if (text.head?.map Ascii.isDigit).getD false then 0
  else
    let inWord (c : Char) : Bool :=
      Unicode.isLetter c || c == '_' || (c.toNat < 128 && Unicode.isDigit c)
    ((Bytes.runes text).takeWhile fun r => inWord r.char).foldl (fun n r => n + r.raw.length) 0

/-! ### Quotes -/

def openQuotes : Bytes := "“"

def closeQuotes : Bytes := "”"

/-- Doubled back quotes and apostrophes become quotation marks, except in URLs where `urls` says so,
and except where three or more back quotes stand together. The numbers count the bytes that are kept
as they are, those that are left out, and those that came before. -/
def curlFrom (urls : Bool) : Nat → Nat → Nat → Bytes → Bytes
  | _, _, _, [] => []
  | keep, drop + 1, i, _ :: rest => curlFrom urls keep drop (i + 1) rest
  | keep + 1, 0, i, b :: rest => b :: curlFrom urls keep 0 (i + 1) rest
  | 0, 0, i, b :: rest =>
    let text := b :: rest
    let url := if urls then urlLength text else 0
    let word := if urls && url = 0 then wordLength text else 0
    if 0 < url then b :: curlFrom urls (url - 1) 0 (i + 1) rest
    else if 0 < word then b :: curlFrom urls (word - 1) 0 (i + 1) rest
    else if Bytes.startsWith [Ascii.backquote, Ascii.backquote, Ascii.backquote] text then
      let more := ((text.drop (i + 3)).takeWhile (· == Ascii.backquote)).length
      b :: curlFrom urls (2 + more) 0 (i + 1) rest
    else if Bytes.startsWith [Ascii.backquote, Ascii.backquote] text then
      openQuotes ++ curlFrom urls 0 1 (i + 1) rest
    else if Bytes.startsWith [Ascii.apostrophe, Ascii.apostrophe] text then
      closeQuotes ++ curlFrom urls 0 1 (i + 1) rest
    else b :: curlFrom urls 0 0 (i + 1) rest

def curl (urls : Bool) (text : Bytes) : Bytes := curlFrom urls 0 0 0 text

/-! ### Links -/

/-- Packages of the standard library whose path is a single name. -/
def standardPackages : List String := [
  "bufio", "bytes", "cmp", "context", "crypto", "embed", "encoding", "errors", "expvar", "flag",
  "fmt", "hash", "html", "image", "io", "iter", "log", "maps", "math", "mime", "net", "os", "path",
  "plugin", "reflect", "regexp", "runtime", "slices", "sort", "strconv", "strings", "structs",
  "sync", "syscall", "testing", "time", "unicode", "unique", "unsafe", "weak"]

def isPathElement (e : Bytes) : Bool :=
  !e.isEmpty && e.head? != some Ascii.dot && e.getLast? != some Ascii.dot &&
    e.all fun b => Ascii.isLetter b || Ascii.isDigit b || (Bytes.ofString "-.~_+").contains b

/-- Whether a text names a package: by its full path, or by the name of a standard one. -/
def isPackage (path : Bytes) : Bool :=
  if path.contains Ascii.slash then
    path.head? != some Ascii.minus && (Bytes.split Ascii.slash path).all isPathElement
  else standardPackages.any fun name => Bytes.ofString name = path

/-- Whether a text is an identifier that starts with a capital. -/
def isExportedName (text : Bytes) : Bool :=
  !text.isEmpty && wordLength text = text.length &&
    ((Bytes.runes text).head?.map fun r => Unicode.isUpper r.char).getD false

/-- The text without an exported name at its end and the point before it. -/
def dropName (text : Bytes) : Bytes :=
  match Bytes.cutLast? Ascii.dot text with
  | some (before, name) => if isExportedName name then before else text
  | none => if isExportedName text then [] else text

/-- Whether a text in brackets names a package, or something that a package declares. -/
def isSymbol (text : Bytes) : Bool :=
  let text := (Bytes.stripStart? "*" text).getD text
  let package := dropName text
  isPackage (if package.length < text.length then dropName package else package)

/-- Whether a link may stand beside a character. -/
def besideLink (r : Rune) : Bool :=
  Unicode.isPunct r.char || r.char == ' ' || r.char == '\t' || r.char == '\n'

/-- The last character of a text that is given last byte first. -/
def lastRune? (text : List UInt8) : Option Rune :=
  (Bytes.runes (text.take ((text.takeWhile Rune.isTail).length + 1)).reverse).getLast?

/-- A text with the links in it: what comes before the current place and is not yet written out, the
start of a link, and its text. -/
structure LinkState where
  /-- What is written out, and the links used in it. -/
  done : Bytes
  used : List Bytes
  /-- What is not yet written out. -/
  plain : Bytes
  /-- All of the text up to the current place, last byte first. -/
  passed : List UInt8
  /-- The text since the last opening bracket, and whether the bracket may start a link. -/
  inner : Option (Bytes × Bool)
  /-- The text of the link, with blanks for tabs and newlines. -/
  name : Bytes

namespace LinkState

def start : LinkState := ⟨[], [], [], [], none, []⟩

/-- The text since the last opening bracket, with the bracket. -/
def opened (s : LinkState) : Bytes := (s.inner.map fun (text, _) => Ascii.lbrack :: text).getD []

/-- Writes out a link with the given text, and what comes before it. -/
def close (s : LinkState) (text : Bytes) : LinkState :=
  { s with
    done := s.done ++ curl true s.plain ++ "[" ++ curl false text ++ "]"
    plain := [], inner := none, name := [] }

/-- Passes a byte; `rest` is what follows it. -/
def step (defs : List LinkDef) (s : LinkState) (b : UInt8) (rest : Bytes) : LinkState :=
  let white := if b == Ascii.newline || b == Ascii.tab then Ascii.space else b
  let s' := { s with passed := b :: s.passed }
  if b == Ascii.lbrack then
    let free := (lastRune? s.passed).all besideLink
    { s' with plain := s.plain ++ s.opened, inner := some ([], free) }
  else if b == Ascii.rbrack then
    match s.inner with
    | none => { s' with plain := s.plain ++ [b], name := [] }
    | some (text, free) =>
      let free := free && match rest with
        | [] => true
        | a :: more => besideLink (Rune.first a more)
      if defs.any (·.text == s.name) then { s'.close text with used := s.name :: s.used }
      else if free && isSymbol text then s'.close text
      else { s' with plain := s.plain ++ s.opened ++ [b], inner := none, name := [] }
  else
    match s.inner with
    | some (text, free) =>
      { s' with inner := some (text ++ [b], free), name := s.name ++ [white] }
    | none => { s' with plain := s.plain ++ [b] }

def run (defs : List LinkDef) : LinkState → Bytes → LinkState
  | s, [] => s
  | s, b :: rest => run defs (s.step defs b rest) rest

end LinkState

/-- A paragraph in its normal form, and the texts of the links used in it. -/
def linkedText (defs : List LinkDef) (text : Bytes) : Bytes × List Bytes :=
  let s := LinkState.start.run defs text
  (s.done ++ curl true (s.plain ++ s.opened), s.used)

/-! ### Blocks -/

/-- Indents all lines but the first; the last may be empty. -/
def hang (margin text : Bytes) : Bytes :=
  text.flatMap fun b => if b = Ascii.newline then b :: margin else [b]

/-- The definitions under which links are found: of two for one text the first. -/
def defsOf (bs : List Block) : List LinkDef :=
  bs.flatMap fun
    | .links defs => defs
    | _ => []

def loose (items : List Item) (blankBetween : Bool) : Bool :=
  blankBetween || items.any (·.paragraphs.length ≠ 1)

def renderItem (defs : List LinkDef) (item : Item) : Bytes :=
  let margin : Bytes := "    "
  let lead : Bytes := if item.number.isEmpty then "  - " else " " ++ item.number ++ ". "
  let parts := item.paragraphs.map fun text => hang margin (linkedText defs text).1 ++ "\n"
  lead ++ Bytes.join ("\n" ++ margin) parts

def renderBlock (defs : List LinkDef) : Block → Bytes
  | .paragraph text => (linkedText defs text).1 ++ "\n"
  | .heading text => "# " ++ text ++ "\n"
  | .code lines => lines.flatMap fun line => if line.isEmpty then "\n" else "\t" ++ line ++ "\n"
  | .list items _ between =>
    Bytes.join (if loose items between then "\n" else []) (items.map (renderItem defs))
  | .links _ => []

def blankBefore : Block → Bool
  | .list items before between => before || loose items between
  | _ => true

def isContent : Block → Bool
  | .links _ => false
  | _ => true

/-- The texts of the links that a block uses. -/
def usedIn (defs : List LinkDef) : Block → List Bytes
  | .paragraph text => (linkedText defs text).2
  | .list items _ _ => items.flatMap fun i => i.paragraphs.flatMap fun t => (linkedText defs t).2
  | _ => []

def renderDef (d : LinkDef) : Bytes := "[" ++ d.text ++ "]: " ++ d.url ++ "\n"

def renderDefs (defs : List LinkDef) : Bytes :=
  if defs.isEmpty then [] else [Ascii.newline] ++ defs.flatMap renderDef

/-- Splits definitions into those that are used and those that are not. A text defined twice is
used only where it is first defined. -/
def splitUsed (used : List Bytes) : List Bytes → List LinkDef → List LinkDef × List LinkDef
  | _, [] => ([], [])
  | seen, d :: rest =>
    let (us, ns) := splitUsed used (d.text :: seen) rest
    if used.contains d.text && !seen.contains d.text then (d :: us, ns) else (us, d :: ns)

/-- The normal form of the text of a comment: its blocks separated by blank lines, and after them
the definitions of the links, first those that are used. -/
def render (bs : List Block) : Bytes :=
  let defs := defsOf bs
  let content := bs.filter isContent
  let body := (content.zipIdx).flatMap fun (b, i) =>
    (if 0 < i && blankBefore b then [Ascii.newline] else []) ++ renderBlock defs b
  let (used, unused) := splitUsed (content.flatMap (usedIn defs)) [] defs
  body ++ renderDefs used ++ renderDefs unused

/-! ### Comments -/

/-- Whether the text after `//` makes a comment a directive for a tool. -/
def isDirective (text : Bytes) : Bool :=
  let plain (b : UInt8) : Bool := Ascii.isLower b || Ascii.isDigit b
  if Bytes.startsWith "line " text || Bytes.startsWith "extern " text ||
      Bytes.startsWith "export " text then true
  else
    match Bytes.cut? ":" text with
    | some (tool, b :: _) => !tool.isEmpty && tool.all plain && plain b
    | _ => false

/-- Whether all lines of a general comment but the first start with a star. -/
def allStars (text : Bytes) : Bool :=
  (Bytes.lines text).tail.all fun line =>
    match line.dropWhile Ascii.isBlank with
    | [] => true
    | b :: _ => b == Ascii.star

/-- The lines of a text that ends with a newline, or is empty. -/
def linesOf (text : Bytes) : List Bytes := (Bytes.lines text).dropLast

/-- A line of text as a line comment. -/
def commentLine (line : Bytes) : Bytes :=
  match line with
  | [] => "//"
  | b :: _ => if b == Ascii.tab then "//" ++ line else "// " ++ line

def slashes (text : Bytes) : Bytes := "//" ++ text

/-- Line comments in their normal form; directives come last. -/
def reformatLines (start : Nat) (texts : List Bytes) : Option (List Comment) :=
  let directives := texts.filter isDirective
  let words := texts.filter (!isDirective ·)
  if words.isEmpty then none
  else
    let lines := words.map fun t => (Bytes.stripStart? " " t).getD t
    let out := (linesOf (render (blocks lines))).map commentLine
    let tail := if directives.isEmpty then [] else slashes [] :: directives.map slashes
    some ((out ++ tail).map (⟨start, ·⟩))

/-- The comments that document a declaration, in their normal form. A general comment on one line,
or with a line of stars, is left as it is. -/
def reformat (list : List Comment) : List Comment :=
  match list with
  | [c] =>
    if c.isLine then
      (reformatLines c.start [c.text.drop 2]).getD list
    else if !c.text.contains Ascii.newline || allStars c.text then list
    else
      let inner := (c.text.drop 2).dropLast.dropLast
      [⟨c.start, "/*\n" ++ render (blocks (Bytes.lines inner)) ++ "*/"⟩]
  | c :: _ =>
    if list.all (·.isLine) then
      (reformatLines c.start (list.map (·.text.drop 2))).getD list
    else list
  | [] => []

end RetryWeave.DocComment
