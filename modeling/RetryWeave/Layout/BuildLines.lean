import RetryWeave.BuildConstraint
import RetryWeave.Layout.Page

/-!
The build constraints of a page. They are brought together above the package clause, and both forms
are made to say the same.
-/

namespace RetryWeave.Layout.BuildLines

/-- The line at the start of a text, with its end. -/
def firstLine (text : Bytes) : Bytes :=
  let line := text.takeWhile (!isBreakByte ·)
  line ++ (text.drop line.length).take 1

/-- The comment at the start of a text. -/
def commentAt (text : Bytes) : Bytes :=
  let text := if text.head? == some mark then text.drop 1 else text
  text.takeWhile fun b => b ≠ mark && !isBreakByte b

/-- The end of the last blank line above everything but line comments. The arguments bound the
number of lines, and give the offset of the text and the end of the last blank line. -/
def lastBlank : Nat → Nat → Nat → Bytes → Nat
  | 0, _, found, _ => found
  | fuel + 1, offset, found, text =>
    let blanks := (text.takeWhile Ascii.isBlank).length
    let rest := text.drop blanks
    let isComment := Bytes.startsWith [mark, Ascii.slash, Ascii.slash] rest && 3 < rest.length
    let length := if isComment then (rest.takeWhile (!isBreakByte ·)).length else 0
    match rest.drop length with
    | b :: after =>
      if isBreakByte b then
        let next := offset + blanks + length + 1
        lastBlank fuel next (if isComment then found else next) after
      else found
    | [] => found

def endsBlank (text : Bytes) : Bool :=
  match text.reverse with
  | a :: b :: _ => isBreakByte a && isBreakByte b
  | _ => false

/-- Appends whole lines, without doubling a blank line. -/
def appendLines (x y : Bytes) : Bytes :=
  match y with
  | b :: rest => if isBreakByte b && (x.isEmpty || endsBlank x) then x ++ rest else x ++ y
  | [] => x

/-- The text from `start` on, without the lines at the given offsets. -/
def without (page : Bytes) : Nat → Bytes → List Nat → Bytes
  | start, done, [] => appendLines done (page.drop start)
  | start, done, line :: rest =>
    if line < start then without page start done rest
    else
      without page (line + (firstLine (page.drop line)).length)
        (appendLines done (Bytes.slice page start line)) rest

/-- The text of a constraint after its marker. -/
def afterMarker (marker : Bytes) (comment : Bytes) : Bytes :=
  Bytes.trimSpace ((Bytes.cut? marker comment).elim [] (·.2))

/-- The expression that the constraints of a page stand for, if it is clear. -/
def constraint? (buildLines plusLines : List Bytes) : Option BuildConstraint :=
  match buildLines with
  | [] =>
    (plusLines.mapM fun line => BuildConstraint.ofOptions? (afterMarker "+build" line)).bind
      (BuildConstraint.joinWith .and)
  | [line] => BuildConstraint.parse? (afterMarker "//go:build" line)
  | _ => none

def kept (line : Bytes) : Bytes := [mark] ++ line ++ [mark, Ascii.newline]

/-- The lines of the constraint, in both forms if the page has the second. -/
def blockOf (x : BuildConstraint) (both : Bool) : Bytes :=
  let options := if both then
      (x.optionLines?).getD
        [Bytes.ofString "// +build error: expression too complex for // +build lines"]
    else []
  kept ("//go:build " ++ x.render) ++ options.flatMap kept ++ [Ascii.newline]

/-- The page with its constraints in place. -/
def place (page : Bytes) (buildLines plusLines : List Nat) : Bytes :=
  if buildLines.isEmpty && plusLines.isEmpty then page
  else
    let blank := lastBlank (page.length + 1) 0 0 page
    let early (lines : List Nat) : Option Nat := lines.head?.filter (· < blank)
    let insert := (early buildLines <|> early plusLines).getD blank
    let textAt (start : Nat) : Bytes := commentAt (page.drop start)
    let block := match constraint? (buildLines.map textAt) (plusLines.map textAt) with
      | some x => blockOf x (!plusLines.isEmpty)
      | none =>
        (buildLines ++ plusLines).flatMap (fun start => firstLine (page.drop start)) ++
          [Ascii.newline]
    let after := without page insert [] ((buildLines ++ plusLines).mergeSort (· ≤ ·))
    let after := if endsBlank after then after.dropLast else after
    page.take insert ++ block ++ after

end RetryWeave.Layout.BuildLines
