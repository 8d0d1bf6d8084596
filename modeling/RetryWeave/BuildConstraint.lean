import RetryWeave.Text.Rune

/-!
Build constraints: boolean expressions over tags, in the form of `//go:build` lines and in the form
of `// +build` lines.
-/

namespace RetryWeave

inductive BuildConstraint where
  | tag (name : Bytes)
  | not (x : BuildConstraint)
  | and (x y : BuildConstraint)
  | or (x y : BuildConstraint)
deriving DecidableEq, Repr

namespace BuildConstraint

def isTagChar (c : Char) : Bool :=
  Unicode.isLetter c || Unicode.isDigit c || c == '_' || c == '.'

/-! ### Expressions -/

inductive Word where
  | lparen
  | rparen
  | not
  | and
  | or
  | tag (name : Bytes)
deriving DecidableEq, Repr

/-- The words of an expression after its first `skip` bytes. -/
def wordsFrom : Nat → Bytes → Option (List Word)
  | _, [] => some []
  | skip + 1, _ :: rest => wordsFrom skip rest
  | 0, b :: rest =>
    if Ascii.isBlank b then wordsFrom 0 rest
    else if b = Ascii.lparen then (wordsFrom 0 rest).map (.lparen :: ·)
    else if b = Ascii.rparen then (wordsFrom 0 rest).map (.rparen :: ·)
    else if b = Ascii.bang then (wordsFrom 0 rest).map (.not :: ·)
    else if b = Ascii.amp || b = Ascii.bar then
      if rest.head? = some b then
        (wordsFrom 1 rest).map ((if b = Ascii.amp then Word.and else Word.or) :: ·)
      else none
    else
      let name := Bytes.ofRunes ((Bytes.runes (b :: rest)).takeWhile fun r => isTagChar r.char)
      if name.isEmpty then none
      else (wordsFrom (name.length - 1) rest).map (.tag name :: ·)

mutual

/-- An expression at the start of some words, with the words after it. -/
def orExpr? : Nat → List Word → Option (BuildConstraint × List Word)
  | 0, _ => none
  | fuel + 1, ws =>
    match andExpr? fuel ws with
    | none => none
    | some (x, rest) => orMore? fuel x rest

/-- Further parts of a disjunction. -/
def orMore? : Nat → BuildConstraint → List Word → Option (BuildConstraint × List Word)
  | 0, _, _ => none
  | fuel + 1, x, ws =>
    match ws with
    | .or :: rest =>
      match andExpr? fuel rest with
      | none => none
      | some (y, rest') => orMore? fuel (.or x y) rest'
    | _ => some (x, ws)

/-- A conjunction. -/
def andExpr? : Nat → List Word → Option (BuildConstraint × List Word)
  | 0, _ => none
  | fuel + 1, ws =>
    match notExpr? fuel ws with
    | none => none
    | some (x, rest) => andMore? fuel x rest

/-- Further parts of a conjunction. -/
def andMore? : Nat → BuildConstraint → List Word → Option (BuildConstraint × List Word)
  | 0, _, _ => none
  | fuel + 1, x, ws =>
    match ws with
    | .and :: rest =>
      match notExpr? fuel rest with
      | none => none
      | some (y, rest') => andMore? fuel (.and x y) rest'
    | _ => some (x, ws)

/-- A tag or an expression in parentheses, which at most one negation precedes. -/
def notExpr? : Nat → List Word → Option (BuildConstraint × List Word)
  | 0, _ => none
  | fuel + 1, ws =>
    match ws with
    | .not :: rest => (atom? fuel rest).map fun (x, rest') => (.not x, rest')
    | _ => atom? fuel ws

/-- A tag, or an expression in parentheses. -/
def atom? : Nat → List Word → Option (BuildConstraint × List Word)
  | 0, _ => none
  | fuel + 1, ws =>
    match ws with
    | .tag name :: rest => some (.tag name, rest)
    | .lparen :: rest =>
      match orExpr? fuel rest with
      | some (x, .rparen :: rest') => some (x, rest')
      | _ => none
    | _ => none

end

/-- The most tags and parentheses of an expression. -/
def maxAtoms : Nat := 1000

def startsAtom : Word → Bool
  | .tag _ | .lparen => true
  | _ => false

/-- The expression of a `//go:build` line, unless it is too large. -/
def parse? (text : Bytes) : Option BuildConstraint := do
  let ws ← wordsFrom 0 text
  if maxAtoms < ws.countP startsAtom then none
  else
    match orExpr? (5 * ws.length + 5) ws with
    | some (x, []) => some x
    | _ => none

/-! ### Options -/

def ignored : BuildConstraint := .tag "ignore"

def isTag (name : Bytes) : Bool := !name.isEmpty && name.runes.all fun r => isTagChar r.char

/-- A tag of a `// +build` line, or its negation; what is neither excludes the file. -/
def option (text : Bytes) : BuildConstraint :=
  let tagOrIgnored (name : Bytes) : BuildConstraint := if isTag name then .tag name else ignored
  match text with
  | Ascii.bang :: Ascii.bang :: _ => ignored
  | [Ascii.bang] => ignored
  | Ascii.bang :: name => .not (tagOrIgnored name)
  | name => tagOrIgnored name

def joinWith (op : BuildConstraint → BuildConstraint → BuildConstraint) :
    List BuildConstraint → Option BuildConstraint
  | [] => none
  | x :: rest => some (rest.foldl op x)

/-- The most operators of a `// +build` line. -/
def maxOperators : Nat := 100

/-- The expression of a `// +build` line, unless it is too large: alternatives are separated by
blanks, and what has to hold together by commas. -/
def ofOptions? (text : Bytes) : Option BuildConstraint :=
  let clauses := (Bytes.fields text).map fun clause => (Bytes.split Ascii.comma clause).map option
  if maxOperators + 1 < clauses.foldr (·.length + ·) 0 then none
  else some ((joinWith .or (clauses.filterMap (joinWith .and))).getD ignored)

/-! ### Text -/

def isAnd : BuildConstraint → Bool
  | .and _ _ => true
  | _ => false

def isOr : BuildConstraint → Bool
  | .or _ _ => true
  | _ => false

def parens (wanted : Bool) (text : Bytes) : Bytes := if wanted then "(" ++ text ++ ")" else text

/-- The text of an expression, with parentheses wherever operators meet. -/
def render : BuildConstraint → Bytes
  | .tag name => name
  | .not x => "!" ++ parens (x.isAnd || x.isOr) x.render
  | .and x y => parens x.isOr x.render ++ " && " ++ parens y.isOr y.render
  | .or x y => parens x.isAnd x.render ++ " || " ++ parens y.isAnd y.render

/-- Moves negations to the tags. -/
def pushNot : Bool → BuildConstraint → BuildConstraint
  | negate, .tag name => if negate then .not (.tag name) else .tag name
  | negate, .not x => pushNot (!negate) x
  | negate, .and x y =>
    if negate then .or (pushNot negate x) (pushNot negate y)
    else .and (pushNot negate x) (pushNot negate y)
  | negate, .or x y =>
    if negate then .and (pushNot negate x) (pushNot negate y)
    else .or (pushNot negate x) (pushNot negate y)

def conjuncts : BuildConstraint → List BuildConstraint
  | .and x y => conjuncts x ++ conjuncts y
  | x => [x]

def disjuncts : BuildConstraint → List BuildConstraint
  | .or x y => disjuncts x ++ disjuncts y
  | x => [x]

def isLiteral : BuildConstraint → Bool
  | .tag _ => true
  | .not _ => true
  | _ => false

/-- The `// +build` lines of an expression; there are none if alternatives nest too deeply. -/
def optionLines? (x : BuildConstraint) : Option (List Bytes) :=
  let split := (conjuncts (pushNot false x)).map fun or => (disjuncts or).map conjuncts
  if split.all fun or => or.all fun and => and.all isLiteral then
    let split := if split.all fun or => or.length ≤ 1 then [[(split.flatMap id).flatMap id]]
      else split
    some (split.map fun or =>
      "// +build" ++ or.flatMap fun and =>
        Ascii.space :: Bytes.join [Ascii.comma] (and.map render))
  else none

end BuildConstraint

end RetryWeave
