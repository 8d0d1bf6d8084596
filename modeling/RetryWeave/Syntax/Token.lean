import RetryWeave.Text.Bytes

/-!
The tokens of Go source text.
-/

namespace RetryWeave.Syntax

inductive Tok where
  | eof
  | ident | int | float | imag | char | string
  | add | sub | mul | quo | rem
  | and | or | xor | shl | shr | andNot
  | addAssign | subAssign | mulAssign | quoAssign | remAssign
  | andAssign | orAssign | xorAssign | shlAssign | shrAssign | andNotAssign
  | logAnd | logOr | arrow | inc | dec
  | eql | lss | gtr | assign | not | tilde
  | neq | leq | geq | define | ellipsis
  | lparen | lbrack | lbrace | comma | period
  | rparen | rbrack | rbrace | semicolon | colon
  | kwBreak | kwCase | kwChan | kwConst | kwContinue | kwDefault | kwDefer | kwElse
  | kwFallthrough | kwFor | kwFunc | kwGo | kwGoto | kwIf | kwImport | kwInterface
  | kwMap | kwPackage | kwRange | kwReturn | kwSelect | kwStruct | kwSwitch | kwType | kwVar
deriving DecidableEq, Repr, Inhabited

namespace Tok

/-- The spelling of a keyword, operator or delimiter; empty for the other tokens. -/
def spelling : Tok → Bytes
  | .kwBreak => "break"
  | .kwCase => "case"
  | .kwChan => "chan"
  | .kwConst => "const"
  | .kwContinue => "continue"
  | .kwDefault => "default"
  | .kwDefer => "defer"
  | .kwElse => "else"
  | .kwFallthrough => "fallthrough"
  | .kwFor => "for"
  | .kwFunc => "func"
  | .kwGo => "go"
  | .kwGoto => "goto"
  | .kwIf => "if"
  | .kwImport => "import"
  | .kwInterface => "interface"
  | .kwMap => "map"
  | .kwPackage => "package"
  | .kwRange => "range"
  | .kwReturn => "return"
  | .kwSelect => "select"
  | .kwStruct => "struct"
  | .kwSwitch => "switch"
  | .kwType => "type"
  | .kwVar => "var"
  | .andNotAssign => "&^="
  | .shlAssign => "<<="
  | .shrAssign => ">>="
  | .ellipsis => "..."
  | .addAssign => "+="
  | .subAssign => "-="
  | .mulAssign => "*="
  | .quoAssign => "/="
  | .remAssign => "%="
  | .andAssign => "&="
  | .orAssign => "|="
  | .xorAssign => "^="
  | .andNot => "&^"
  | .logAnd => "&&"
  | .logOr => "||"
  | .arrow => "<-"
  | .inc => "++"
  | .dec => "--"
  | .eql => "=="
  | .neq => "!="
  | .leq => "<="
  | .geq => ">="
  | .define => ":="
  | .shl => "<<"
  | .shr => ">>"
  | .add => "+"
  | .sub => "-"
  | .mul => "*"
  | .quo => "/"
  | .rem => "%"
  | .and => "&"
  | .or => "|"
  | .xor => "^"
  | .lss => "<"
  | .gtr => ">"
  | .assign => "="
  | .not => "!"
  | .tilde => "~"
  | .lparen => "("
  | .lbrack => "["
  | .lbrace => "\x7b"
  | .comma => ","
  | .period => "."
  | .rparen => ")"
  | .rbrack => "]"
  | .rbrace => "\x7d"
  | .semicolon => ";"
  | .colon => ":"
  | _ => []

def keywords : List Tok := [
  .kwBreak, .kwCase, .kwChan, .kwConst, .kwContinue, .kwDefault, .kwDefer, .kwElse,
  .kwFallthrough, .kwFor, .kwFunc, .kwGo, .kwGoto, .kwIf, .kwImport, .kwInterface, .kwMap,
  .kwPackage, .kwRange, .kwReturn, .kwSelect, .kwStruct, .kwSwitch, .kwType, .kwVar]

/-- The operators and delimiters, a longer one before its own start. -/
def operators : List Tok := [
  .andNotAssign, .shlAssign, .shrAssign, .ellipsis, .addAssign, .subAssign, .mulAssign,
  .quoAssign, .remAssign, .andAssign, .orAssign, .xorAssign, .andNot, .logAnd, .logOr, .arrow,
  .inc, .dec, .eql, .neq, .leq, .geq, .define, .shl, .shr, .add, .sub, .mul, .quo, .rem, .and,
  .or, .xor, .lss, .gtr, .assign, .not, .tilde, .lparen, .lbrack, .lbrace, .comma, .period,
  .rparen, .rbrack, .rbrace, .semicolon, .colon]

def keyword? (text : Bytes) : Option Tok := keywords.find? (·.spelling == text)

/-- The operator at the start of a text, as long as possible. -/
def operator? (text : Bytes) : Option (Tok × Nat) :=
  (operators.find? (Bytes.startsWith ·.spelling text)).map fun t => (t, t.spelling.length)

def isLiteral (t : Tok) : Bool :=
  t == .int || t == .float || t == .imag || t == .char || t == .string

/-- After such a token the end of a line ends a statement. -/
def endsStatement (t : Tok) : Bool :=
  t.isLiteral || t == .ident || t == .kwBreak || t == .kwContinue || t == .kwFallthrough ||
    t == .kwReturn || t == .inc || t == .dec || t == .rparen || t == .rbrack || t == .rbrace

/-- How tightly a binary operator binds; zero for a token that is none. -/
def precedence : Tok → Nat
  | .logOr => 1
  | .logAnd => 2
  | .eql | .neq | .lss | .leq | .gtr | .geq => 3
  | .add | .sub | .or | .xor => 4
  | .mul | .quo | .rem | .shl | .shr | .and | .andNot => 5
  | _ => 0

def isAssignment (t : Tok) : Bool :=
  t == .assign || t == .define || t == .addAssign || t == .subAssign || t == .mulAssign ||
    t == .quoAssign || t == .remAssign || t == .andAssign || t == .orAssign || t == .xorAssign ||
    t == .shlAssign || t == .shrAssign || t == .andNotAssign

end Tok

/-- A comment, from its slash; carriage returns are left out of its text. -/
structure Comment where
  start : Nat
  text : Bytes
deriving DecidableEq, Repr

namespace Comment

/-- The end of a comment, counted from its text. -/
def stop (c : Comment) : Nat := c.start + c.text.length

/-- A comment that ends with its line. -/
def isLine (c : Comment) : Bool := c.text.getD 1 0 == Ascii.slash

end Comment

/-- Comments with no token and no blank line between them; never empty. -/
structure CommentGroup where
  list : List Comment
deriving DecidableEq, Repr

namespace CommentGroup

def start (g : CommentGroup) : Nat := (g.list.head?.map (·.start)).getD 0

def stop (g : CommentGroup) : Nat := (g.list.getLast?.map (·.stop)).getD 0

end CommentGroup

/-- A token with its place and the comments that belong to it. -/
structure Token where
  kind : Tok
  text : Bytes
  start : Nat
  stop : Nat
  /-- A semicolon that stands for the end of a line. -/
  implied : Bool
  /-- The group that ends on the line before the token. -/
  lead : Option CommentGroup
  /-- The group that ends the line of the token before. -/
  trail : Option CommentGroup
deriving DecidableEq, Repr

end RetryWeave.Syntax
