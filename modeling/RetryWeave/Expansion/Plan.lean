import RetryWeave.Expansion.Loop
import RetryWeave.Failure
import RetryWeave.Log

/-!
Finding the directives of a file and deciding which of them are expanded.
-/

namespace RetryWeave

open Syntax

/-! ### Options -/

/-- How the names of an expansion are kept apart. -/
inductive Naming where
  | sequential
  | hashed
deriving DecidableEq, Repr

namespace Naming

def word : Naming → Bytes
  | .sequential => "sequential"
  | .hashed => "hashed"

def ofWord? (w : Bytes) : Option Naming := [sequential, hashed].find? (·.word == w)

end Naming

/-- What a user may choose; what is empty or zero is left to the defaults. -/
structure Settings where
  directive : Bytes
  defaultRetries : Int
  stem : Bytes
  naming : Bytes
  message : Bytes
deriving DecidableEq, Repr

/-- What an expansion needs to know. -/
structure Options where
  directive : Bytes
  stem : Bytes
  naming : Naming
  defaults : RetryLoop.Defaults
deriving DecidableEq, Repr

namespace Options

def defaultDirective : Bytes := "retry:onfailure"

def defaultRetries : Int := 3

def defaultStem : Bytes := "retry"

def defaultMessage : Bytes := "retry: unreachable"

/-- The text, or the default where it is empty. -/
def orDefault (text default : Bytes) : Bytes := if text.isEmpty then default else text

/-- The defaults of the loop; a budget of zero and an empty message are left to the defaults. -/
def loopDefaults (retries : Int) (message : Bytes) : RetryLoop.Defaults :=
  ⟨if retries = 0 then defaultRetries else retries, orDefault message defaultMessage⟩

def invalid (reason : Bytes) : Failure := .wrap [] (.cause .invalidConfig) (": " ++ reason)

def ofSettings (s : Settings) : Except Failure Options :=
  let stem := orDefault s.stem defaultStem
  let word := orDefault s.naming Naming.sequential.word
  match Naming.ofWord? word with
  | none => .error (invalid ("unknown naming strategy " ++ Quoted.quote word))
  | some naming =>
    if !NameSupply.isStem stem then
      .error (invalid ("name prefix " ++ Quoted.quote stem ++ " is not a Go identifier"))
    else if s.defaultRetries < 0 then
      .error (invalid ("default retries must be positive, got " ++ Bytes.ofInt s.defaultRetries))
    else
      .ok ⟨orDefault s.directive defaultDirective, stem, naming,
        loopDefaults s.defaultRetries s.message⟩

/-- The supply of names for one expansion. With hashed names the seed is the name of the file and
that of the declaration. -/
def names (o : Options) (file declaration : Bytes) (reserved : List Bytes) : NameSupply :=
  let style := match o.naming with
    | .sequential => .sequential
    | .hashed => .hashed (Path.base file ++ ":" ++ declaration)
  ⟨style, o.stem, reserved⟩

end Options

/-! ### Directives of a file -/

/-- A comment that is a directive, with its arguments. -/
structure DirectiveComment where
  comment : Comment
  args : List Bytes

/-- Directives that belong together: those on one declaration, or a single one that stands alone.
The first is applied. -/
structure DirectiveGroup where
  owner : Option Owner
  first : DirectiveComment
  more : List DirectiveComment

namespace DirectiveGroup

def comments (g : DirectiveGroup) : List Comment := (g.first :: g.more).map (·.comment)

/-- The directives of a comment group. -/
def ofComments (name : Bytes) (owners : List (CommentGroup × Owner)) (group : CommentGroup) :
    List DirectiveGroup :=
  let found := group.list.filterMap fun c =>
    (Directive.args? name c.text).map fun args => (⟨c, args⟩ : DirectiveComment)
  match found with
  | [] => []
  | first :: more =>
    match Owner.find? owners group with
    | some owner => [⟨some owner, first, more⟩]
    | none => found.map fun d => ⟨none, d, []⟩

/-- All directives of a file, in source order. -/
def ofFile (name : Bytes) (f : File) : List DirectiveGroup :=
  let owners := Owner.index f
  f.comments.flatMap (ofComments name owners)

end DirectiveGroup

/-! ### Rulings -/

/-- A function that is to be expanded. -/
structure Expansion where
  decl : FuncDecl
  comments : List Comment
  loop : RetryLoop
  name : Bytes
  position : Position
  /-- Its place among the functions of the file. -/
  index : Nat

/-- What becomes of the directives on one declaration. -/
inductive Ruling where
  | rejected (d : Diagnostic)
  | accepted (e : Expansion)

namespace Ruling

def diagnostic? : Ruling → Option Diagnostic
  | .rejected d => some d
  | .accepted _ => none

def expansion? : Ruling → Option Expansion
  | .rejected _ => none
  | .accepted e => some e

/-- What is logged about a ruling. -/
def log (directive : Bytes) : Ruling → List (Log.Level × Bytes)
  | .rejected d => [(.verbose, d.render)]
  | .accepted e =>
    let place := e.position.render
    let ignored := e.comments.length - 1
    let warning := place ++ ": ignoring " ++ Bytes.ofNat ignored ++ " additional //" ++ directive ++
      " directive(s) on " ++ e.name
    let note := place ++ ": expanding " ++ e.name ++ " (retries=" ++ Bytes.ofInt e.loop.retries ++
      ", context=" ++ (if e.loop.async then "true" else "false") ++ ")"
    (if 0 < ignored then [(.info, warning)] else []) ++ [(.verbose, note)]

end Ruling

/-- A parsed file with a ruling on each of its directives. -/
structure Plan where
  file : File
  rulings : List Ruling

namespace Plan

/-- The ruling on a group of directives. -/
def rule (o : Options) (name : Bytes) (f : File) (reserved : List Bytes) (g : DirectiveGroup) :
    Ruling :=
  let directive : Directive := ⟨g.first.args, f.table.position g.first.comment.start⟩
  let place := match g.owner.bind (·.start) with
    | some offset => f.table.position offset
    | none => if g.owner.isSome then .unknown else directive.position
  let declaration := (g.owner.map (·.name)).getD []
  let built := RetryLoop.build o.defaults directive g.owner place f.contextName?
    (o.names name declaration reserved)
  match built, g.owner with
  | .error d, _ => .rejected d
  | .ok loop, some (.func decl) =>
    .accepted ⟨decl, g.comments, loop, declaration, place,
      f.funcs.findIdx fun d => d.start == decl.start⟩
  | .ok _, _ => .rejected ⟨.notFunction, directive.position⟩

/-- The plan for a source file, if it can be parsed. -/
def ofSource? (o : Options) (name src : Bytes) : Option Plan :=
  (parseFile? name src).map fun f =>
    ⟨f, (DirectiveGroup.ofFile o.directive f).map (rule o name f f.idents)⟩

def diagnostics (p : Plan) : List Diagnostic := p.rulings.filterMap Ruling.diagnostic?

def expansions (p : Plan) : List Expansion := p.rulings.filterMap Ruling.expansion?

def log (p : Plan) (o : Options) : List (Log.Level × Bytes) :=
  p.rulings.flatMap (Ruling.log o.directive)

end Plan

/-- What a logger writes for several messages. -/
def Log.writeAll (logger : Logger) (messages : List (Level × Bytes)) : Bytes :=
  messages.flatMap fun (level, message) => write logger level message

end RetryWeave
