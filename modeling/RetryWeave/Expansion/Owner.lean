import RetryWeave.Syntax.Node

/-!
The declarations that a directive can be attached to, and their signatures.
-/

namespace RetryWeave

open Syntax

/-- What a comment documents. -/
inductive Owner where
  | func (d : FuncDecl)
  | gen (d : GenDecl)
  | spec (s : Spec)
  /-- A field; `element` marks the elements of interfaces. -/
  | field (f : Field) (element : Bool)

namespace Owner

/-- The node as an owner, with the comment that documents it. Imports own no comment. -/
def ofNode? : Node → Option (CommentGroup × Owner)
  | .ident _ => none
  | .func d => d.doc.map (·, .func d)
  | .gen d => d.doc.map (·, .gen d)
  | .field f element => f.doc.map (·, .field f element)
  | .spec s =>
    match s with
    | .importSpec .. => none
    | .valueSpec doc .. => doc.map (·, .spec s)
    | .typeSpec doc .. => doc.map (·, .spec s)

/-- The owners of all comments that document something, outer declarations first. -/
def index (f : File) : List (CommentGroup × Owner) := f.nodes.filterMap ofNode?

/-- The owner of a comment, if it documents something. -/
def find? (owners : List (CommentGroup × Owner)) (group : CommentGroup) : Option Owner :=
  (owners.find? fun (doc, _) => doc.start == group.start).map (·.2)

def start : Owner → Pos
  | .func d => d.start
  | .gen d => d.pos
  | .spec s => s.start
  | .field f _ => f.start

/-- The name of the type of a receiver, without pointers and type arguments. -/
def receiverName : Expr → Bytes
  | .ident id => id.name
  | .star _ x => receiverName x
  | .index x _ _ _ => receiverName x
  | _ => "?"
termination_by structural x => x

/-- The name of a declaration; that of a method follows the name of its receiver. -/
def name : Owner → Bytes
  | .func d =>
    match d.recv with
    | some ⟨_, [receiver], _⟩ => receiverName receiver.type ++ "." ++ d.name.name
    | _ => d.name.name
  | .gen _ => []
  | .spec (.importSpec ..) => []
  | .spec (.valueSpec _ names ..) => (names.head?.map (·.name)).getD []
  | .spec (.typeSpec _ name ..) => name.name
  | .field f _ => (f.names.head?.map (·.name)).getD []

end Owner

/-! ### Signatures -/

/-- The part of a function declaration that an expansion needs. -/
structure Signature where
  name : Bytes
  type : FuncType
  body : Option Block

namespace Signature

/-- The signature of a function declaration or of a method of an interface. -/
def ofOwner? : Owner → Option Signature
  | .func d => some ⟨d.name.name, d.type, d.body⟩
  | .field ⟨_, [name], .funcType type, _, _⟩ true => some ⟨name.name, type, none⟩
  | _ => none

/-- The result list, if its last result is the predeclared type `error`. -/
def fallible? (s : Signature) : Option FieldList :=
  s.type.results.filter fun results =>
    match results.list.getLast? with
    | some ⟨_, _, .ident id, _, _⟩ => id.name = Bytes.ofString "error"
    | _ => false

/-- How many results a list declares. -/
def resultCount (results : FieldList) : Nat :=
  results.list.foldr (fun f count => max 1 f.names.length + count) 0

/-- Whether a type is `Context` of the package with the given local name. -/
def isContext (package : Bytes) : Expr → Bool
  | .ident id => package = [Ascii.dot] && id.name = Bytes.ofString "Context"
  | .selector (.ident x) sel => x.name = package && sel.name = Bytes.ofString "Context"
  | _ => false

/-- Whether the first parameter is a context. -/
def beginsWithContext (s : Signature) (package : Option Bytes) : Bool :=
  match package, s.type.params.list with
  | some name, first :: _ => !name.isEmpty && isContext name first.type
  | _, _ => false

end Signature

end RetryWeave
