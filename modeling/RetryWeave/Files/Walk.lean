import RetryWeave.Failure
import RetryWeave.Path

/-!
Walking directories. A visitor is called for every entry and may skip a directory, stop the walk or
crash; what it answers may depend on all earlier visits.
-/

namespace RetryWeave.Files

/-- What is known of a file or directory without reading it. -/
structure Info where
  name : Bytes
  isDir : Bool
  size : Nat
  /-- The permission bits. -/
  perm : Nat
deriving DecidableEq, Repr

/-- An entry that a walk reaches, with its path relative to the walked directory. -/
structure Visit where
  path : Bytes
  rel : Bytes
  info : Info
deriving DecidableEq, Repr

/-- What a visitor answers. A failure may stand for the wish to skip a directory. -/
inductive Answer where
  | proceed
  | stop (f : Failure)
  | crash (reason : Bytes)

/-- A visitor with a memory. Instead of an entry it may be told why there is none. -/
abbrev Visitor (σ : Type) := Except Failure Visit → StateM σ Answer

def crashFailure (path reason : Bytes) : Failure :=
  .text ("walk callback panicked at " ++ path ++ ": " ++ reason)

namespace Answer

/-- The bare wish to skip a directory. -/
@[match_pattern] def skipDir : Answer := .stop (.cause .skipDir)

/-- Whether the wish to skip a directory occurs anywhere in an answer. -/
def skips : Answer → Bool
  | .stop f => f.has .skipDir
  | _ => false

/-- The failure that an answer to the entry at a path stands for. -/
def failure? (path : Bytes) : Answer → Option Failure
  | .proceed => none
  | .stop f => some f
  | .crash reason => some (crashFailure path reason)

@[simp] theorem skips_proceed : proceed.skips = false := rfl

@[simp] theorem skips_skipDir : skipDir.skips = true := rfl

@[simp] theorem failure?_proceed (path : Bytes) : proceed.failure? path = none := rfl

end Answer

/-! ### Listings -/

/-- Whether a path lies below one of several directories. -/
def isBelowAny (dirs : List Bytes) (path : Bytes) : Bool :=
  dirs.any fun d => Bytes.startsWith (d ++ [Ascii.slash]) path

/-- Walks a listing in order. What lies below a skipped directory is left out; the wish to skip what is
no directory is a failure. -/
def walkListing {σ : Type} (visit : Visitor σ) : List Bytes → List Visit → σ → Option Failure × σ
  | _, [], s => (none, s)
  | skipped, v :: rest, s =>
    if isBelowAny skipped v.path then walkListing visit skipped rest s
    else
      let (a, s') := visit (.ok v) s
      if a.skips && v.info.isDir then walkListing visit (skipped ++ [v.path]) rest s'
      else
        match a.failure? v.path with
        | some f => (some f, s')
        | none => walkListing visit skipped rest s'

/-! ### Trees -/

/-- A file or directory with all that is below it. -/
inductive FileTree where
  | node (info : Info) (children : List FileTree)
  /-- An entry of which nothing can be known. -/
  | unknown (f : Failure)

namespace FileTree

/-- Whether an entry alone can be skipped: a directory, or an entry of which nothing is known. -/
def isSkippable : FileTree → Bool
  | node info _ => info.isDir
  | unknown _ => true

/-- How the walk of a subtree ends. -/
inductive Ending where
  | done
  | skipped
  | failed (f : Failure)

def joinRel (rel name : Bytes) : Bytes :=
  if rel = [Ascii.dot] then name else rel ++ Ascii.slash :: name

def joinPath (path name : Bytes) : Bytes :=
  if path = [Ascii.slash] then path ++ name else path ++ Ascii.slash :: name

/-- How an answer ends the walk of a subtree. Only the bare wish to skip counts; a failure that wraps it
is one like all others. -/
def ofAnswer (path : Bytes) (a : Answer) : Ending :=
  match a.failure? path with
  | none => .done
  | some (.cause .skipDir) => .skipped
  | some f => .failed f

@[simp] theorem ofAnswer_proceed (path : Bytes) : ofAnswer path .proceed = .done := rfl

@[simp] theorem ofAnswer_skipDir (path : Bytes) : ofAnswer path .skipDir = .skipped := rfl

mutual

/-- Walks a tree, each directory before what is below it. -/
def walkFrom {σ : Type} (visit : Visitor σ) (path rel : Bytes) : FileTree → σ → Ending × σ
  | .unknown f, s =>
    let (a, s') := visit (.error f) s
    (ofAnswer path a, s')
  | .node info children, s =>
    let (a, s') := visit (.ok ⟨path, rel, info⟩) s
    match ofAnswer path a with
    | .done => walkChildren visit path rel children s'
    | e => (e, s')
termination_by structural t => t

/-- Walks the entries of a directory. A skipped directory is passed; to skip a file is to skip the
rest of its directory. -/
def walkChildren {σ : Type} (visit : Visitor σ) (path rel : Bytes) : List FileTree → σ → Ending × σ
  | [], s => (.done, s)
  | t :: rest, s =>
    let name := match t with
      | .node info _ => info.name
      | .unknown _ => []
    let (e, s') := walkFrom visit (joinPath path name) (joinRel rel name) t s
    match e with
    | .done => walkChildren visit path rel rest s'
    | .skipped => if t.isSkippable then walkChildren visit path rel rest s' else (.skipped, s')
    | .failed f => (.failed f, s')
termination_by structural ts => ts

end

/-- Walks a tree from a path. Skipping the whole tree is no failure. -/
def walk {σ : Type} (visit : Visitor σ) (path : Bytes) (t : FileTree) (s : σ) :
    Option Failure × σ :=
  match walkFrom visit path [Ascii.dot] t s with
  | (.failed f, s') => (some f, s')
  | (_, s') => (none, s')

end FileTree

/-! ### Directories -/

/-- An open directory: a listing of everything below it, or a tree. -/
inductive Directory where
  | listing (path : Bytes) (visits : List Visit)
  | tree (path : Bytes) (t : FileTree)

namespace Directory

def path : Directory → Bytes
  | listing p _ => p
  | tree p _ => p

def walk {σ : Type} (visit : Visitor σ) : Directory → σ → Option Failure × σ
  | listing _ visits, s => walkListing visit [] visits s
  | tree path t, s => t.walk visit path s

end Directory

/-- How files are looked at, in a setting `m` of effects. -/
structure FileReader (m : Type → Type) where
  stat : Bytes → m (Except Failure Info)
  read : Bytes → m (Except Failure Bytes)
  openDir : Bytes → m (Except Failure Directory)

end RetryWeave.Files
