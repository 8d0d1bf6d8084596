import RetryWeave.Files.Walk
import RetryWeave.Text.Glob

/-!
Finding the Go files that are named by arguments or lie in directories that are.
-/

namespace RetryWeave.Files

/-- A file to process. -/
structure SourceFile where
  path : Bytes
  /-- The directory argument it was found in, or its own directory if it was named itself. -/
  root : Bytes
  /-- Its path relative to the root. -/
  rel : Bytes
deriving DecidableEq, Repr

namespace Scan

def isSourceName (name : Bytes) : Bool := Bytes.endsWith ".go" name

/-- Names that Go tools pass over. -/
def isIgnored (name : Bytes) : Bool :=
  name.head? == some Ascii.underscore || name.head? == some Ascii.dot

def isSkippedDir (name : Bytes) : Bool :=
  name == Bytes.ofString "vendor" || name == Bytes.ofString "testdata" || isIgnored name

/-- Whether a pattern matches the name of an entry or its relative path. A malformed pattern matches
nothing. -/
def isExcluded (exclude : List Bytes) (name rel : Bytes) : Bool :=
  exclude.any fun pattern =>
    (Glob.matches? pattern name).getD false || (Glob.matches? pattern rel).getD false

/-- Collects the Go files of a directory; directories that are passed over are skipped. -/
def collector (exclude : List Bytes) (root : Bytes) : Visitor (List SourceFile)
  | .error f => fun found => (.stop (.wrap "error walking path: " f []), found)
  | .ok v => fun found =>
    let name := v.info.name
    if v.info.isDir then
      if v.rel ≠ [Ascii.dot] && (isSkippedDir name || isExcluded exclude name v.rel) then
        (.skipDir, found)
      else (.proceed, found)
    else if !isSourceName name || isIgnored name || isExcluded exclude name v.rel then
      (.proceed, found)
    else (.proceed, found ++ [⟨Path.join [root, v.rel], root, v.rel⟩])

/-- The directory or file that an argument names: `/...` at its end is dropped, and nothing is the
working directory. -/
def rootOf (arg : Bytes) : Bytes :=
  let root := (Bytes.stripEnd? "/..." arg).getD arg
  if root = [] || root = Bytes.ofString "..." then [Ascii.dot] else root

/-- The files that one argument stands for. -/
def scanOne {m : Type → Type} [Monad m] (files : FileReader m) (exclude : List Bytes)
    (arg : Bytes) : m (Except Failure (List SourceFile)) := do
  let root := rootOf arg
  match ← files.stat root with
  | .error f => return .error (.wrap ("failed to access " ++ arg ++ ": ") f [])
  | .ok i =>
    if !i.isDir then
      if isSourceName i.name then return .ok [⟨root, Path.dir root, i.name⟩]
      else return .error (.text ("not a Go source file: " ++ arg))
    else
      match ← files.openDir root with
      | .error f => return .error (.wrap "failed to open directory: " f [])
      | .ok dir =>
        match dir.walk (collector exclude root) [] with
        | (some f, _) => return .error f
        | (none, found) => return .ok found

/-- The files of all arguments, in the order of the arguments. -/
def scanAll {m : Type → Type} [Monad m] (files : FileReader m) (exclude : List Bytes) :
    List Bytes → m (Except Failure (List SourceFile))
  | [] => return .ok []
  | arg :: rest => do
    match ← scanOne files exclude arg with
    | .error f => return .error f
    | .ok found =>
      match ← scanAll files exclude rest with
      | .error f => return .error f
      | .ok more => return .ok (found ++ more)

/-- Keeps the first of several files whose paths name the same place by their texts. -/
def dropRepeated (seen : List Bytes) : List SourceFile → List SourceFile
  | [] => []
  | f :: rest =>
    let key := Path.clean f.path
    if seen.contains key then dropRepeated seen rest
    else f :: dropRepeated (key :: seen) rest

def inOrder (a b : SourceFile) : Bool := Bytes.le a.path b.path

/-- What is said when there are no files to look at. -/
def noReader : Bytes := "fsProvider cannot be nil"

/-- The different files that the arguments stand for, in the order of their paths. -/
def scan {m : Type → Type} [Monad m] (files : FileReader m) (exclude args : List Bytes) :
    m (Except Failure (List SourceFile)) := do
  match ← scanAll files exclude args with
  | .error f => return .error f
  | .ok found => return .ok ((dropRepeated [] found).mergeSort inOrder)

end Scan

end RetryWeave.Files
