import RetryWeave.Files.Walk

/-!
Files in memory: a map from paths to files and directories.
-/

namespace RetryWeave.Files

/-- What is stored at a path. -/
inductive MemoryEntry where
  | file (content : Bytes) (perm : Nat)
  | dir
deriving DecidableEq, Repr

namespace MemoryEntry

def isDir : MemoryEntry → Bool
  | file _ _ => false
  | dir => true

def info (stored : Bytes) : MemoryEntry → Info
  | .file content perm => ⟨Path.base stored, false, content.length, perm⟩
  | .dir => ⟨Path.base stored, true, 0, 0o755⟩

end MemoryEntry

/-- An entry with the path it was made for and its way from the root. -/
structure MemoryRecord where
  path : Bytes
  rel : Bytes
  entry : MemoryEntry
deriving DecidableEq, Repr

/-- A file system in memory. Paths that are not absolute are taken from the root. -/
structure Memory where
  root : Bytes
  records : List (Bytes × MemoryRecord)
deriving DecidableEq, Repr

namespace Memory

/-- The way from the root to a path; the path itself if there is none. -/
def relative (root stored : Bytes) : Bytes := (Path.relative? root stored).getD stored

def record (root stored : Bytes) (e : MemoryEntry) : MemoryRecord :=
  ⟨stored, relative root stored, e⟩

def ofRoot (root : Bytes) : Memory :=
  let top := Path.clean root
  ⟨top, [(top, record top top .dir)]⟩

/-- The path under which something is stored. -/
def resolve (m : Memory) (path : Bytes) : Bytes :=
  if path = [] || path = [Ascii.dot] then m.root
  else if Path.isAbs path then Path.clean path
  else Path.join [m.root, path]

def entry? (m : Memory) (stored : Bytes) : Option MemoryEntry :=
  (m.records.lookup stored).map (·.entry)

/-- Stores an entry in place of the one at its path. -/
def set (m : Memory) (stored : Bytes) (e : MemoryEntry) : Memory :=
  { m with records := (stored, record m.root stored e) :: m.records.filter (·.1 ≠ stored) }

/-- The directories above a path, nearest first, up to the top. -/
def ancestorsFrom : Nat → Bytes → List Bytes
  | 0, _ => []
  | fuel + 1, path =>
    let d := Path.dir path
    if d = [Ascii.slash] || d = [Ascii.dot] then [d] else d :: ancestorsFrom fuel d

def ancestors (path : Bytes) : List Bytes := ancestorsFrom (path.length + 1) path

/-- Stores a file, and the directories above it up to the first entry that is there. -/
def put (m : Memory) (stored content : Bytes) (perm : Nat) : Memory :=
  let m' := m.set stored (.file content perm)
  let missing := (ancestors stored).takeWhile fun d => (m'.entry? d).isNone
  missing.foldl (fun m d => m.set d .dir) m'

/-- Adds a file with the usual permissions, whatever is at its path. -/
def add (m : Memory) (path content : Bytes) : Memory := m.put (m.resolve path) content 0o644

def isDirectory (path : Bytes) : Failure := .text ("path is a directory, not a file: " ++ path)

/-- Writes a file. A file that is there keeps its permissions; a directory is left alone. -/
def write (m : Memory) (path content : Bytes) (perm : Nat) : Except Failure Memory :=
  match m.entry? (m.resolve path) with
  | some .dir => .error (isDirectory path)
  | some (.file _ old) => .ok (m.put (m.resolve path) content old)
  | none => .ok (m.put (m.resolve path) content (perm % 0o1000))

def missing (what path : Bytes) : Failure :=
  .wrap (what ++ " not found: " ++ path ++ ": ") (.cause .notExist) []

def read (m : Memory) (path : Bytes) : Except Failure Bytes :=
  match m.entry? (m.resolve path) with
  | some (.file content _) => .ok content
  | some .dir => .error (isDirectory path)
  | none => .error (missing "file" path)

def stat (m : Memory) (path : Bytes) : Except Failure Info :=
  match m.entry? (m.resolve path) with
  | some e => .ok (e.info (m.resolve path))
  | none => .error (missing "path" path)

/-- Whether a stored path is a directory's own or lies below it. -/
def isUnder (dir stored : Bytes) : Bool :=
  stored = dir || Bytes.startsWith (((Bytes.stripEnd? "/" dir).getD dir) ++ [Ascii.slash]) stored

/-- The order of paths is that of their bytes. -/
def inOrder (a b : Visit) : Bool := Bytes.le a.path b.path

/-- What a walk from a directory is told of a record. -/
def visit (dir stored : Bytes) (r : MemoryRecord) : Visit :=
  ⟨r.path, (Path.relative? dir stored).getD r.rel, r.entry.info r.path⟩

/-- The entries under a directory, in order. -/
def listing (m : Memory) (dir : Bytes) : List Visit :=
  let visits := (m.records.filter fun (p, _) => isUnder dir p).map fun (p, r) => visit dir p r
  visits.mergeSort inOrder

def openDir (m : Memory) (path : Bytes) : Except Failure Directory :=
  let dir := m.resolve path
  match m.entry? dir with
  | some .dir => .ok (.listing dir (m.listing dir))
  | some (.file _ _) => .error (.text ("path is not a directory: " ++ path))
  | none => .error (.text ("directory not found: " ++ path))

def reader (m : Memory) : FileReader Id := ⟨m.stat, m.read, m.openDir⟩

end Memory

end RetryWeave.Files
