import RetryWeave.Files.Walk

/-!
A disk with directories, files and symbolic links, as an operating system shows it to one process.
-/

namespace RetryWeave.Files

/-- A place on the disk: the names on the way from the top. -/
abbrev Location := List Bytes

/-- What is at a place. -/
inductive DiskNode where
  | file (content : Bytes) (perm : Nat)
  | dir
  | link (target : Bytes)
deriving DecidableEq, Repr

/-- The disk as a process sees it from its working directory. -/
structure Disk where
  cwd : Location
  nodes : List (Location × DiskNode)
deriving Repr

namespace Disk

/-! ### Places -/

/-- What is at a place; the top is always a directory. -/
def node? (d : Disk) (loc : Location) : Option DiskNode :=
  if loc.isEmpty then some .dir else d.nodes.lookup loc

def set (d : Disk) (loc : Location) (n : DiskNode) : Disk :=
  { d with nodes := (loc, n) :: d.nodes.filter (·.1 ≠ loc) }

def erase (d : Disk) (loc : Location) : Disk := { d with nodes := d.nodes.filter (·.1 ≠ loc) }

/-- An empty working directory. -/
def ofCwd (cwd : Location) : Disk :=
  ⟨cwd, (List.range cwd.length).map fun n => (cwd.take (n + 1), .dir)⟩

def cwdText (d : Disk) : Bytes := Path.ofElements true d.cwd

/-! ### Paths -/

/-- Where a path leads: to something, or to a free name in a directory. -/
inductive Found where
  | present (loc : Location) (n : DiskNode)
  | absent (dir : Location) (name : Bytes)

namespace Found

def location : Found → Location
  | present loc _ => loc
  | absent dir name => dir ++ [name]

end Found

/-- How far the names of a path lead: to the end, or to a link that is to be followed. -/
inductive Progress where
  | stopped (r : Except Refusal Found)
  | link (dir : Location) (names : List Bytes)

/-- The longest name that a directory takes. -/
def nameLimit : Nat := 255

/-- Follows names from a directory up to the end or the first link. -/
def advance (d : Disk) (followLast : Bool) : Location → List Bytes → Progress
  | loc, [] => .stopped (.ok (.present loc .dir))
  | loc, name :: rest =>
    if name = [] || name = [Ascii.dot] then advance d followLast loc rest
    else if name = Path.dotDot then advance d followLast loc.dropLast rest
    else if name.length > nameLimit then .stopped (.error .nameTooLong)
    else
      match d.node? (loc ++ [name]) with
      | none => .stopped (if rest.isEmpty then .ok (.absent loc name) else .error .noEntry)
      | some .dir => advance d followLast (loc ++ [name]) rest
      | some (.file content perm) =>
        .stopped (if rest.isEmpty then .ok (.present (loc ++ [name]) (.file content perm))
          else .error .notDirectory)
      | some (.link target) =>
        if rest.isEmpty && !followLast then .stopped (.ok (.present (loc ++ [name]) (.link target)))
        else .link (if Path.isAbs target then [] else loc) (Bytes.split Ascii.slash target ++ rest)

/-- Follows names, and as many links as there is fuel. -/
def follow (d : Disk) (followLast : Bool) : Nat → Location → List Bytes → Except Refusal Found
  | 0, _, _ => .error .loop
  | fuel + 1, loc, names =>
    match d.advance followLast loc names with
    | .stopped r => r
    | .link loc' names' => follow d followLast fuel loc' names'

/-- How many links are followed on one path. -/
def linkLimit : Nat := 40

/-- The longest path. -/
def pathLimit : Nat := 4095

/-- Where a path leads. A link at its end is followed or not. -/
def resolve (d : Disk) (followLast : Bool) (path : Bytes) : Except Refusal Found :=
  if path.isEmpty then .error .noEntry
  else if path.length > pathLimit then .error .nameTooLong
  else
    d.follow followLast (linkLimit + 1) (if Path.isAbs path then [] else d.cwd)
      (Bytes.split Ascii.slash path)

/-- What a path leads to. -/
def locate (d : Disk) (followLast : Bool) (path : Bytes) : Except Refusal (Location × DiskNode) :=
  match d.resolve followLast path with
  | .ok (.present loc n) => .ok (loc, n)
  | .ok (.absent _ _) => .error .noEntry
  | .error r => .error r

/-! ### Looking -/

def info (name : Bytes) : DiskNode → Info
  | .file content perm => ⟨name, false, content.length, perm⟩
  | .dir => ⟨name, true, 0, 0o755⟩
  | .link target => ⟨name, false, target.length, 0o777⟩

/-- What a path leads to, links followed. -/
def stat (d : Disk) (path : Bytes) : Except Failure Info :=
  match d.locate true path with
  | .ok (_, n) => .ok (info (Path.base path) n)
  | .error r => .error (.system ("stat " ++ path) r)

def read (d : Disk) (path : Bytes) : Except Failure Bytes :=
  match d.locate true path with
  | .ok (_, .file content _) => .ok content
  | .ok (_, _) => .error (.system ("read " ++ path) .isDirectory)
  | .error r => .error (.system ("open " ++ path) r)

/-- The entries of a directory, in the order of their names. -/
def children (d : Disk) (loc : Location) : List (Bytes × DiskNode) :=
  let found := d.nodes.filterMap fun (l, n) =>
    match l.getLast? with
    | some name => if l.dropLast = loc then some (name, n) else none
    | none => none
  found.mergeSort fun a b => Bytes.le a.1 b.1

/-- What is at a place with all that is below it, as deep as there is fuel. -/
def treeFrom (d : Disk) : Nat → Location → Bytes → DiskNode → FileTree
  | 0, _, name, n => .node (info name n) []
  | fuel + 1, loc, name, n =>
    match n with
    | .dir =>
      .node (info name n) ((d.children loc).map fun (c, m) => treeFrom d fuel (loc ++ [c]) c m)
    | _ => .node (info name n) []

/-- The greatest number of names on the way to anything on the disk. -/
def depth (d : Disk) : Nat := (d.nodes.map (·.1.length)).foldl max 0

/-- What is at a path with all that is below it; a link is not followed. -/
def tree (d : Disk) (path : Bytes) : FileTree :=
  match d.locate false path with
  | .ok (loc, n) => d.treeFrom (d.depth + 1) loc (Path.base path) n
  | .error r => .unknown (.system ("lstat " ++ path) r)

def absolute (d : Disk) (path : Bytes) : Bytes :=
  if Path.isAbs path then Path.clean path else Path.join [d.cwdText, path]

def openDir (d : Disk) (path : Bytes) : Except Failure Directory :=
  match d.stat path with
  | .error f => .error (.wrap "failed to access path: " f [])
  | .ok i =>
    if !i.isDir then .error (.text ("path is not a directory: " ++ path))
    else .ok (.tree (d.absolute path) (d.tree (d.absolute path)))

def reader (d : Disk) : FileReader Id := ⟨d.stat, d.read, d.openDir⟩

/-! ### Making -/

/-- Makes a directory; one that is there already will do. -/
def makeDir (d : Disk) (path : Bytes) : Option Failure × Disk :=
  match d.resolve false path with
  | .ok (.absent dir name) => (none, d.set (dir ++ [name]) .dir)
  | .ok (.present _ .dir) => (none, d)
  | .ok (.present _ _) => (some (.system ("mkdir " ++ path) .exists), d)
  | .error r => (some (.system ("mkdir " ++ path) r), d)

/-- Makes the first of several paths a directory after those that follow it, of which each is the
parent of the one before. -/
def makeDirs (d : Disk) : List Bytes → Option Failure × Disk
  | [] => (none, d)
  | path :: above =>
    match d.stat path with
    | .ok i => (if i.isDir then none else some (.system ("mkdir " ++ path) .notDirectory), d)
    | .error _ =>
      match makeDirs d above with
      | (some f, d') => (some f, d')
      | (none, d') => d'.makeDir path

/-- A clean path and the paths above it, nearest first. -/
def pathsUp (path : Bytes) : List Bytes :=
  let es := Path.elements path
  if es.isEmpty then [path]
  else
    ((List.range es.length).map fun n =>
      Path.ofElements (Path.isAbs path) (es.take (n + 1))).reverse

/-- Makes a directory with those above it. -/
def makeAll (d : Disk) (path : Bytes) : Option Failure × Disk := d.makeDirs (pathsUp path)

/-- Puts something at a path, in place of what is there, and makes the directories above it. -/
def place (d : Disk) (path : Bytes) (n : DiskNode) : Disk :=
  let d' := (d.makeAll (Path.dir path)).2
  match d'.resolve false path with
  | .ok found => d'.set found.location n
  | .error _ => d'

end Disk

end RetryWeave.Files
