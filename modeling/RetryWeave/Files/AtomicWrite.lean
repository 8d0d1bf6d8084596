import RetryWeave.Files.Disk

/-!
Replacing a file so that nobody sees it half written: its content goes to a temporary file in the
same directory, which then takes the file's name. Every step may fail; the temporary file does not
outlive the call.
-/

namespace RetryWeave.Files

/-- The calls of a write. -/
inductive WriteStep where
  | makeDirs
  | stat
  | createTemp
  | fill
  | setPerm
  | close
  | rename
deriving DecidableEq, Repr

/-- Which calls are refused, whatever the disk says. -/
abbrev Faults := WriteStep → Option Refusal

namespace Faults

def none : Faults := fun _ => .none

end Faults

namespace Disk

/-- The name of a temporary file is random, so failures do not tell it. -/
def tempText : Bytes := "$TEMP"

/-- A name for the temporary file of a file. -/
def tempName (base : Bytes) (n : Nat) : Bytes :=
  [Ascii.dot] ++ base ++ [Ascii.dot] ++ Bytes.ofNat (1000000000 + n)

/-- The first of these names that a directory does not have. -/
def freeTempName (d : Disk) (dir : Location) (base : Bytes) : Bytes :=
  let free (n : Nat) : Bool := (d.node? (dir ++ [tempName base n])).isNone
  tempName base (((List.range (d.nodes.length + 1)).find? free).getD 0)

/-- Makes an empty temporary file in a directory. -/
def createTemp (d : Disk) (faults : Faults) (dir base : Bytes) :
    Except Failure (Location × Disk) :=
  if base.contains Ascii.slash then
    .error (.text ("createtemp ." ++ base ++ ".*: pattern contains path separator"))
  else
    let refused (r : Refusal) : Failure := .system ("open " ++ tempText) r
    match faults .createTemp with
    | some r => .error (refused r)
    | .none =>
      match d.locate true dir with
      | .error r => .error (refused r)
      | .ok (loc, _) =>
        let name := d.freeTempName loc base
        if name.length > nameLimit then .error (refused .nameTooLong)
        else .ok (loc ++ [name], d.set (loc ++ [name]) (.file [] 0o600))

/-- Gives what is at a place the name of a path. A directory is not replaced. -/
def rename (d : Disk) (source : Location) (path : Bytes) : Except Refusal Disk :=
  match d.resolve false path with
  | .error r => .error r
  | .ok (.present _ .dir) => .error .exists
  | .ok found =>
    match d.node? source with
    | .none => .error .noEntry
    | some n => .ok ((d.erase source).set found.location n)

/-- The steps between the making of the temporary file and its removal. -/
def fillAndRename (d : Disk) (faults : Faults) (temp : Location) (path data : Bytes) (perm : Nat) :
    Except Failure Disk :=
  let failed (what call : Bytes) (r : Refusal) : Failure :=
    .wrap ("failed to " ++ what ++ " " ++ path ++ ": ") (.system call r) []
  match faults .fill with
  | some r => .error (failed "write" ("write " ++ tempText) r)
  | .none =>
    match faults .setPerm with
    | some r => .error (failed "set permissions on" ("chmod " ++ tempText) r)
    | .none =>
      match faults .close with
      | some r => .error (failed "write" ("close " ++ tempText) r)
      | .none =>
        let d' := d.set temp (.file data perm)
        match faults .rename with
        | some r => .error (failed "replace" ("rename " ++ tempText ++ " " ++ path) r)
        | .none =>
          match d'.rename temp path with
          | .error r => .error (failed "replace" ("rename " ++ tempText ++ " " ++ path) r)
          | .ok d'' => .ok d''

/-- Writes a file. A file that is there keeps its permissions. -/
def replaceFile (d : Disk) (faults : Faults) (path data : Bytes) (perm : Nat) :
    Option Failure × Disk :=
  let dir := Path.dir path
  let made : Option Failure × Disk :=
    match faults .makeDirs with
    | some r => (some (.system ("mkdir " ++ dir) r), d)
    | .none => d.makeAll dir
  match made with
  | (some f, d1) => (some (.wrap ("failed to create directory " ++ dir ++ ": ") f []), d1)
  | (.none, d1) =>
    let perm' :=
      match faults .stat, d1.stat path with
      | .none, .ok i => i.perm
      | _, _ => perm % 0o1000
    match d1.createTemp faults dir (Path.base path) with
    | .error f => (some (.wrap "failed to create temporary file: " f []), d1)
    | .ok (temp, d2) =>
      match d2.fillAndRename faults temp path data perm' with
      | .error f => (some f, d2.erase temp)
      | .ok d3 => (.none, d3.erase temp)

end Disk

end RetryWeave.Files
