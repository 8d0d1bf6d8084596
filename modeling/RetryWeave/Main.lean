import RetryWeave.Command.Run

/-!
The program: the commands on the files of the machine.
-/

namespace RetryWeave.Machine

open Files Command

/-! ### Texts and refusals -/

def textOf (b : Bytes) : String := String.ofList (b.runes.map (·.char))

def refusalOf : IO.Error → Refusal
  | .noFileOrDirectory .. => .noEntry
  | .alreadyExists .. => .exists
  | .permissionDenied .. => .denied
  | .inappropriateType .. => .notDirectory
  | _ => .invalid

/-- Tries a call and tells how it was refused. -/
def attempt {α : Type} (call : IO α) : IO (Except Refusal α) := do
  try
    return .ok (← call)
  catch e =>
    return .error (refusalOf e)

/-! ### Looking -/

def infoOf (path : Bytes) (m : IO.FS.Metadata) : Info :=
  ⟨Path.base path, m.type == .dir, m.byteSize.toNat, Outcome.newPerm⟩

def stat (path : Bytes) : IO (Except Failure Info) := do
  let place := (← IO.currentDir) / textOf path
  match ← attempt place.metadata with
  | .ok m => return .ok (infoOf path m)
  | .error r => return .error (.system ("stat " ++ path) r)

def read (path : Bytes) : IO (Except Failure Bytes) := do
  match ← stat path with
  | .error _ => return .error (.system ("open " ++ path) .noEntry)
  | .ok i =>
    if i.isDir then return .error (.system ("read " ++ path) .isDirectory)
    else
      match ← attempt (IO.FS.readBinFile (textOf path)) with
      | .ok content => return .ok content.toList
      | .error r => return .error (.system ("open " ++ path) r)

/-- What is at a path with all that is below it; links are not followed. -/
partial def tree (path : Bytes) : IO FileTree := do
  let place := (← IO.currentDir) / textOf path
  match ← attempt place.symlinkMetadata with
  | .error r => return .unknown (.system ("lstat " ++ path) r)
  | .ok m =>
    let i := infoOf path m
    if !i.isDir then return .node i []
    else
      match ← attempt place.readDir with
      | .error r => return .unknown (.system ("open " ++ path) r)
      | .ok entries =>
        let names := (entries.toList.map fun e => Bytes.ofString e.fileName).mergeSort Bytes.le
        let children ← names.mapM fun name => tree (FileTree.joinPath path name)
        return .node i children

def openDir (path : Bytes) : IO (Except Failure Directory) := do
  match ← stat path with
  | .error f => return .error (.wrap "failed to access path: " f [])
  | .ok i =>
    if !i.isDir then return .error (.text ("path is not a directory: " ++ path))
    else
      let here := Bytes.ofString (← IO.currentDir).toString
      let absolute := if Path.isAbs path then Path.clean path else Path.join [here, path]
      return .ok (.tree absolute (← tree absolute))

def reader : FileReader IO := ⟨stat, read, openDir⟩

/-! ### Acting -/

/-- Replaces a file through a temporary file beside it. -/
def write (path content : Bytes) : IO (Option Failure) := do
  let dir := Path.dir path
  match ← attempt (IO.FS.createDirAll (textOf dir)) with
  | .error r =>
    return some (.wrap ("failed to create directory " ++ dir ++ ": ")
      (.system ("mkdir " ++ dir) r) [])
  | .ok _ =>
    let name := Disk.tempName (Path.base path) (← IO.rand 0 999999999)
    let temp := textOf (FileTree.joinPath dir name)
    match ← attempt (IO.FS.writeBinFile temp ⟨content.toArray⟩) with
    | .error r =>
      return some (.wrap "failed to create temporary file: "
        (.system ("open " ++ Disk.tempText) r) [])
    | .ok _ =>
      match ← attempt (IO.FS.rename temp (textOf path)) with
      | .error r =>
        let _ ← attempt (IO.FS.removeFile temp)
        return some (.wrap ("failed to replace " ++ path ++ ": ")
          (.system ("rename " ++ Disk.tempText ++ " " ++ path) r) [])
      | .ok _ => return none

def emit (stream : IO.FS.Stream) (b : Bytes) : IO (Option Failure) := do
  match ← attempt (stream.write ⟨b.toArray⟩) with
  | .error r => return some (.system "write" r)
  | .ok _ => return none

/-- Takes actions in order. An output that is owed and a write end the run if they fail. -/
def perform : List Action → Option Failure → IO (Option Failure)
  | [], failure => return failure
  | .print text :: rest, failure => do
    match ← emit (← IO.getStdout) text with
    | some f => return some (Outcome.writeFailure f)
    | none => perform rest failure
  | .mention text :: rest, failure => do
    let _ ← emit (← IO.getStdout) text
    perform rest failure
  | .tell text :: rest, failure => do
    let _ ← emit (← IO.getStderr) text
    perform rest failure
  | .write path content :: rest, failure => do
    match ← write path content with
    | some f => return some (Outcome.writeFailure f)
    | none => perform rest failure

/-- The variables that the commands look at. -/
def environment : IO Variables := do
  let names := ["RETRYGEN_CONFIG", "RETRYGEN_NO_COLOR", "CI", "NO_COLOR"]
  let values ← names.mapM fun name => return (name, ← IO.getEnv name)
  return values.filterMap fun (name, value) =>
    value.map fun v => (Bytes.ofString name, Bytes.ofString v)

end RetryWeave.Machine

open RetryWeave in
/-- Runs a command line and returns its exit code. -/
def main (args : List String) : IO UInt32 := do
  let errors ← IO.getStderr
  let around : Command.Surroundings := ⟨← Machine.environment, ← errors.isTty⟩
  let outcome ← Command.runLine Machine.reader around (args.map Bytes.ofString)
  let failure ← Machine.perform outcome.actions outcome.failure
  if let some f := failure then
    let _ ← Machine.emit errors ("Error: " ++ f.message ++ "\n")
  return (ExitCode.ofResult failure).toUInt32
