import RetryWeave.Command.Outcome
import RetryWeave.Command.Session
import RetryWeave.Expansion.Expand
import RetryWeave.Files.Scan

/-!
The commands. Each looks at files, processes all of them, and only then acts.
-/

namespace RetryWeave.Command

open Files

abbrev LogLines := List (Log.Level × Bytes)

/-! ### Processing files -/

/-- Processes the files in order up to the first that fails; also the log so far. -/
def onEachFile {m : Type → Type} [Monad m] {β : Type} (files : FileReader m)
    (f : SourceFile → Bytes → LogLines × Except Failure β) :
    List SourceFile → m (LogLines × Except Failure (List β))
  | [] => return ([], .ok [])
  | file :: rest => do
    match ← files.read file.path with
    | .error e => return ([], .error (.wrap ("failed to read " ++ file.path ++ ": ") e []))
    | .ok src =>
      match f file src with
      | (log, .error e) => return (log, .error e)
      | (log, .ok b) =>
        let (more, result) ← onEachFile files f rest
        return (log ++ more, result.map (b :: ·))

/-- A file that has been expanded. -/
structure FileResult where
  file : SourceFile
  source : Bytes
  expanded : Expanded

namespace FileResult

def isChanged (r : FileResult) : Bool := r.expanded.output != r.source

def isRejected (r : FileResult) : Bool := !r.expanded.diagnostics.isEmpty

end FileResult

def expandFile (o : Options) (file : SourceFile) (src : Bytes) :
    LogLines × Except Failure FileResult :=
  match expandText o file.path src with
  | .error e => (e.log, .error (e.failure file.path))
  | .ok e => (e.log, .ok ⟨file, src, e⟩)

def checkFile (o : Options) (file : SourceFile) (src : Bytes) :
    LogLines × Except Failure (List Diagnostic) :=
  match checkText o file.path src with
  | .error e => (e.log, .error (e.failure file.path))
  | .ok (diagnostics, log) => (log, .ok diagnostics)

/-- The arguments; without any, everything below the working directory. -/
def pathsOrAll (paths : List Bytes) : List Bytes := if paths.isEmpty then ["./..."] else paths

def badJobs (jobs : Int) : Failure :=
  .text ("invalid argument " ++ Bytes.ofInt jobs ++ " for --jobs: must not be negative")

def rejectedFailure (directives : Nat) (place : Bytes) : Failure :=
  .wrap [] (.cause .diagnostics) (": " ++ Bytes.ofNat directives ++ " directive(s) in " ++ place)

def fileCount (n : Nat) : Bytes := Bytes.ofNat n ++ " file(s)"

def failWith (told : Bytes) (f : Failure) : Outcome := ⟨[.tell told], some f⟩

/-! ### Expanding -/

/-- What is logged about the functions of a file. -/
def mapNotes (s : Session) (r : FileResult) : Bytes :=
  r.expanded.map.flatMap fun e =>
    Log.write s.logger .verbose (r.file.path ++ ":" ++ Bytes.ofInt e.first ++ "-" ++
      Bytes.ofInt e.last ++ ": " ++ e.description)

/-- What becomes of the output of a file. -/
def outputActions (flags : ExpandFlags) (r : FileResult) : List Action :=
  if flags.write then
    if r.isChanged then [.write r.file.path r.expanded.output] else []
  else if !flags.output.isEmpty then
    [.write (Path.join [flags.output, r.file.rel]) r.expanded.output]
  else if flags.list then []
  else [.print r.expanded.output]

/-- What is done about a file. One with rejected directives is only reported. -/
def fileActions (s : Session) (flags : ExpandFlags) (r : FileResult) : List Action :=
  if r.isRejected then [.tell (Report.diagnostics r.expanded.diagnostics)]
  else
    [.tell (mapNotes s r)] ++
      (if flags.list && r.isChanged then [.mention (r.file.path ++ [Ascii.newline])] else []) ++
      outputActions flags r

/-- The counts of a run. -/
def summaryOf (results : List FileResult) : Report.Summary :=
  let good := results.filter (!·.isRejected)
  { files := results.length
    changed := (good.filter (·.isChanged)).length
    expanded := good.foldr (·.expanded.count + ·) 0
    rejected := results.foldr (·.expanded.diagnostics.length + ·) 0 }

/-- All that is done about the files, and how the command ends. -/
def expandOutcome (s : Session) (verbose : Bool) (flags : ExpandFlags) (results : List FileResult) :
    Outcome :=
  let summary := summaryOf results
  let rejected : Nat := results.foldr (·.expanded.diagnostics.length + ·) 0
  let closing := if flags.write || !flags.output.isEmpty || 0 < rejected || verbose
    then [.tell (Report.summary summary false s.styled)] else []
  let place := fileCount (results.filter (·.isRejected)).length
  let failure := if 0 < rejected then some (rejectedFailure rejected place) else none
  ⟨results.flatMap (fileActions s flags) ++ closing, failure⟩

def expand {m : Type → Type} [Monad m] (files : FileReader m) (around : Surroundings)
    (common : Common) (flags : ExpandFlags) (paths : List Bytes) : m Outcome := do
  if flags.jobs < 0 then return ⟨[], some (badJobs flags.jobs)⟩
  else
    match ← Session.start files around common with
    | (note, .error f) => return failWith note f
    | (note, .ok s) =>
      match ← Scan.scan files s.config.exclude (pathsOrAll paths) with
      | .error f => return failWith note f
      | .ok found =>
        let told := note ++ Log.write s.logger .verbose ("Expanding " ++ fileCount found.length)
        match ← onEachFile files (expandFile s.options) found with
        | (log, .error f) => return failWith (told ++ Log.writeAll s.logger log) f
        | (log, .ok results) =>
          let o := expandOutcome s common.verbose flags results
          return { o with actions := .tell (told ++ Log.writeAll s.logger log) :: o.actions }

/-! ### Checking -/

def checkOutcome (s : Session) (found : List (List Diagnostic)) : Outcome :=
  let rejected : Nat := found.foldr (·.length + ·) 0
  let summary : Report.Summary := ⟨found.length, 0, 0, rejected⟩
  let failure := if 0 < rejected
    then some (rejectedFailure rejected (fileCount (found.filter (!·.isEmpty)).length)) else none
  ⟨found.map (fun ds => .tell (Report.diagnostics ds)) ++
    [.tell (Report.summary summary true s.styled)], failure⟩

def check {m : Type → Type} [Monad m] (files : FileReader m) (around : Surroundings)
    (common : Common) (jobs : Int) (paths : List Bytes) : m Outcome := do
  if jobs < 0 then return ⟨[], some (badJobs jobs)⟩
  else
    match ← Session.start files around common with
    | (note, .error f) => return failWith note f
    | (note, .ok s) =>
      match ← Scan.scan files s.config.exclude (pathsOrAll paths) with
      | .error f => return failWith note f
      | .ok found =>
        match ← onEachFile files (checkFile s.options) found with
        | (log, .error f) => return failWith (note ++ Log.writeAll s.logger log) f
        | (log, .ok diagnostics) =>
          let o := checkOutcome s diagnostics
          return { o with actions := .tell (note ++ Log.writeAll s.logger log) :: o.actions }

/-! ### Locating -/

/-- A line number: digits, possibly after a plus sign. -/
def lineNumber? (text : Bytes) : Option Nat :=
  let digits := match text with
    | Ascii.plus :: rest => rest
    | _ => text
  (Bytes.decimal? digits).filter fun n => 0 < n && n < 1 <<< 63

def locateOutcome (path : Bytes) (line : Nat) (e : Expanded) : Outcome :=
  if !e.diagnostics.isEmpty then
    ⟨[.tell (Report.diagnostics e.diagnostics)],
      some (rejectedFailure e.diagnostics.length path)⟩
  else
    let answer := match e.map.resolve? line with
      | some entry => entry.description
      | none => "not inside an expanded function"
    ⟨[.mention (path ++ ":" ++ Bytes.ofNat line ++ ": " ++ answer ++ "\n")], none⟩

def locate {m : Type → Type} [Monad m] (files : FileReader m) (around : Surroundings)
    (common : Common) (path lineText : Bytes) : m Outcome := do
  match lineNumber? lineText with
  | none =>
    return ⟨[], some (.text ("invalid argument " ++ Quoted.quote lineText ++
      " for line: must be a positive integer"))⟩
  | some line =>
    match ← Session.start files around common with
    | (note, .error f) => return failWith note f
    | (note, .ok s) =>
      match ← files.read path with
      | .error f => return failWith note (.wrap ("failed to read " ++ path ++ ": ") f [])
      | .ok src =>
        match expandText s.options path src with
        | .error e => return failWith (note ++ Log.writeAll s.logger e.log) (e.failure path)
        | .ok e =>
          let o := locateOutcome path line e
          return { o with actions := .tell (note ++ Log.writeAll s.logger e.log) :: o.actions }

/-! ### All commands -/

def versionText : Bytes := "retrygen dev (unknown, unknown) linux/amd64\n"

def helpText : Bytes :=
  "retrygen rewrites Go functions annotated with a retry directive.\n\n" ++
  "Usage:\n" ++
  "  retrygen expand [-w | -o dir] [-l] [-j n] [path ...]\n" ++
  "  retrygen check [-j n] [path ...]\n" ++
  "  retrygen locate <file.go> <line>\n" ++
  "  retrygen version\n\n" ++
  "Every command takes --config file and -v.\n"

/-- Runs what a command line asks for. -/
def run {m : Type → Type} [Monad m] (files : FileReader m) (around : Surroundings) :
    Invocation → m Outcome
  | .expand common flags paths => expand files around common flags paths
  | .check common jobs paths => check files around common jobs paths
  | .locate common path line => locate files around common path line
  | .version => return ⟨[.mention versionText], none⟩
  | .help => return ⟨[.mention helpText], none⟩

/-- Runs a command line. -/
def runLine {m : Type → Type} [Monad m] (files : FileReader m) (around : Surroundings)
    (args : List Bytes) : m Outcome :=
  match Invocation.parse args with
  | .error e => return ⟨[], some e.failure⟩
  | .ok i => run files around i

end RetryWeave.Command
