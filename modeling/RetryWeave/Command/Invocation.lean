import RetryWeave.Command.Flags
import RetryWeave.Text.EditDistance

/-!
What a command line asks for.
-/

namespace RetryWeave.Command

/-- What every command can be told. -/
structure Common where
  verbose : Bool
  config : Bytes
deriving DecidableEq, Repr

structure ExpandFlags where
  write : Bool
  list : Bool
  /-- The directory for expanded copies; empty for none. -/
  output : Bytes
  jobs : Int
deriving DecidableEq, Repr

/-- A command with its flags and arguments. -/
inductive Invocation where
  | expand (common : Common) (flags : ExpandFlags) (paths : List Bytes)
  | check (common : Common) (jobs : Int) (paths : List Bytes)
  | locate (common : Common) (path line : Bytes)
  | version
  | help
deriving DecidableEq, Repr

namespace Invocation

/-! ### Commands and their flags -/

def programName : Bytes := "retrygen"

def commonFlags : List Flag := [⟨"verbose", some 118, .switch⟩, ⟨"config", none, .text⟩]

def helpFlag : Flag := ⟨"help", some 104, .switch⟩

def jobsFlag : Flag := ⟨"jobs", some 106, .number⟩

def expandFlags : List Flag :=
  [⟨"write", some 119, .switch⟩, ⟨"list", some 108, .switch⟩, ⟨"output", some 111, .text⟩, jobsFlag]

/-- The flags of a command. -/
def flagsOf (own : List Flag) : List Flag := own ++ commonFlags ++ [helpFlag]

/-- The names of commands that are suggested. -/
def commandNames : List Bytes := ["check", "expand", "locate", "version", "completion"]

/-- The commands whose names a word could be meant to be: those it begins, and those at most two
edits away. -/
def similarTo (word : Bytes) : List Bytes :=
  commandNames.filter fun name =>
    EditDistance.distance (Bytes.toLower word) name ≤ 2 ||
      Bytes.startsWith (Bytes.toLower word) name

/-! ### Reading -/

def common (p : Parsed) : Common := ⟨p.switch "verbose", p.text "config"⟩

/-- Reads the arguments of a command; a request for help comes before everything else. -/
def withFlags (own : List Flag) (args : List Bytes) (k : Parsed → Except UsageError Invocation) :
    Except UsageError Invocation :=
  match parseArgs (flagsOf own) args .empty with
  | .error e => .error e
  | .ok p => if p.switch helpFlag.name then .ok .help else k p

def ofExpand (args : List Bytes) : Except UsageError Invocation :=
  withFlags expandFlags args fun p =>
    if p.isSet "write" && p.isSet "output" then
      .error (.exclusive ["write", "output"] ["output", "write"])
    else
      .ok (.expand (common p) ⟨p.switch "write", p.switch "list", p.text "output", p.number "jobs"⟩
        p.args)

def ofCheck (args : List Bytes) : Except UsageError Invocation :=
  withFlags [jobsFlag] args fun p => .ok (.check (common p) (p.number "jobs") p.args)

def ofLocate (args : List Bytes) : Except UsageError Invocation :=
  withFlags [] args fun p =>
    match p.args with
    | [path, line] => .ok (.locate (common p) path line)
    | given => .error (.wrongCount 2 given.length)

def ofVersion (args : List Bytes) : Except UsageError Invocation :=
  withFlags [] args fun p =>
    match p.args with
    | [] => .ok .version
    | word :: _ => .error (.unknownCommand word (programName ++ " version") [])

/-- What the arguments of the program ask for. The first word that is neither a flag nor the value
of one names the command. -/
def parse (args : List Bytes) : Except UsageError Invocation :=
  if args.head? = some (Bytes.ofString "--version") then .ok .version
  else
    match words commonFlags args with
    | [] => withFlags [] args fun _ => .ok .help
    | word :: _ =>
      let rest := withoutWord commonFlags word args
      if word = "expand" then ofExpand rest
      else if word = "check" then ofCheck rest
      else if word = "locate" then ofLocate rest
      else if word = "version" then ofVersion rest
      else if word = "help" || word = "completion" then .ok .help
      else .error (.unknownCommand word programName (similarTo word))

end Invocation

end RetryWeave.Command
