import RetryWeave.Command.Invocation
import RetryWeave.Config
import RetryWeave.EnvFile
import RetryWeave.Files.Walk
import RetryWeave.Report

/-!
What a command that processes files needs first: the configuration, and how to report.
-/

namespace RetryWeave.Command

open Files

/-- The surroundings of a run. -/
structure Surroundings where
  env : Variables
  /-- Whether messages go to a terminal. -/
  terminal : Bool

structure Session where
  config : Config
  options : Options
  logger : Log.Logger
  /-- Whether reports are styled. -/
  styled : Bool

namespace Session

/-- The variable that names the configuration file. -/
def configVariable : Bytes := "RETRYGEN_CONFIG"

/-- The file of further environment variables. -/
def envFileName : Bytes := ".env"

/-- Whether an environment can hold a variable: its name is not empty and has no equal sign, and
neither name nor value has a zero byte. -/
def isHoldable (name value : Bytes) : Bool :=
  !name.isEmpty && !name.contains Ascii.equal && !name.contains 0 && !value.contains 0

/-- The environment with the variables of a file that it can hold and does not have yet. A file that
is missing or malformed adds none. -/
def withEnvFile (vs : Variables) (content : Except Failure Bytes) : Variables :=
  match content with
  | .error _ => vs
  | .ok text =>
    match EnvFile.parse? text with
    | none => vs
    | some more =>
      vs ++ more.filter fun (name, _) =>
        (more.get? name).any (isHoldable name) && (vs.get? name).isNone

/-- Loads the configuration: from the file that a flag names, else from the one that the environment
names, else from the usual file. Only the last may be missing. -/
def loadConfig {m : Type → Type} [Monad m] (files : FileReader m) (flag : Bytes) (vs : Variables) :
    m (Except Failure Config) := do
  let named := if flag.isEmpty then (vs.get? configVariable).getD [] else flag
  let path := if named.isEmpty then Config.fileName else named
  match Config.load path (← files.read path) with
  | .ok c => return .ok c
  | .error f =>
    if f.has .configNotFound then
      if named.isEmpty then return .ok .default
      else
        return .error (.wrap [] (.cause .invalidConfig) (": " ++ named ++ " does not exist"))
    else return .error (.wrap ("failed to load " ++ path ++ ": ") f [])

/-- What is logged about a configuration. -/
def configNote (c : Config) : Bytes :=
  "Configuration: directive=" ++ c.settings.directive ++ " default_retries=" ++
    Bytes.ofInt c.settings.defaultRetries ++ " naming=" ++ c.settings.naming

/-- Starts a session; also what it has to say so far. -/
def start {m : Type → Type} [Monad m] (files : FileReader m) (around : Surroundings)
    (common : Common) : m (Bytes × Except Failure Session) := do
  let vs := withEnvFile around.env (← files.read envFileName)
  match ← loadConfig files common.config vs with
  | .error f => return ([], .error f)
  | .ok config =>
    let logger := Log.Logger.console common.verbose
    let note := Log.write logger .verbose (configNote config)
    match Options.ofSettings config.settings with
    | .error f => return (note, .error f)
    | .ok options =>
      let styled := Report.wantsStyle (fun name => (vs.get? name).getD []) around.terminal
      return (note, .ok ⟨config, options, logger, styled⟩)

end Session

end RetryWeave.Command
