import RetryWeave.Expansion.Plan
import RetryWeave.Text.Glob
import RetryWeave.Yaml.Fields

/-!
The configuration of a project: how it is checked, and how it is read from a file.
-/

namespace RetryWeave

/-- What a project chooses. -/
structure Config where
  settings : Settings
  /-- Patterns of the files that are left alone. -/
  exclude : List Bytes
  /-- How many files are processed at once; zero leaves it to the machine. -/
  concurrency : Int
deriving DecidableEq, Repr

namespace Config

/-- The name of the configuration file. -/
def fileName : Bytes := "retrygen.yaml"

def default : Config where
  settings := ⟨Options.defaultDirective, Options.defaultRetries, Options.defaultStem,
    Naming.sequential.word, Options.defaultMessage⟩
  exclude := []
  concurrency := 0

/-! ### Validation -/

/-- What is wrong with the settings, if anything; the first fault counts. -/
def settingsFault? (s : Settings) : Option Bytes :=
  if s.directive.isEmpty then some "directive must not be empty"
  else if Bytes.startsWith "//" s.directive then
    some ("directive " ++ Quoted.quote s.directive ++
      " must be written without the leading slashes")
  else if s.directive.any fun b => Ascii.isBlank b || b == Ascii.newline then
    some ("directive " ++ Quoted.quote s.directive ++ " must not contain whitespace")
  else if s.defaultRetries ≤ 0 then
    some ("default_retries must be positive, got " ++ Bytes.ofInt s.defaultRetries)
  else if !NameSupply.isStem s.stem then
    some ("name_prefix " ++ Quoted.quote s.stem ++ " is not a Go identifier")
  else if (Naming.ofWord? s.naming).isNone then
    some ("naming must be " ++ Quoted.quote Naming.sequential.word ++ " or " ++
      Quoted.quote Naming.hashed.word ++ ", got " ++ Quoted.quote s.naming)
  else none

/-- What is wrong with a configuration, if anything; the first fault counts. -/
def fault? (c : Config) : Option Bytes :=
  match settingsFault? c.settings with
  | some f => some f
  | none =>
    if c.concurrency < 0 then
      some ("concurrency must not be negative, got " ++ Bytes.ofInt c.concurrency)
    else
      (c.exclude.find? fun p => (Glob.matches? p []).isNone).map fun p =>
        "exclude pattern " ++ Quoted.quote p ++ ": syntax error in pattern"

/-- Accepts a configuration without faults. -/
def validate (c : Config) : Except Failure Unit :=
  match c.fault? with
  | none => .ok ()
  | some f => .error (Options.invalid f)

/-! ### Reading -/

/-- Sets a field to a value; a field that is null keeps its value. There has to be such a field, and
the value has to fit it. -/
def set (field : Bytes) (value : Yaml.Node) (c : Config) : Yaml.Decode Config :=
  let s := c.settings
  let text (put : Bytes → Settings) : Yaml.Decode Config := do
    return ((← Yaml.Decode.text value).map fun t => { c with settings := put t }).getD c
  if field = "directive" then text fun t => { s with directive := t }
  else if field = "default_retries" then do
    let put (n : Int) : Config := { c with settings := { s with defaultRetries := n } }
    return ((← Yaml.Decode.int value).map put).getD c
  else if field = "name_prefix" then text fun t => { s with stem := t }
  else if field = "naming" then text fun t => { s with naming := t }
  else if field = "unreachable_message" then text fun t => { s with message := t }
  else if field = "exclude" then do return { c with exclude := ← Yaml.Decode.texts value }
  else if field = "concurrency" then do
    return ((← Yaml.Decode.int value).map fun n => { c with concurrency := n }).getD c
  else Yaml.Decode.refuse

/-- The configuration that a document describes; what it does not mention has its default. -/
def ofDocument (bound : Nat) (n : Yaml.Node) : Yaml.Decode Config := do
  Yaml.Decode.count
  Yaml.Decode.follow n fun
    | .mapping entries => Yaml.Decode.fields set bound entries default
    | .scalar tag isPlain text =>
      if Yaml.meaning? tag isPlain text = some .null then return default else Yaml.Decode.refuse
    | _ => Yaml.Decode.refuse

/-- The configuration in a text; an empty text leaves everything to the defaults. -/
def ofText? (text : Bytes) : Option Config :=
  match Yaml.firstDocument? text with
  | none => none
  | some none => some default
  | some (some n) => (ofDocument (text.length + 1) n .none).map (·.1)

/-- Reads the text of the file at a path and checks it. -/
def ofFile (path text : Bytes) : Except Failure Config :=
  match ofText? text with
  | none => .error (.wrap [] (.cause .invalidConfig) (": " ++ path ++ ": yaml"))
  | some c =>
    match c.validate with
    | .ok _ => .ok c
    | .error f => .error (.wrap (path ++ ": ") f [])

/-- Loads a configuration from what reading its file gave. -/
def load (path : Bytes) (content : Except Failure Bytes) : Except Failure Config :=
  match content with
  | .ok text => ofFile path text
  | .error f => .error (if f.has .notExist then .cause .configNotFound else f)

end Config

end RetryWeave
