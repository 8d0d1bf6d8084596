import RetryWeave.Text.Bytes

/-!
Log messages: what a logger writes for a message of some level.
-/

namespace RetryWeave.Log

inductive Level where
  | verbose
  | info
  | error
deriving DecidableEq, Repr

/-- A logger writes nothing, or all messages, or all but the verbose ones. -/
inductive Logger where
  | silent
  | console (verbose : Bool)
deriving DecidableEq, Repr

def Level.mark : Level → Bytes
  | .verbose => "[VERBOSE] "
  | .info => []
  | .error => "[ERROR] "

/-- What a logger writes for a message. -/
def write (logger : Logger) (level : Level) (message : Bytes) : Bytes :=
  match logger with
  | .silent => []
  | .console verbose =>
    if level == .verbose && !verbose then [] else level.mark ++ message ++ "\n"

/-! ### Formats -/

/-- A value for a place in a format. -/
inductive Arg where
  | text (t : Bytes)
  | int (i : Int)
  | bool (b : Bool)
deriving DecidableEq, Repr

namespace Arg

def plain : Arg → Bytes
  | .text t => t
  | .int i => Bytes.ofInt i
  | .bool b => if b then "true" else "false"

def typeName : Arg → Bytes
  | .text _ => "string"
  | .int _ => "int64"
  | .bool _ => "bool"

/-- Whether a value fits a verb. -/
def fits (verb : UInt8) : Arg → Bool
  | .text _ => verb == 115 || verb == 118
  | .int _ => verb == 100 || verb == 118
  | .bool _ => verb == 116 || verb == 118

def tagged (a : Arg) : Bytes := a.typeName ++ "=" ++ a.plain

end Arg

/-- Fills the places of a format. A value that does not fit its verb, a missing value and values
that are left over are shown with their types. -/
def fill : Bytes → List Arg → Bytes
  | [], [] => []
  | [], args => "%!(EXTRA " ++ Bytes.join ", " (args.map Arg.tagged) ++ ")"
  | [Ascii.percent], args => "%!(NOVERB)" ++ fill [] args
  | Ascii.percent :: Ascii.percent :: rest, args => Ascii.percent :: fill rest args
  | Ascii.percent :: verb :: rest, [] => "%!" ++ [verb] ++ "(MISSING)" ++ fill rest []
  | Ascii.percent :: verb :: rest, a :: args =>
    (if a.fits verb then a.plain else "%!" ++ [verb] ++ "(" ++ a.tagged ++ ")") ++ fill rest args
  | b :: rest, args => b :: fill rest args

/-- A message: without values the format is the message. -/
def message (format : Bytes) (args : List Arg) : Bytes :=
  if args.isEmpty then format else fill format args

end RetryWeave.Log
