import RetryWeave.Diagnostic

/-!
Failures as trees of causes, and the exit code of a failure.
-/

namespace RetryWeave

/-- Causes that callers tell apart. -/
inductive Cause where
  | invalidConfig
  | diagnostics
  | parseFailed
  | writeFailed
  | configNotFound
  | nonPositiveRetries
  | notExist
  | canceled
  | skipDir
deriving DecidableEq, Repr

namespace Cause

def message : Cause → Bytes
  | .invalidConfig => "invalid configuration"
  | .diagnostics => "retry directives rejected"
  | .parseFailed => "parse failed"
  | .writeFailed => "write failed"
  | .configNotFound => "config file not found"
  | .nonPositiveRetries => Fault.nonPositiveRetries.message
  | .notExist => "file does not exist"
  | .canceled => "context canceled"
  | .skipDir => "skip this directory"

end Cause

/-- What the operating system answers to a call that it refuses. -/
inductive Refusal where
  | noEntry
  | notDirectory
  | isDirectory
  | exists
  | nameTooLong
  | loop
  | invalid
  | denied
deriving DecidableEq, Repr

namespace Refusal

def message : Refusal → Bytes
  | .noEntry => "no such file or directory"
  | .notDirectory => "not a directory"
  | .isDirectory => "is a directory"
  | .exists => "file exists"
  | .nameTooLong => "file name too long"
  | .loop => "too many levels of symbolic links"
  | .invalid => "invalid argument"
  | .denied => "permission denied"

end Refusal

/-- A failure: a text, a cause, a rejected directive, a refused call, or what wraps others. -/
inductive Failure where
  | text (message : Bytes)
  | cause (c : Cause)
  | diagnostic (d : Diagnostic)
  | system (call : Bytes) (refusal : Refusal)
  | wrap (before : Bytes) (inner : Failure) (after : Bytes)
  | pair (before : Bytes) (first : Failure) (between : Bytes) (second : Failure) (after : Bytes)
  | join (parts : List Failure)

namespace Failure

mutual

/-- The whole text of a failure. -/
def message : Failure → Bytes
  | .text m => m
  | .cause c => c.message
  | .diagnostic d => d.render
  | .system call refusal => call ++ ": " ++ refusal.message
  | .wrap before inner after => before ++ inner.message ++ after
  | .pair before first between second after =>
    before ++ first.message ++ between ++ second.message ++ after
  | .join parts => Bytes.join "\n" (messages parts)
termination_by structural f => f

/-- The texts of several failures. -/
def messages : List Failure → List Bytes
  | [] => []
  | f :: rest => f.message :: messages rest
termination_by structural fs => fs

end

mutual

/-- Whether a cause occurs anywhere in a failure. -/
def has (c : Cause) : Failure → Bool
  | .text _ => false
  | .cause c' => c == c'
  | .diagnostic _ => false
  | .system _ refusal => c == .notExist && refusal == .noEntry
  | .wrap _ inner _ => inner.has c
  | .pair _ first _ second _ => first.has c || second.has c
  | .join parts => anyHas c parts
termination_by structural f => f

/-- Whether a cause occurs in any of several failures. -/
def anyHas (c : Cause) : List Failure → Bool
  | [] => false
  | f :: rest => f.has c || anyHas c rest
termination_by structural fs => fs

end

/-- Two failures, told with a colon between them. -/
def both (first second : Failure) : Failure := .pair [] first ": " second []

/-- Several failures as one; none is no failure. -/
def joinAll (parts : List Failure) : Option Failure :=
  if parts.isEmpty then none else some (.join parts)

end Failure

/-! ### Exit codes -/

namespace ExitCode

/-- The causes with an exit code of their own, the weightiest first. -/
def ranked : List (Cause × Nat) :=
  [(.invalidConfig, 10), (.diagnostics, 11), (.parseFailed, 12), (.writeFailed, 13)]

/-- How the message of a misused command line starts. -/
def usageStarts : List String := [
  "unknown flag", "unknown shorthand flag", "unknown command", "accepts ", "requires at least",
  "required flag", "invalid argument", "flag needs an argument", "if any flags in the group"]

def isUsage (message : Bytes) : Bool :=
  usageStarts.any fun start => Bytes.startsWith (Bytes.ofString start) message

/-- The exit code of a failure: that of its weightiest cause, two for misuse, one otherwise. -/
def ofFailure (f : Failure) : Nat :=
  match ranked.find? fun (c, _) => f.has c with
  | some (_, code) => code
  | none => if isUsage f.message then 2 else 1

def ofResult : Option Failure → Nat
  | none => 0
  | some f => ofFailure f

end ExitCode

end RetryWeave
