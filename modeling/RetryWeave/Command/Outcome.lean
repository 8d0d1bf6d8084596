import RetryWeave.Files.AtomicWrite

/-!
What a command does to the world, and how it ends. A command looks at files first; what it then
does is a list of actions, which are taken in order until one fails that may not.
-/

namespace RetryWeave.Command

open Files

inductive Action where
  /-- Output that a command owes. -/
  | print (text : Bytes)
  /-- Output by the way: nobody asks whether it could be printed. -/
  | mention (text : Bytes)
  /-- Messages to the user. -/
  | tell (text : Bytes)
  /-- A file that is to have a content. -/
  | write (path content : Bytes)
deriving DecidableEq, Repr

/-- What goes wrong while actions are taken. -/
structure Mishaps where
  /-- Why an output is refused, if it is, and how many bytes of it are taken before. Outputs are counted
  from zero. -/
  output : Nat → Option (Nat × Failure)
  /-- Which calls of a write are refused. Writes are counted from zero. -/
  write : Nat → Faults

namespace Mishaps

def none : Mishaps := ⟨fun _ => .none, fun _ => .none⟩

/-- What can still go wrong after one output. -/
def afterOutput (m : Mishaps) : Mishaps := { m with output := fun n => m.output (n + 1) }

/-- What can still go wrong after one write. -/
def afterWrite (m : Mishaps) : Mishaps := { m with write := fun n => m.write (n + 1) }

end Mishaps

/-- The same calls are refused to every write, and no output is. -/
instance : Coe Faults Mishaps := ⟨fun faults => ⟨fun _ => none, fun _ => faults⟩⟩

/-- The actions of a command, and its failure if it has one. -/
structure Outcome where
  actions : List Action
  failure : Option Failure

namespace Outcome

/-- The permissions of new files. -/
def newPerm : Nat := 0o644

/-- What can be seen after a command. -/
structure Seen where
  output : Bytes
  messages : Bytes
  failure : Option Failure
  disk : Disk

def writeFailure (f : Failure) : Failure := .both (.cause .writeFailed) f

/-- What gets through of an output. -/
def taken (text : Bytes) : Option (Nat × Failure) → Bytes
  | none => text
  | some (n, _) => text.take n

/-- Takes actions in order. An output that is owed and a write end the run if they fail. -/
def perform (m : Mishaps) : List Action → Seen → Seen
  | [], s => s
  | .tell text :: rest, s => perform m rest { s with messages := s.messages ++ text }
  | .mention text :: rest, s =>
    perform m.afterOutput rest { s with output := s.output ++ taken text (m.output 0) }
  | .print text :: rest, s =>
    let s' := { s with output := s.output ++ taken text (m.output 0) }
    match m.output 0 with
    | some (_, f) => { s' with failure := some (writeFailure f) }
    | none => perform m.afterOutput rest s'
  | .write path content :: rest, s =>
    match s.disk.replaceFile (m.write 0) path content newPerm with
    | (some f, d) => { s with disk := d, failure := some (writeFailure f) }
    | (none, d) => perform m.afterWrite rest { s with disk := d }

/-- What can be seen after the actions of an outcome on a disk. -/
def run (o : Outcome) (m : Mishaps) (d : Disk) : Seen :=
  perform m o.actions ⟨[], [], o.failure, d⟩

end Outcome

end RetryWeave.Command
