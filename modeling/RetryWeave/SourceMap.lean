import RetryWeave.Text.Bytes

/-!
Which lines of an expanded file belong to which annotated function.
-/

namespace RetryWeave

/-- The lines of one expanded function, both ends included, and where it came from. -/
structure MapEntry where
  first : Int
  last : Int
  file : Bytes
  line : Int
  function : Bytes
  retries : Int
deriving DecidableEq, Repr, Inhabited

namespace MapEntry

/-- The entry of no function. -/
def blank : MapEntry := ⟨0, 0, [], 0, [], 0⟩

def covers (e : MapEntry) (line : Int) : Bool := e.first ≤ line && line ≤ e.last

/-- `function (retries=n) from file:line`. -/
def description (e : MapEntry) : Bytes :=
  e.function ++ " (retries=" ++ Bytes.ofInt e.retries ++ ") from " ++ e.file ++ ":" ++
    Bytes.ofInt e.line

end MapEntry

abbrev SourceMap := List MapEntry

namespace SourceMap

def insert (m : SourceMap) (e : MapEntry) : SourceMap := m ++ [e]

/-- The first entry that covers a line of the expanded file. -/
def resolve? (m : SourceMap) (line : Int) : Option MapEntry := m.find? (·.covers line)

end SourceMap

end RetryWeave
