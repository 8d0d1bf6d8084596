import RetryWeave.Expansion.Splice
import RetryWeave.SourceMap

/-!
Expanding the directives of a source file.
-/

namespace RetryWeave

open Syntax

/-- What an expansion of a file yields. -/
structure Expanded where
  output : Bytes
  diagnostics : List Diagnostic
  /-- The number of expanded functions. -/
  count : Nat
  map : SourceMap
  log : List (Log.Level × Bytes)

/-- Why a file cannot be expanded. -/
inductive ExpandError where
  /-- The source cannot be parsed. -/
  | unparsable
  /-- The edited source cannot be parsed any more. -/
  | unformattable (log : List (Log.Level × Bytes))
  /-- The output cannot be parsed. -/
  | unreadable (log : List (Log.Level × Bytes))
  /-- A function is missing in the output. -/
  | lost (function : Bytes) (log : List (Log.Level × Bytes))

namespace ExpandError

/-- The failure to expand a file of the given name. -/
def failure (name : Bytes) : ExpandError → Failure
  | .unparsable => .cause .parseFailed
  | .unformattable _ => .wrap [] (.cause .parseFailed) (": formatting expanded " ++ name)
  | .unreadable _ => .cause .parseFailed
  | .lost function _ => .text ("expanded " ++ name ++ " lost function " ++ function)

/-- What was logged before the failure. -/
def log : ExpandError → List (Log.Level × Bytes)
  | .unparsable => []
  | .unformattable messages => messages
  | .unreadable messages => messages
  | .lost _ messages => messages

end ExpandError

namespace Plan

/-- The source with all edits of a plan. -/
def edited (p : Plan) (src : Bytes) : Bytes :=
  Edit.applyAll src (p.expansions.flatMap (·.edits src))

end Plan

/-- The lines of an expanded function in the output. -/
def mapEntry (name : Bytes) (table : LineTable) (d : FuncDecl) (e : Expansion) : MapEntry where
  first := (table.position (d.start.getD 0)).line
  last := (table.position (d.stop.getD 0)).line
  file := name
  line := e.position.line
  function := e.name
  retries := e.loop.retries

/-- The entries of all expansions; a function that the output lacks is named instead. Expansion adds
and removes no declaration, so functions are found by their number. -/
def mapEntries (name : Bytes) (f : File) : List Expansion → Except Bytes SourceMap
  | [] => .ok []
  | e :: rest =>
    match f.funcs[e.index]? with
    | none => .error e.name
    | some d => (mapEntries name f rest).map (mapEntry name f.table d e :: ·)

/-- Expands every valid directive of a source. A source without any is returned as it is. -/
def expandText (o : Options) (name src : Bytes) : Except ExpandError Expanded :=
  match Plan.ofSource? o name src with
  | none => .error .unparsable
  | some plan =>
    let log := plan.log o
    if plan.expansions.isEmpty then .ok ⟨src, plan.diagnostics, 0, [], log⟩
    else
      match Layout.format? (plan.edited src) with
      | none => .error (.unformattable log)
      | some output =>
        match parseFile? name output with
        | none => .error (.unreadable log)
        | some f =>
          match mapEntries name f plan.expansions with
          | .error function => .error (.lost function log)
          | .ok map => .ok ⟨output, plan.diagnostics, plan.expansions.length, map, log⟩

/-- Checks every directive of a source. -/
def checkText (o : Options) (name src : Bytes) :
    Except ExpandError (List Diagnostic × List (Log.Level × Bytes)) :=
  match Plan.ofSource? o name src with
  | none => .error .unparsable
  | some plan => .ok (plan.diagnostics, plan.log o)

end RetryWeave
