import RetryWeave.Diagnostic

/-!
What is reported to the user: rejected directives, and the closing line of a run.
-/

namespace RetryWeave.Report

/-- Counts of a run. -/
structure Summary where
  files : Int
  changed : Int
  expanded : Int
  rejected : Int
deriving DecidableEq, Repr

/-- A rejected directive on a line of its own. -/
def rejection (position : Position) (message : Bytes) : Bytes :=
  (if position.isValid then position.render else "-") ++ ": " ++ message ++ "\n"

def diagnostic (d : Diagnostic) : Bytes := rejection d.position d.message

def diagnostics (ds : List Diagnostic) : Bytes := ds.flatMap diagnostic

def checkMark : Bytes := "✓ "

def crossMark : Bytes := "✗ "

/-- The closing line of a run that checks or expands files. -/
def summary (s : Summary) (check styled : Bool) : Bytes :=
  let failed := 0 < s.rejected
  let mark := if !styled then [] else if failed then crossMark else checkMark
  let line :=
    if failed then Bytes.ofInt s.rejected ++ " retry directive(s) rejected"
    else if check then Bytes.ofInt s.files ++ " file(s) checked, no problems found"
    else
      "expanded " ++ Bytes.ofInt s.expanded ++ " function(s) in " ++ Bytes.ofInt s.changed ++
        " of " ++ Bytes.ofInt s.files ++ " file(s)"
  mark ++ line ++ "\n"

/-- Output is styled on a terminal, unless the environment says otherwise. -/
def wantsStyle (env : Bytes → Bytes) (terminal : Bool) : Bool :=
  env "RETRYGEN_NO_COLOR" ≠ Bytes.ofString "1" && (env "CI").isEmpty &&
    (env "NO_COLOR").isEmpty && terminal

end RetryWeave.Report
