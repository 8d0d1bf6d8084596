import RetryWeave.DocComment.Reformat
import RetryWeave.Syntax.Extent
import RetryWeave.Text.Quoted

/-!
Sorting imports. In a parenthesised declaration the imports on successive lines are sorted by path,
and repeated ones are removed. Imports take the places of those that stood there before, and
comments move with the imports beside which they stand.
-/

namespace RetryWeave.Layout.Imports

open Syntax

/-- An import with its place in its run. -/
structure Entry where
  index : Nat
  doc : Option CommentGroup
  name : Option Ident
  path : Lit
  comment : Option CommentGroup
  stop : Pos

namespace Entry

def ofSpec? : Nat → Spec → Option Entry
  | index, .importSpec doc name path comment stop => some ⟨index, doc, name, path, comment, stop⟩
  | _, _ => none

def spec (e : Entry) : Spec := .importSpec e.doc e.name e.path e.comment e.stop

def pathText (e : Entry) : Bytes := (Quoted.unquote? e.path.text).getD []

def nameText (e : Entry) : Bytes := (e.name.map (·.name)).getD []

/-- The lines of a comment without its markers; a directive for a tool has none. -/
def commentLines (c : Comment) : List Bytes :=
  let inner := c.text.drop 2
  let lines :=
    if !c.isLine then Bytes.lines inner.dropLast.dropLast
    else if inner.head? == some Ascii.space then [inner.drop 1]
    else if DocComment.isDirective inner then []
    else [inner]
  lines.map (Bytes.trimEndWhile fun b => Ascii.isBlank b || b == Ascii.cr)

/-- Lines without blank ones after a line that is blank itself. -/
def squeeze : Bool → List Bytes → List Bytes
  | _, [] => []
  | blank, line :: rest =>
    if line.isEmpty && blank then squeeze blank rest else line :: squeeze line.isEmpty rest

/-- The text of the comment after an import, by which equal imports are sorted. A blank line at its
start is left out, and its last line is complete. -/
def remark (e : Entry) : Bytes :=
  let lines := squeeze true (((e.comment.map (·.list)).getD []).flatMap commentLines)
  let lines := if lines.getLast?.all (·.isEmpty) then lines else lines ++ [[]]
  Bytes.join [Ascii.newline] lines

def le (a b : Entry) : Bool :=
  match Bytes.compare a.pathText b.pathText with
  | .lt => true
  | .gt => false
  | .eq =>
    match Bytes.compare a.nameText b.nameText with
    | .lt => true
    | .gt => false
    | .eq => Bytes.le a.remark b.remark

/-- Whether an import says nothing that the one after it does not say. -/
def repeatedBy (a b : Entry) : Bool :=
  a.pathText = b.pathText && a.nameText = b.nameText && a.comment.isNone

end Entry

/-- The comments and lines of a file while its imports are sorted. -/
structure State where
  comments : List CommentGroup
  table : LineTable

/-- The imports that stay, and those that are removed, in order. -/
def dedupe : List Entry → List Entry × List Entry
  | [] => ([], [])
  | [e] => ([e], [])
  | e :: next :: rest =>
    let (stay, gone) := dedupe (next :: rest)
    if e.repeatedBy next then (stay, e :: gone) else (e :: stay, gone)

/-- The import to which each comment belongs, and whether the comment stands before it. -/
def owners (table : LineTable) (starts : List Nat) :
    Nat → List CommentGroup → List (CommentGroup × Nat × Bool)
  | _, [] => []
  | index, g :: rest =>
    let passed := ((starts.drop (index + 1)).takeWhile (· ≤ g.start)).length
    let index := index + passed
    let start := starts.getD index 0
    let first := index = 0 && g.start < start
    let below := !first && index + 1 < starts.length &&
      table.lineOf start + 1 = table.lineOf g.start
    let index := if below then index + 1 else index
    (g, index, first || below) :: owners table starts index rest

def moveGroup (g : CommentGroup) (start : Nat) : CommentGroup :=
  ⟨g.list.map fun c => { c with start }⟩

/-- Sorts a run of imports on successive lines. The line of an import that is removed is joined with
the next, unless the closing parenthesis is on it. -/
def sortRun (s : State) (paren : Nat) (run : List Entry) : List Entry × State :=
  if run.length ≤ 1 then (run, s)
  else
    let start (e : Entry) : Nat := ((e.spec.start).getD 0)
    let stop (e : Entry) : Nat := ((e.spec.stop).getD 0)
    let places := run.map fun e => (start e, stop e)
    let firstStart := (places.head?.map (·.1)).getD 0
    let lastStop := (places.getLast?.map (·.2)).getD 0
    let (_, lineStart) := s.table.locate firstStart
    let endLine := s.table.lineOf lastStop
    let stopAt := s.table.starts.getD endLine lastStop
    let early := s.comments.takeWhile (·.stop < stopAt)
    let before := early.takeWhile (·.start < lineStart)
    let inside := early.drop before.length
    let later := s.comments.drop early.length
    let owned := owners s.table (places.map (·.1)) 0 inside
    let sorted := run.mergeSort Entry.le
    let (stay, gone) := dedupe sorted
    let join (t : LineTable) (e : Entry) : LineTable :=
      let line := t.lineOf (start e)
      if line = t.lineOf paren then t else t.mergeLine line
    let table := gone.foldl join s.table
    let placed := stay.zip places
    let moved := placed.map fun (e, a, b) =>
      { e with
        name := e.name.map fun id => { id with pos := some a }
        path := { e.path with pos := some a }
        stop := some b }
    let comments := owned.map fun (g, index, left) =>
      match placed.find? fun (e, _) => e.index = index with
      | some (_, a, b) => moveGroup g (if left then a - 1 else b)
      | none => g
    (moved, ⟨before ++ comments.mergeSort (fun a b => a.start ≤ b.start) ++ later, table⟩)

/-- Splits imports where a line is left out between them. -/
def runs (table : LineTable) (entries : List Entry) : List (List Entry) :=
  entries.splitBy fun a b =>
    table.lineOf ((b.spec.start).getD 0) ≤ 1 + table.lineOf ((a.spec.stop).getD 0)

def sortRuns (paren : Nat) : State → List (List Entry) → List Entry × State
  | s, [] => ([], s)
  | s, run :: rest =>
    let (es, s') := sortRun s paren ((run.zipIdx).map fun (e, i) => { e with index := i })
    let (more, s'') := sortRuns paren s' rest
    (es ++ more, s'')

/-- Joins the lines between the last import and the closing parenthesis. -/
def closeGap (table : LineTable) (last paren : Nat) : LineTable :=
  let lastLine := table.lineOf last
  let gap := table.lineOf paren - (lastLine + 1)
  (List.range gap).foldl (fun t i => t.mergeLine (lastLine + gap - i)) table

def sortDecl (s : State) (d : GenDecl) : GenDecl × State :=
  if d.lparen.isNone then (d, s)
  else
    let entries := d.specs.filterMap (Entry.ofSpec? 0)
    let (sorted, s) := sortRuns (d.rparen.getD 0) s (runs s.table entries)
    let table := match sorted.getLast?.bind (·.spec.start), d.rparen with
      | some last, some paren => closeGap s.table last paren
      | _, _ => s.table
    ({ d with specs := sorted.map (·.spec) }, { s with table })

/-- Sorts the import declarations at the start of a list. -/
def sortDecls : State → List Decl → List Decl × State
  | s, .gen d :: rest =>
    if d.kind == .kwImport then
      let (d', s') := sortDecl s d
      let (rest', s'') := sortDecls s' rest
      (.gen d' :: rest', s'')
    else (.gen d :: rest, s)
  | s, ds => (ds, s)

def sort (f : File) : File :=
  let (decls, s) := sortDecls ⟨f.comments, f.table⟩ f.decls
  { f with decls, comments := s.comments, table := s.table }

end RetryWeave.Layout.Imports
