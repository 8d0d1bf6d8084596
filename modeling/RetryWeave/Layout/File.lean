import RetryWeave.Layout.BuildLines
import RetryWeave.Layout.Columns
import RetryWeave.Layout.Imports
import RetryWeave.Layout.Stmts
import RetryWeave.Syntax.Grammar.File

/-!
The layout of whole files and of single statements.
-/

namespace RetryWeave.Layout

open Syntax Print

def funcDecl (r : Parts) (d : FuncDecl) : Print Unit := do
  setComment d.doc
  tokenAt d.start .kwFunc
  blank
  let column := (← get).outColumn - 5
  match d.recv with
  | some l =>
    parameters r l .params
    blank
  | none => pure ()
  setPos d.name.pos
  name d.name
  signature r d.type
  match d.body with
  | some body => funcBody r (stmtList r false true) (← headerSize d.start column) .cell body
  | none => pure ()

def decl (r : Parts) : Decl → Print Unit
  | .gen d => genDecl r d
  | .func d => funcDecl r d

def declToken : Decl → Tok
  | .gen d => d.kind
  | .func _ => .kwFunc

def declDoc : Decl → Option CommentGroup
  | .gen d => d.doc
  | .func d => d.doc

/-- Whether a declaration is a function on several lines. -/
def isTallFunc : Decl → Print Bool
  | .gen _ => return false
  | .func d => return (← lineOf d.start) < (← lineOf d.stop)

/-- Declarations after one that starts with the token `before`. A blank line comes before a
declaration of another kind, and before one with documentation. -/
def declList (r : Parts) : Option Tok → List Decl → Print Unit
  | _, [] => return
  | before, d :: rest => do
    let tok := declToken d
    if 0 < (← get).size then
      let least := if before != some tok || (declDoc d).isSome then 2 else 1
      let _ ← linebreak (← lineOf d.start) least .dropped (← isTallFunc d)
    decl r d
    declList r (some tok) rest

def file (r : Parts) (f : File) : Print Unit := do
  setComment f.doc
  tokenAt f.package .kwPackage
  blank
  setPos f.name.pos
  name f.name
  declList r none f.decls
  space .newline

/-- The page of a construct, with the comments of a file or with those of its nodes. -/
def page? (construct : Print Unit) (table : LineTable) (comments : List CommentGroup) :
    Option Page :=
  let whole : Print Unit := do
    construct
    finish
  (whole (.start table comments comments.isEmpty false)).map (·.2)

/-- The final text of a page. -/
def Page.render (p : Page) : Bytes :=
  Columns.render (BuildLines.place p.output.reverse p.buildLines p.plusLines)

/-- A source file in its normal layout, with sorted imports. -/
def format? (src : Bytes) : Option Bytes := do
  let f := Imports.sort (← parseFile? [] src)
  let page ← page? (file (parts (src.length + 16)) f) f.table f.comments
  return page.render

/-- No deeper than this are statements nested that were not read from a file. -/
def stmtDepth : Nat := 64

/-- A statement that was not read from a file, in its normal layout. -/
def stmtText (s : Stmt) : Bytes :=
  ((page? (stmt (parts stmtDepth) s false) (.ofText [] [] []) []).map Page.render).getD []

end RetryWeave.Layout
