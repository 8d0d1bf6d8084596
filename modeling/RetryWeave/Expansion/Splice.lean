import RetryWeave.Expansion.Plan
import RetryWeave.Layout.File

/-!
The edits that an expansion makes to a source text.
-/

namespace RetryWeave

open Syntax

/-- Replaces the text from `start` up to `stop`. -/
structure Edit where
  start : Nat
  stop : Nat
  text : Bytes
deriving DecidableEq, Repr

namespace Edit

def apply (src : Bytes) (e : Edit) : Bytes := src.take e.start ++ e.text ++ src.drop e.stop

/-- Applies edits that do not overlap, the last one first, so that offsets stay valid. -/
def applyAll (src : Bytes) (edits : List Edit) : Bytes :=
  (edits.mergeSort fun a b => b.start ≤ a.start).foldl apply src

/-- Removes a comment. If it is alone on its line the line goes with it. -/
def ofComment (src : Bytes) (c : Comment) : Edit :=
  let before := (src.take c.start).reverse
  let blanks := (before.takeWhile Ascii.isBlank).length
  let alone := match before.drop blanks with
    | [] => true
    | b :: _ => b == Ascii.newline
  if !alone then ⟨c.start, c.stop, []⟩
  else
    let after := src.drop c.stop
    let ending : Nat := match after with
      | Ascii.cr :: Ascii.newline :: _ => 2
      | Ascii.cr :: _ => 1
      | Ascii.newline :: _ => 1
      | _ => 0
    ⟨c.start - blanks, c.stop + ending, []⟩

end Edit

namespace RetryLoop

def textBetween (src : Bytes) (start stop : Pos) : Bytes :=
  Bytes.slice src (start.getD 0) (stop.getD 0)

/-- The block that replaces the body of a function. The closure keeps the text of the results and of
the body. -/
def blockText (l : RetryLoop) (src : Bytes) : Bytes :=
  "\x7b\n" ++ l.helper ++ " := func() " ++
    textBetween src l.results.start l.results.stop ++ " " ++
    textBetween src l.body.lbrace (l.body.rbrace.plus 1) ++ "\n" ++
    (l.stmts.flatMap fun s => Layout.stmtText s ++ [Ascii.newline]) ++ "\x7d"

end RetryLoop

namespace Expansion

/-- The body is replaced, and the directives are removed. -/
def edits (e : Expansion) (src : Bytes) : List Edit :=
  ⟨e.loop.body.lbrace.getD 0, (e.loop.body.rbrace.plus 1).getD 0, e.loop.blockText src⟩ ::
    e.comments.map (Edit.ofComment src)

end Expansion

end RetryWeave
