import RetryWeave.Text.Bytes

/-!
The least number of bytes to insert, delete or replace that turns one text into another.
-/

namespace RetryWeave.EditDistance

/-- A row of distances after its first: `left` is the distance before, and the list holds the row
above from the place diagonally before on. -/
def nextRow (b : UInt8) : Nat → List Nat → Bytes → List Nat
  | left, diagonal :: above :: row, c :: target =>
    let here := if b = c then diagonal else min (min diagonal above) left + 1
    here :: nextRow b here (above :: row) target
  | _, _, _ => []

/-- The distances between a text and all beginnings of the target, from those of the text without
its last `source`. -/
def rowsFrom (target : Bytes) : List Nat → Nat → Bytes → List Nat
  | row, _, [] => row
  | row, i, b :: source => rowsFrom target ((i + 1) :: nextRow b (i + 1) row target) (i + 1) source

def distance (source target : Bytes) : Nat :=
  ((rowsFrom target (List.range (target.length + 1)) 0 source).getLast?).getD 0

end RetryWeave.EditDistance
