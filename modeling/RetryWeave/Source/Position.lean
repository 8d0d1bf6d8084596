import RetryWeave.Path
import RetryWeave.Text.Bytes

/-!
Places in a source file, and the line comments that change what a place is called.
-/

namespace RetryWeave

/-- A place as it is reported. Lines and columns start at one; a line below one is unknown. -/
structure Position where
  file : Bytes
  line : Int
  column : Int
  offset : Int
deriving DecidableEq, Repr

namespace Position

def unknown : Position := ⟨[], 0, 0, 0⟩

def isValid (p : Position) : Bool := 0 < p.line

/-- `file:line:column`, without the parts that are unknown. -/
def render (p : Position) : Bytes :=
  let place : Bytes :=
    if !p.isValid then []
    else
      (if p.file.isEmpty then [] else [Ascii.colon]) ++ Bytes.ofInt p.line ++
        (if p.column = 0 then [] else Ascii.colon :: Bytes.ofInt p.column)
  match p.file ++ place with
  | [] => "-"
  | text => text

end Position

/-- From `offset` on, positions are named by `file` and count from `line` and `column`; a column
of zero makes columns unknown. -/
structure LineInfo where
  offset : Nat
  file : Bytes
  line : Int
  column : Int
deriving DecidableEq, Repr

/-- What is needed to name the places of a file. -/
structure LineTable where
  name : Bytes
  size : Nat
  /-- Offsets at which lines start, in increasing order. -/
  starts : Array Nat
  /-- In increasing order of their offsets. -/
  infos : List LineInfo
deriving DecidableEq, Repr

namespace LineTable

/-- Offsets after a newline at which there still is text. -/
def startsFrom (size : Nat) : Nat → Bytes → List Nat
  | _, [] => []
  | offset, b :: rest =>
    if b = Ascii.newline && offset + 1 < size then (offset + 1) :: startsFrom size (offset + 1) rest
    else startsFrom size (offset + 1) rest

def ofText (name text : Bytes) (infos : List LineInfo) : LineTable :=
  ⟨name, text.length, (0 :: startsFrom text.length 0 text).toArray, infos⟩

/-- The first index from `low` on, and below `high`, at which a line starts after `offset`; `high`
if there is none. Each step halves what is left, so that `high - low` steps are enough. -/
def firstAfter (starts : Array Nat) (offset : Nat) : Nat → Nat → Nat → Nat
  | 0, low, _ => low
  | steps + 1, low, high =>
    if low < high then
      let middle := (low + high) / 2
      if starts.getD middle 0 ≤ offset then firstAfter starts offset steps (middle + 1) high
      else firstAfter starts offset steps low middle
    else low

/-- The lines before `line` start at or before `offset`, and those from `line` on start after it. -/
def Splits (starts : Array Nat) (offset line : Nat) : Prop :=
  (∀ i < line, starts.getD i 0 ≤ offset) ∧
    ∀ i, line ≤ i → i < starts.size → offset < starts.getD i 0

/-- In a table whose lines are in order, halving finds where the lines after `offset` begin. -/
theorem splits_firstAfter {starts : Array Nat} {offset steps low high : Nat}
    (ordered : ∀ i j, i ≤ j → j < starts.size → starts.getD i 0 ≤ starts.getD j 0)
    (inside : high ≤ starts.size) (nonempty : low ≤ high) (enough : high - low ≤ steps)
    (before : ∀ i < low, starts.getD i 0 ≤ offset)
    (after : ∀ i, high ≤ i → i < starts.size → offset < starts.getD i 0) :
    Splits starts offset (firstAfter starts offset steps low high) := by
  induction steps generalizing low high with
  | zero =>
    have : high = low := by omega
    subst this
    exact ⟨before, after⟩
  | succ steps ih =>
    simp only [firstAfter]
    split
    · split
      · rename_i h
        refine ih inside (by omega) (by omega) (fun i hi => ?_) after
        exact Nat.le_trans (ordered i _ (by omega) (by omega)) h
      · rename_i h
        refine ih (by omega) (by omega) (by omega) before (fun i hi hs => ?_)
        exact Nat.lt_of_lt_of_le (Nat.lt_of_not_le h) (ordered _ i hi hs)
    · have : high = low := by omega
      subst this
      exact ⟨before, after⟩

/-- The number and the start of the last line that starts at or before `offset`. -/
def locate (t : LineTable) (offset : Nat) : Nat × Nat :=
  let line := firstAfter t.starts offset t.starts.size 0 t.starts.size
  (line, t.starts.getD (line - 1) 0)

/-- The physical line of an offset. -/
def lineOf (t : LineTable) (offset : Nat) : Nat := (t.locate offset).1

/-- The position of an offset by lines and columns of the text alone. -/
def physical (t : LineTable) (offset : Nat) : Position :=
  let offset := min offset t.size
  let (line, start) := t.locate offset
  ⟨t.name, line, offset - start + 1, offset⟩

/-- The position of an offset as the line comments before it name it. -/
def position (t : LineTable) (offset : Nat) : Position :=
  let p := t.physical offset
  match (t.infos.filter fun i => i.offset ≤ min offset t.size).getLast? with
  | none => p
  | some info =>
    let distance := p.line - (t.lineOf info.offset : Nat)
    let column :=
      if info.column = 0 then 0
      else if distance = 0 then info.column + (p.offset - info.offset)
      else p.column
    ⟨info.file, info.line + distance, column, p.offset⟩

/-- Joins a line with the one after it. -/
def mergeLine (t : LineTable) (line : Nat) : LineTable :=
  { t with starts := t.starts.eraseIdxIfInBounds line }

end LineTable

/-! ### Line comments -/

namespace LineInfo

/-- What a comment says about the text after it. -/
inductive Reading where
  | nothing
  | malformed
  | info (i : LineInfo)

/-- The largest line or column that a comment may name. -/
def limit : Int := 0x40000000

/-- A number of sixty-four bits, whose upper half is below zero. -/
def ofWord (n : Nat) : Int := if n < 1 <<< 63 then n else (n : Int) - (1 <<< 64 : Nat)

/-- The number after the last colon, with what stands before it; `none` without a colon. -/
def trailingNumber? (text : Bytes) : Option (Bytes × Option Int) :=
  (Bytes.cutLast? Ascii.colon text).map fun (before, digits) =>
    (before, ((Bytes.decimal? digits).filter (· < 1 <<< 64)).map ofWord)

/-- Reads `file:line` or `file:line:column`. A relative file belongs to the directory of the source
file `name`; an empty one stands for the file `current` when a column is given. -/
def read (name current text : Bytes) (offset : Nat) : Reading :=
  match trailingNumber? text with
  | none => .nothing
  | some (_, none) => .malformed
  | some (before, some last) =>
    let (file, line, column, hasColumn) : Bytes × Int × Int × Bool :=
      match trailingNumber? before with
      | some (file, some line) => (file, line, last, true)
      | _ => (before, last, 0, false)
    if hasColumn && (column = 0 || limit < column) then .malformed
    else if line = 0 || limit < line then .malformed
    else
      let file :=
        if file.isEmpty then if hasColumn then current else []
        else
          let cleaned := Path.clean file
          if Path.isAbs cleaned then cleaned else Path.join [Path.dirPart name, cleaned]
      .info ⟨offset, file, line, column⟩

end LineInfo

end RetryWeave
