import RetryWeave.Layout.Page

/-!
The columns of a page. On each line tabs and vertical tabs end cells. Cells of neighbouring lines
that are equally far from the start of their lines form a column, and are made equally wide.
-/

namespace RetryWeave.Layout.Columns

/-- A cell that a tab or a vertical tab ends. -/
structure Cell where
  text : Bytes
  /-- A tab ends the cell. -/
  hard : Bool
deriving DecidableEq, Repr

namespace Cell

/-- The width of a cell in characters. -/
def width (c : Cell) : Nat := Bytes.runeCount (c.text.filter (· ≠ mark))

end Cell

/-- A line: its cells, and the text after the last of them. -/
structure Line where
  cells : List Cell
  text : Bytes
  /-- No column goes on after the line. -/
  ends : Bool
deriving DecidableEq, Repr

/-- Splits a page into lines. The arguments are whether the current text is kept as it is, the
current cell, last byte first, and the cells of the current line, last cell first. -/
def linesFrom : Bool → List UInt8 → List Cell → Bytes → List Line
  | _, cell, cells, [] => [⟨cells.reverse, cell.reverse, true⟩]
  | kept, cell, cells, b :: rest =>
    if b = mark then linesFrom (!kept) (b :: cell) cells rest
    else if kept then linesFrom kept (b :: cell) cells rest
    else if b = Ascii.tab || b = cellByte then
      linesFrom kept [] (⟨cell.reverse, b = Ascii.tab⟩ :: cells) rest
    else if isBreakByte b then
      ⟨cells.reverse, cell.reverse, b = sectionByte⟩ :: linesFrom kept [] [] rest
    else linesFrom kept (b :: cell) cells rest

/-- The width of a column: one more than its widest cell; a column of empty cells that vertical tabs
end has none. -/
def columnWidth (cells : List Cell) : Nat :=
  if cells.all fun c => c.width = 0 && !c.hard then 0
  else (cells.map (·.width)).foldl max 0 + 1

/-- The widths of the cells of each line. A line without a cell ends the column. -/
def widths : Nat → List (List Cell) → List (List Nat)
  | 0, lines => lines.map fun _ => []
  | depth + 1, lines =>
    (lines.splitBy fun a b => a.isEmpty == b.isEmpty).flatMap fun run =>
      match run.filterMap List.head? with
      | [] => run.map fun _ => []
      | heads => (widths depth (run.map List.tail)).map (columnWidth heads :: ·)

/-- Cells with their widths. Empty cells at the start of a line are filled with tabs, which go to
multiples of eight; other cells are filled with spaces. -/
def fill : Bool → List (Cell × Nat) → Bytes
  | _, [] => []
  | leading, (c, width) :: rest =>
    if c.text.isEmpty then
      (if leading then List.replicate ((width + 7) / 8) Ascii.tab
        else List.replicate width Ascii.space) ++ fill leading rest
    else c.text ++ List.replicate (width - c.width) Ascii.space ++ fill false rest

/-- A line without blanks at its end and without marks. -/
def trim (line : Bytes) : Bytes :=
  (Bytes.trimEndWhile Ascii.isBlank line).filter (· ≠ mark)

def renderLine (line : Line) (ws : List Nat) : Bytes :=
  trim (fill true (line.cells.zip ws) ++ line.text)

/-- Lines up to and with one that ends all columns. -/
def sections (lines : List Line) : List (List Line) := lines.splitBy fun a _ => !a.ends

def renderSection (lines : List Line) : List Bytes :=
  let cells := lines.map (·.cells)
  let depth := (cells.map List.length).foldl max 0
  (lines.zip (widths depth cells)).map fun (line, ws) => renderLine line ws

/-- The text of a page. -/
def render (page : Bytes) : Bytes :=
  Bytes.join [Ascii.newline] ((sections (linesFrom false [] [] page)).flatMap renderSection)

end RetryWeave.Layout.Columns
