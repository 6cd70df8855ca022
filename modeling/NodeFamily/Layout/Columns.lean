/-!
# Ink and columns

What the layout writes first is ink: characters, of which a tab ends a cell, a line feed a line and
a form feed a section, and fences around text that is taken as it is. `setColumns` pads the cells of
successive lines to columns of one width, and `trimInk` drops blanks at the ends of lines.
-/

namespace NodeFamily.Layout

/-- A stroke of ink. -/
inductive Ink
  /-- A character. -/
  | char (c : Char)
  /-- The start or the end of text that is taken as it is. -/
  | fence
deriving DecidableEq, Repr

/-- Whether a stroke ends a line. -/
def Ink.isBreak : Ink → Bool
  | .char c => c == '\n' || c == '\x0c'
  | .fence => false

/-- A cell of a line. -/
structure Cell where
  /-- The strokes in it. -/
  strokes : List Ink
  /-- Whether it ends with a hard tab, which is never dropped. -/
  hard : Bool
deriving DecidableEq, Repr

namespace Cell

/-- The number of characters in a cell. -/
def width (c : Cell) : Nat :=
  c.strokes.foldl (fun n s => if s == .fence then n else n + 1) 0

/-- Whether a cell is empty. -/
def isEmpty (c : Cell) : Bool := c.strokes.isEmpty

end Cell

/-- A line of cells; the last one is not padded. -/
structure CellLine where
  /-- The cells. -/
  cells : List Cell
  /-- Whether the line ends a section. -/
  endsSection : Bool
  /-- Whether the line has an end, which the last one lacks. -/
  ended : Bool
deriving DecidableEq, Repr

/-- Cuts ink into lines of cells. `cells` and `strokes` are those of the line and the cell at hand,
backwards. -/
def cellLines (cells : List Cell) (strokes : List Ink) (fenced : Bool) :
    List Ink → List CellLine
  | [] =>
    let cells := if strokes.isEmpty then cells else ⟨strokes.reverse, false⟩ :: cells
    [⟨cells.reverse, false, false⟩]
  | .fence :: rest => cellLines cells (.fence :: strokes) (!fenced) rest
  | .char c :: rest =>
    if fenced then cellLines cells (.char c :: strokes) fenced rest
    else if c == '\t' || c == '\x0b' then
      cellLines (⟨strokes.reverse, c == '\t'⟩ :: cells) [] false rest
    else if c == '\n' || c == '\x0c' then
      let cells := ⟨strokes.reverse, false⟩ :: cells
      ⟨cells.reverse, c == '\x0c', true⟩ :: cellLines [] [] false rest
    else cellLines cells (.char c :: strokes) false rest

/-- Cuts lines into sections. A section ends after a line that says so and after a line of one
cell. -/
def sections : List CellLine → List (List CellLine)
  | [] => []
  | line :: rest =>
    if line.endsSection || line.cells.length == 1 then [line] :: sections rest
    else match sections rest with
      | [] => [[line]]
      | s :: more => (line :: s) :: more

/-- The width of a tab. -/
def tabWidth : Nat := 8

/-- The strokes that pad a cell to a width, with tabs if asked to. -/
def padding (cell width : Nat) (tabs : Bool) : List Ink :=
  if tabs then
    let width := (width + tabWidth - 1) / tabWidth * tabWidth
    List.replicate ((width - cell + tabWidth - 1) / tabWidth) (.char '\t')
  else List.replicate (width - cell) (.char ' ')

/-- The strokes of cells with the given widths of columns. Empty cells at the start of a line are
padded with tabs. -/
def writeCells (tabs : Bool) : (widths : List Nat) → List Cell → List Ink
  | _, [] => []
  | [], c :: rest => c.strokes ++ writeCells (tabs && c.isEmpty) [] rest
  | w :: widths, c :: rest =>
    let tabs := tabs && c.isEmpty
    c.strokes ++ padding c.width w tabs ++ writeCells tabs widths rest

/-- The strokes of a line with the given widths of columns. -/
def writeCellLine (widths : List Nat) (line : CellLine) : List Ink :=
  writeCells true widths line.cells ++ if line.ended then [.char '\n'] else []

/-- The width of a column: one more than its widest cell has, and nothing when all its cells are
empty and end with soft tabs. -/
def columnWidth (column : Nat) (block : List CellLine) : Nat :=
  let cells := block.filterMap fun line => line.cells[column]?
  if cells.all fun c => c.width == 0 && !c.hard then 0
  else cells.foldl (fun n c => max n (c.width + 1)) 0

/-- Whether a line has a cell in a column that is not its last one. -/
def CellLine.reaches (column : Nat) (line : CellLine) : Bool := column + 1 < line.cells.length

/-- Groups successive lines by whether they reach a column. -/
def columnBlocks (column : Nat) : List CellLine → List (Bool × List CellLine)
  | [] => []
  | line :: rest =>
    let r := line.reaches column
    match columnBlocks column rest with
    | (r', block) :: more => if r == r' then (r, line :: block) :: more
      else (r, [line]) :: (r', block) :: more
    | [] => [(r, [line])]

/-- Writes lines whose first columns have the given widths. Successive lines that reach the next
column share its width. -/
def writeColumns : (fuel : Nat) → (widths : List Nat) → List CellLine → List Ink
  | 0, widths, lines => lines.flatMap (writeCellLine widths)
  | fuel + 1, widths, lines =>
    (columnBlocks widths.length lines).flatMap fun (reaches, block) =>
      if reaches then writeColumns fuel (widths ++ [columnWidth widths.length block]) block
      else block.flatMap (writeCellLine widths)

/-- Pads the cells of ink to columns. -/
def setColumns (ink : List Ink) : List Ink :=
  (sections (cellLines [] [] false ink)).flatMap fun lines =>
    let depth := lines.foldl (fun n line => max n line.cells.length) 0
    writeColumns depth [] lines

/-- The characters of ink without blanks at the ends of lines. `blanks` are those not written yet,
backwards, and `done` is what is written, backwards. -/
def trimFrom (fenced : Bool) (blanks done : List Char) : List Ink → List Char
  | [] => done.reverse
  | .fence :: rest => trimFrom (!fenced) [] (if fenced then done else blanks ++ done) rest
  | .char c :: rest =>
    if fenced then trimFrom true [] (c :: done) rest
    else
      let c := if c == '\x0b' then '\t' else c
      if c == ' ' || c == '\t' then trimFrom false (c :: blanks) done rest
      else if c == '\n' || c == '\x0c' then trimFrom false [] ('\n' :: done) rest
      else trimFrom false [] (c :: (blanks ++ done)) rest

/-- The characters of ink without blanks at the ends of lines. -/
def trimInk (ink : List Ink) : List Char := trimFrom false [] [] ink

end NodeFamily.Layout
