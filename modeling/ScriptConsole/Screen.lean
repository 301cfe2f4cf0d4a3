import ScriptConsole.Text.Blank

/-!
# Screens

A screen is a grid of coloured characters. What is to be drawn is described by `Draw` commands, and
`Screen.draw` carries them out. Positions are integers: whatever lies outside of the grid is cut off.
Columns and rows are numbers of 32 bits, and so are the places of characters in a text. What would be
larger is held at the largest such number.
-/

namespace ScriptConsole

/-- One place of the grid. -/
structure Cell where
  char : Char := ' '
  color : UInt8 := 0
deriving DecidableEq, Repr, Inhabited

/-- A grid of `width` columns and `height` rows. -/
structure Screen where
  width : Nat
  height : Nat
  /-- The cells of the first row, then those of the second, and so on. -/
  cells : Array Cell
  size_cells : cells.size = width * height

/-- A command to draw. -/
inductive Draw
  /-- Writes a text to the right of a position. -/
  | text (text : String) (color : UInt8) (col row : Int)
  /-- Draws the border of a rectangle with its corner at a position. -/
  | box (color : UInt8) (col row width height : Int)
  /-- Blanks the whole screen. -/
  | clear
deriving DecidableEq, Repr

namespace Screen

/-- A screen of blank cells. -/
def blank (width height : Nat) : Screen :=
  ⟨width, height, Array.replicate (width * height) {}, Array.size_replicate⟩

/-- The first number of cells that cannot be allocated, `2 ^ 60`: a cell takes eight bytes, and an
allocation has fewer than `2 ^ 63`. -/
def cellLimit : Nat := 0x1000000000000000

/-- A new screen, if its cells can be allocated. -/
def make? (width height : Nat) : Option Screen :=
  if width * height < cellLimit then some (blank width height) else none

/-- The cell at a position, if it lies on the screen. -/
def cell? (screen : Screen) (col row : Int) : Option Cell :=
  if 0 ≤ col ∧ col < screen.width ∧ 0 ≤ row ∧ row < screen.height then
    screen.cells[row.toNat * screen.width + col.toNat]?
  else
    none

/-- Sets the cell at a position, if it lies on the screen. -/
def put (screen : Screen) (cell : Cell) (col row : Int) : Screen :=
  if 0 ≤ col ∧ col < screen.width ∧ 0 ≤ row ∧ row < screen.height then
    { screen with
      cells := screen.cells.setIfInBounds (row.toNat * screen.width + col.toNat) cell
      size_cells := by simp [screen.size_cells] }
  else
    screen

/-- The last column or row: their numbers have 32 bits with the sign. -/
def lastCoordinate : Int := 2147483647

/-- A number as a column or a row. -/
def coordinate (n : Nat) : Int :=
  min n lastCoordinate

/-- The column of a character with `before` others in front of it, in a text that starts in column
`left`. -/
def columnOf (left : Int) (before : Nat) : Int :=
  min (left + coordinate before) lastCoordinate

/-- Writes the characters of a text that stand behind the first `before`. -/
def putChars (screen : Screen) (color : UInt8) (left row : Int) (before : Nat) :
    List Char → Screen
  | [] => screen
  | c :: cs =>
    (screen.put ⟨c, color⟩ (columnOf left before) row).putChars color left row (before + 1) cs

/-- Sets the cells of a row from column `first` up to, but not including, column `last`. -/
def putAcross (screen : Screen) (cell : Cell) (row first last : Int) : Screen :=
  (List.range screen.width).foldl
    (fun screen (col : Nat) =>
      if first ≤ col ∧ col < last then screen.put cell col row else screen)
    screen

/-- Sets the cells of a column from row `first` up to, but not including, row `last`. -/
def putDown (screen : Screen) (cell : Cell) (col first last : Int) : Screen :=
  (List.range screen.height).foldl
    (fun screen (row : Nat) =>
      if first ≤ row ∧ row < last then screen.put cell col row else screen)
    screen

/-- Draws the border of a rectangle; one of fewer than two columns or rows has none. -/
def putBox (screen : Screen) (color : UInt8) (col row width height : Int) : Screen :=
  if width < 2 ∨ height < 2 then
    screen
  else
    let right := col + width - 1
    let bottom := row + height - 1
    screen
      |>.putAcross ⟨'─', color⟩ row (col + 1) right
      |>.putAcross ⟨'─', color⟩ bottom (col + 1) right
      |>.putDown ⟨'│', color⟩ col (row + 1) bottom
      |>.putDown ⟨'│', color⟩ right (row + 1) bottom
      |>.put ⟨'┌', color⟩ col row
      |>.put ⟨'┐', color⟩ right row
      |>.put ⟨'└', color⟩ col bottom
      |>.put ⟨'┘', color⟩ right bottom

/-- Carries out a command. -/
def draw (screen : Screen) : Draw → Screen
  | .text text color col row => screen.putChars color col row 0 text.toList
  | .box color col row width height => screen.putBox color col row width height
  | .clear => blank screen.width screen.height

/-- Carries out commands in order. -/
def drawAll (screen : Screen) (commands : List Draw) : Screen :=
  commands.foldl draw screen

/-- The cells of a row from left to right; there are none outside of the screen. -/
def rowCells (screen : Screen) (row : Int) : List Cell :=
  if 0 ≤ row ∧ row < screen.height then
    let first := row.toNat * screen.width
    (screen.cells.extract first (first + screen.width)).toList
  else
    []

/-- The text of a row, without the blanks at its end. -/
def rowText (screen : Screen) (row : Int) : String :=
  String.ofList (Text.trimEnd ((screen.rowCells row).map Cell.char))

/-- The texts of all rows from top to bottom. -/
def rows (screen : Screen) : List String :=
  (List.range screen.height).map fun (row : Nat) => screen.rowText row

end Screen

end ScriptConsole
