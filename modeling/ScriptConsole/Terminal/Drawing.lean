import ScriptConsole.Screen
import ScriptConsole.Terminal

/-!
# Drawing a terminal

The commands that show a terminal: the newest entries of the scrollback from the top, the input line
below them, and the cursor.
-/

namespace ScriptConsole.Terminal

/-- The text as it is shown: the equals sign has a glyph of its own. -/
def glyphs (s : String) : String :=
  s.map fun c => if c = '=' then '═' else c

/-- The row of the input line: below the scrollback, and at most the last row. -/
def inputRow (terminal : Terminal) : Nat :=
  min terminal.lines.length (terminal.settings.height - 1)

/-- Draws texts one below the other from a row on. -/
def drawRows (color : UInt8) : (row : Nat) → List String → List Draw
  | _, [] => []
  | row, text :: rest =>
    .text (glyphs text) color 0 (Screen.coordinate row) :: drawRows color (row + 1) rest

/-- Clears the screen and draws the entries of the scrollback that have room above the input line. -/
def drawLines (terminal : Terminal) : List Draw :=
  let visible := terminal.settings.height - 1
  .clear ::
    drawRows terminal.settings.textColor 0
      (terminal.lines.drop (terminal.lines.length - visible))

/-- Blanks the row of the input line and draws the line with a space behind it. -/
def drawInput (terminal : Terminal) : List Draw :=
  let row := Screen.coordinate terminal.inputRow
  [.text (String.ofList (List.replicate terminal.settings.width ' ')) 0 0 row,
    .text (glyphs terminal.input ++ " ") terminal.settings.inputColor 0 row]

/-- Draws the cursor behind the input line on every sixteenth tick, by turns as a block and as a
space. -/
def drawCursor (terminal : Terminal) : List Draw :=
  if terminal.ticks % 16 = 15 then
    let glyph := if terminal.ticks / 16 % 2 = 1 then "▄" else " "
    [.text glyph terminal.settings.cursorColor (Screen.coordinate terminal.line.length)
      (Screen.coordinate terminal.inputRow)]
  else
    []

/-- Draws everything. -/
def drawScreen (terminal : Terminal) : List Draw :=
  terminal.drawLines ++ terminal.drawInput ++ terminal.drawCursor

/-- Shows the code of a key that has no meaning in the upper right corner. -/
def drawCode (terminal : Terminal) (code : UInt8) : List Draw :=
  let digits := toString code.toNat
  let padded := String.ofList (List.replicate (3 - digits.length) ' ') ++ digits
  [.text padded terminal.settings.textColor (Screen.coordinate (terminal.settings.width - 6)) 0]

end ScriptConsole.Terminal
