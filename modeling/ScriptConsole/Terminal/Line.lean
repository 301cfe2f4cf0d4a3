import ScriptConsole.Text.Utf8

/-!
# The input line

The line that is being typed is a list of bytes, because keys are bytes. Each editing step is a
function on this list; a step that makes the line longer is told how long it may get.
-/

namespace ScriptConsole

/-- The bytes of a line that is being typed. -/
abbrev Line := List UInt8

namespace Line

/-- The byte of a space. -/
def space : UInt8 := 32

/-- The text of a line. -/
def text (line : Line) : String :=
  Text.Utf8.lossy line

/-- Adds a byte at the end, if there is room. -/
def insert (maxInput : Nat) (line : Line) (byte : UInt8) : Line :=
  if line.length < maxInput then line ++ [byte] else line

/-- Removes the last byte. -/
def backspace (line : Line) : Line :=
  line.dropLast

/-- Adds spaces up to the next tab stop or to the end of the room, whichever comes first. -/
def tab (maxInput tabWidth : Nat) (line : Line) : Line :=
  let stop := max tabWidth 1
  let target := min maxInput ((line.length / stop + 1) * stop)
  line ++ List.replicate (target - line.length) space

/-- Removes the last word and the space before it. -/
def deleteWord (line : Line) : Line :=
  ((line.reverse.dropWhile (· != space)).drop 1).reverse

/-- The line for a text, as far as there is room. -/
def ofText (maxInput : Nat) (s : String) : Line :=
  (Text.Utf8.encode s).take maxInput

end Line

end ScriptConsole
