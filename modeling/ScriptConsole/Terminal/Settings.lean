/-!
# Settings

The measures, colours and texts of a terminal, and their defaults.
-/

namespace ScriptConsole

/-- How a terminal looks and how much it holds. -/
structure Settings where
  /-- Columns on the screen. -/
  width : Nat := 56
  /-- Rows on the screen; the last one in use holds the input line. -/
  height : Nat := 20
  /-- The greatest length of the input line, in bytes. -/
  maxInput : Nat := 55
  /-- How many entries the scrollback keeps. -/
  scrollback : Nat := 256
  /-- The distance of tab stops. -/
  tabWidth : Nat := 4
  /-- Entries that the scrollback starts with. -/
  banner : List String := []
  textColor : UInt8 := 13
  inputColor : UInt8 := 13
  cursorColor : UInt8 := 8
  /-- Stands in front of a printed result. -/
  resultMarker : String := "#═ "
  /-- Stands in front of a printed error. -/
  errorMarker : String := "#! "
deriving DecidableEq, Repr, Inhabited

end ScriptConsole
