import ScriptConsole.Terminal.Event
import ScriptConsole.Text.Lines

/-!
# Dialogues

A dialogue submits lines of input to a terminal as they come and shows what they print. It is split
into its opening, the answer to one line, and its end, so that it can be held with a user as well as
with an input that is known beforehand.
-/

namespace ScriptConsole.CommandLine

/-- The banner of a dialogue whose settings have none. -/
def banner : List String :=
  ["#",
    "#   DDD  I N  N K  K Y   Y",
    "#   D  D I NN N K K   Y Y",
    "#   D  D I N NN KK     Y",
    "#   D  D I N  N K K    Y",
    "#   DDD  I N  N K  K   Y",
    "#",
    "# DinkySoft™ SIMPL™ v0.1.0",
    "# Structured Imperative Microchip Programming Language",
    "# (c) DinkySoft Corporation 1976",
    "# Press Ctrl-D to exit",
    "#"]

/-- Texts one below the other, each with its line end. -/
def unlines (lines : List String) : String :=
  String.join (lines.map (· ++ "\n"))

namespace Dialogue

/-- The terminal at the start of a dialogue. -/
def start (settings : Settings) : Terminal :=
  Terminal.new (if settings.banner.isEmpty then { settings with banner } else settings)

/-- What asks for the next line. -/
def prompt (terminal : Terminal) : String :=
  if terminal.isPending then ".. " else "> "

/-- What is shown at the start: the banner and the first prompt. -/
def opening (terminal : Terminal) : String :=
  unlines terminal.lines ++ prompt terminal

/-- What is shown at the end. -/
def closing : String := "\n"

/-- Submits a line of input. What it prints is shown, but for the line itself, and then the next
prompt. There is no answer to bytes that are no text. -/
def answer (terminal : Terminal) (line : List UInt8) : Option (Terminal × String) :=
  (Text.Utf8.strict? line).map fun text =>
    let response := terminal.submit (Text.chomp text)
    (response.terminal, unlines (response.printed.drop 1) ++ prompt response.terminal)

/-- What a dialogue shows for lines of input, and whether all of them were text. -/
def hold (terminal : Terminal) : List (List UInt8) → String × Bool
  | [] => (closing, true)
  | line :: rest =>
    match answer terminal line with
    | none => ("", false)
    | some (terminal, shown) =>
      let (later, ok) := hold terminal rest
      (shown ++ later, ok)

end Dialogue

end ScriptConsole.CommandLine
