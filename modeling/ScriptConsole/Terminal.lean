import ScriptConsole.Session
import ScriptConsole.Terminal.Line
import ScriptConsole.Terminal.Settings

/-!
# Terminals

A terminal joins a session with an input line, a history of submitted lines and a bounded scrollback.
This module holds its state and the two operations that do not draw: printing into the scrollback and
moving through the history.
-/

namespace ScriptConsole

/-- The state of a terminal. -/
structure Terminal where
  settings : Settings
  session : Session := Session.new
  /-- The scrollback, oldest entry first. -/
  lines : List String := []
  /-- The input line. -/
  line : Line := []
  /-- The submitted lines that held a token, oldest first. -/
  history : List String := []
  /-- The place in the history; behind the last entry stands the line that is new. -/
  focus : Nat := 0
  /-- The new line, kept while entries of the history are shown. -/
  draft : Line := []
  /-- The lines of a statement that is not complete yet. -/
  pending : List String := []
  /-- Counts the ticks of the clock. -/
  ticks : UInt32 := 0

namespace Terminal

/-- Adds an entry to a scrollback. One that is full loses its oldest entry first. -/
def pushLine (limit : Nat) (lines : List String) (entry : String) : List String :=
  (if limit ≤ lines.length then lines.tail else lines) ++ [entry]

/-- Adds entries to the scrollback in order. -/
def print (terminal : Terminal) (entries : List String) : Terminal :=
  { terminal with lines := entries.foldl (pushLine terminal.settings.scrollback) terminal.lines }

/-- A terminal that has printed its banner and nothing else. -/
def new (settings : Settings) : Terminal :=
  print { settings } settings.banner

/-- The text of the input line. -/
def input (terminal : Terminal) : String :=
  terminal.line.text

/-- Whether a statement waits for more lines. -/
def isPending (terminal : Terminal) : Bool :=
  !terminal.pending.isEmpty

/-- The direction of a move through the history. -/
inductive Direction
  | older
  | newer
deriving DecidableEq, Repr

/-- Moves through the history and shows the entry that is reached. The new line is kept when it is
left and shown again when it is reached. -/
def browse (terminal : Terminal) (direction : Direction) : Terminal :=
  let newest := terminal.history.length
  let focus := match direction with
    | .older => terminal.focus - 1
    | .newer => min (terminal.focus + 1) newest
  if terminal.focus = newest ∧ focus = newest then
    terminal
  else
    let draft := if terminal.focus = newest then terminal.line else terminal.draft
    let line := match terminal.history[focus]? with
      | some entry => Line.ofText terminal.settings.maxInput entry
      | none => draft.take terminal.settings.maxInput
    { terminal with focus, draft, line }

end Terminal

end ScriptConsole
