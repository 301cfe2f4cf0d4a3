import ScriptConsole.Terminal.Drawing

/-!
# Events

A host tells a terminal what happens: it is shown, the clock ticks, a key is pressed, or a whole line
is submitted. `Terminal.handle` answers with the new state and with what is to be drawn.

A submitted line is put behind the lines that wait for their statement to be completed, and all of
them together are interpreted. If the statement is still not complete the line waits too; otherwise
the result is printed and nothing waits any more.
-/

namespace ScriptConsole

/-- The meaning of a key. -/
inductive Key
  | backspace
  | tab
  | enter
  | up
  | down
  | escape
  | deleteWord
  /-- A printable ASCII character. -/
  | char (byte : UInt8)
  /-- A key without a meaning. -/
  | unknown (code : UInt8)
deriving DecidableEq, Repr

/-- The key with a given code. -/
def Key.ofCode (code : UInt8) : Key :=
  match code with
  | 8 | 19 => .backspace
  | 9 => .tab
  | 10 => .enter
  | 17 => .up
  | 18 => .down
  | 27 => .escape
  | 127 => .deleteWord
  | code => if 32 ≤ code ∧ code ≤ 126 then .char code else .unknown code

/-- What a host can tell a terminal. -/
inductive Event
  /-- The terminal is shown. -/
  | connect
  /-- The clock ticks. -/
  | tick
  /-- A key is pressed. -/
  | key (code : UInt8)
  /-- A whole line is submitted. -/
  | submit (text : String)
deriving DecidableEq, Repr

/-- How a terminal answers an event. -/
structure Response where
  /-- The new state. -/
  terminal : Terminal
  /-- What is to be drawn, in order. -/
  draws : List Draw
  /-- The entries that the event has printed. -/
  printed : List String := []
  /-- Whether the terminal wants to be left. -/
  leaves : Bool := false

namespace Terminal

/-- The source that a line completes or goes on with. -/
def source (terminal : Terminal) (text : String) : String :=
  "\n".intercalate (terminal.pending ++ [text])

/-- The entry for the outcome of a statement, if there is one: null and no value are not printed. -/
def outcomeEntry (settings : Settings) : Except Error (Option Value) → List String
  | .ok none | .ok (some .null) => []
  | .ok (some value) => [settings.resultMarker ++ value.text]
  | .error error => if error.isIncomplete then [] else [settings.errorMarker ++ error.message]

/-- The lines that wait after a statement with this outcome. -/
def waiting (pending : List String) (text : String) : Except Error (Option Value) → List String
  | .ok _ => []
  | .error error => if error.isIncomplete then pending ++ [text] else []

/-- Interprets a line and gives the outcome with the session after it. -/
def interpret (terminal : Terminal) (text : String) : Except Error (Option Value) × Session :=
  match (Session.interpret (terminal.source text)).run terminal.session with
  | .ok value session => (.ok value, session)
  | .error error session => (.error error, session)

/-- Interprets a line and prints it with its outcome. A line with a token enters the history. Every
signal to clear the screen empties the scrollback, what has just been printed included. -/
def submit (terminal : Terminal) (text : String) : Response :=
  let (outcome, session) := terminal.interpret text
  let entries := text :: outcomeEntry terminal.settings outcome
  let history :=
    if (Token.scan text).isEmpty then terminal.history else terminal.history ++ [text]
  let (signals, session) := session.takeSignals
  let printed := terminal.print entries
  let after := { printed with
    session, history
    lines := if signals.isEmpty then printed.lines else []
    focus := history.length
    draft := []
    pending := waiting terminal.pending text outcome }
  { terminal := after
    draws := signals.map (fun | .clearScreen => .clear) ++ after.drawLines
    printed := entries }

/-- Edits the input line with a key that does nothing else. -/
def edit (terminal : Terminal) : Key → Terminal
  | .backspace => { terminal with line := terminal.line.backspace }
  | .tab =>
    { terminal with
      line := terminal.line.tab terminal.settings.maxInput terminal.settings.tabWidth }
  | .up => terminal.browse .older
  | .down => terminal.browse .newer
  | .deleteWord => { terminal with line := terminal.line.deleteWord }
  | .char byte => { terminal with line := terminal.line.insert terminal.settings.maxInput byte }
  | .enter | .escape | .unknown _ => terminal

/-- Answers a key. All keys but the one that leaves draw the input line and the cursor anew. -/
def press (terminal : Terminal) (key : Key) : Response :=
  match key with
  | .escape => { terminal, draws := [], leaves := true }
  | .enter =>
    let response := submit { terminal with line := [] } terminal.input
    { response with
      draws := response.draws ++ response.terminal.drawInput ++ response.terminal.drawCursor }
  | .unknown code =>
    { terminal, draws := terminal.drawCode code ++ terminal.drawInput ++ terminal.drawCursor }
  | key =>
    let after := terminal.edit key
    { terminal := after, draws := after.drawInput ++ after.drawCursor }

/-- Answers an event. -/
def handle (terminal : Terminal) : Event → Response
  | .connect => { terminal, draws := terminal.drawScreen }
  | .tick =>
    let after := { terminal with ticks := terminal.ticks + 1 }
    { terminal := after, draws := after.drawCursor }
  | .key code => terminal.press (Key.ofCode code)
  | .submit text => terminal.submit text

end Terminal

end ScriptConsole
