import ScriptConsole.CommandLine.Outcome

/-!
# The program

Reads the files that a request names, carries the request out, and writes the outcome. The source is
read after the settings, because both may come from the input. Only a dialogue is different: it is
held line by line, so that each answer is seen before the next line is asked for.
-/

namespace ScriptConsole.CommandLine

/-- The paths that a command reads. -/
def Command.paths : Command → List String
  | .tokenize path | .parse path _ | .evaluate path | .run path => [path]
  | .repl => []

/-- Reads everything that can be read from an open file. -/
def readAll (handle : IO.FS.Handle) : IO Entry :=
  tryCatch (do return .file (← handle.readBinToEnd).toList) fun _ => return .unreadable

/-- Looks at what a path leads to. -/
def lookAt (path : String) : IO Entry :=
  tryCatch (do readAll (← IO.FS.Handle.mk path .read)) fun _ => return .missing

/-- Starts the log and tells whether this worked. -/
def createLog : IO Bool :=
  tryCatch (do IO.FS.writeFile logName logText; return true) fun _ => return false

/-- The world as far as some paths show it. -/
def worldOf (paths : List String) : IO World := do
  let entries ← paths.mapM fun path => return (path, ← lookAt path)
  return { entry := fun path => (entries.lookup path).getD .missing }

/-- The world as far as the settings show it, once the log has been started if one is asked for. -/
def startingWorld (invocation : Invocation) : IO World := do
  let started ← if invocation.log then createLog else pure true
  let world ← worldOf invocation.config.toList
  return { world with logged := if started then some world.entry else none }

/-- Writes an outcome and gives its exit code. -/
def report (outcome : Outcome) : IO UInt32 := do
  (← IO.getStdout).putStr outcome.output
  (← IO.getStderr).putStr outcome.errors
  return outcome.exit

/-- Reads one line with its end, byte by byte; there is nothing left at the end of the input. -/
partial def readLine (input : IO.FS.Stream) (line : List UInt8 := []) : IO (List UInt8) := do
  match (← input.read 1).toList with
  | [] => return line.reverse
  | b :: _ => if b = Text.lineFeed then return (b :: line).reverse else readLine input (b :: line)

/-- Answers lines until the input ends. -/
partial def converse (input output : IO.FS.Stream) (terminal : Terminal) : IO UInt32 := do
  output.flush
  let line ← readLine input
  if line.isEmpty then
    output.putStr Dialogue.closing
    return 0
  match Dialogue.answer terminal line with
  | none => report (.failure "stream did not contain valid UTF-8")
  | some (terminal, shown) =>
    output.putStr shown
    converse input output terminal

/-- Holds a dialogue with the user. -/
def holdDialogue (settings : Settings) : IO UInt32 := do
  let output ← IO.getStdout
  let terminal := Dialogue.start settings
  output.putStr (Dialogue.opening terminal)
  converse (← IO.getStdin) output terminal

/-- Carries out a request in the world as it is. -/
def perform : Request → IO UInt32
  | .help => report { output := usageText }
  | .version => report { output := versionText }
  | .invoke invocation => do
    match prepare (← startingWorld invocation) invocation with
    | .error outcome => report outcome
    | .ok (settings, _) =>
      match invocation.command with
      | .repl => holdDialogue settings
      | command => report (execute (← worldOf command.paths) settings command)

end ScriptConsole.CommandLine

open ScriptConsole.CommandLine in
/-- Runs the program with the arguments of the command line. -/
def main (args : List String) : IO UInt32 :=
  match Request.ofArgs? args with
  | some request => perform request
  | none => report { exit := Outcome.usageCode, errors := usageText }
