import ScriptConsole.CommandLine.Dialogue
import ScriptConsole.CommandLine.Request
import ScriptConsole.CommandLine.World
import ScriptConsole.Terminal.Settings.Reader
import ScriptConsole.Tree.Document

/-!
# Outcomes

What a run of the program writes and the code it exits with. A run depends on nothing but its
arguments and the `World` it sees, so `CommandLine.run` is a function of them.
-/

namespace ScriptConsole.CommandLine

/-- What a run writes and how it ends. -/
structure Outcome where
  exit : UInt32 := 0
  output : String := ""
  errors : String := ""
deriving DecidableEq, Repr

namespace Outcome

/-- The exit code for arguments that make no sense. -/
def usageCode : UInt32 := 2

/-- The exit code for a statement that cannot be parsed. -/
def parseCode : UInt32 := 65

/-- The exit code for a statement that cannot be evaluated. -/
def evaluationCode : UInt32 := 70

/-- Ends with an error about the world. -/
def failure (message : String) : Outcome :=
  { exit := 1, errors := "Error: " ++ message ++ "\n" }

/-- Ends with an error in a statement. -/
def ofError (code : UInt32) (error : Error) : Outcome :=
  { exit := code, errors := error.message ++ "\n" }

end Outcome

/-- The name and the version of the program. -/
def versionText : String := "simpl 0.1.0\n"

/-- How to use the program. -/
def usageText : String :=
  unlines
    ["Usage: simpl [--log] [--config <FILE>] <COMMAND>",
      "",
      "Commands:",
      "  tokenize <FILE>        list the tokens of a file",
      "  parse <FILE> [--json]  print the statement in a file",
      "  evaluate <FILE>        print the value of the statement in a file",
      "  run <FILE>             submit a file line by line and print the scrollback",
      "  repl                   submit the lines of the input"]

/-- A path as messages show it. -/
def shownPath (path : String) : String :=
  Text.Escaped.text path

/-- Ends because a path leads to nothing that can be opened. -/
def Outcome.notOpened (path : String) : Outcome :=
  .failure ("Failed to open file " ++ shownPath path)

/-- Ends because what a path leads to cannot be read as text. -/
def Outcome.notRead (path : String) : Outcome :=
  .failure ("Failed to read file " ++ shownPath path)

/-- The bytes that a path leads to, and the world that is left when they have been read. -/
def readBytes (world : World) (path : String) : Except Outcome (List UInt8 × World) :=
  match world.entry path with
  | .missing => .error (.notOpened path)
  | .unreadable => .error (.notRead path)
  | .input => .ok (world.input, { world with input := [] })
  | .file bytes => .ok (bytes, world)

/-- The text that a path leads to, and the world that is left when it has been read. -/
def readText (world : World) (path : String) : Except Outcome (String × World) := do
  let (bytes, world) ← readBytes world path
  match Text.Utf8.strict? bytes with
  | some text => return (text, world)
  | none => .error (.notRead path)

/-- Reads the settings, or takes the defaults if no path is given. -/
def readSettings (world : World) : Option String → Except Outcome (Settings × World)
  | none => .ok ({}, world)
  | some path => do
    let (text, world) ← readText world path
    match Settings.ofJson text with
    | .ok settings => return (settings, world)
    | .error _ => .error (.failure ("Invalid config file " ++ shownPath path))

/-- Lists the tokens of a text. -/
def tokenizeText (source : String) : Outcome :=
  { output := unlines ((Token.scan source).map Token.listing) }

/-- Prints the statement in a text. -/
def parseText (json : Bool) (source : String) : Outcome :=
  match parse source with
  | .ok none => {}
  | .ok (some node) =>
    { output := (if json then node.toDocument.write 0 else node.print) ++ "\n" }
  | .error error => .ofError Outcome.parseCode error

/-- Prints the value of the statement in a text. -/
def evaluateText (source : String) : Outcome :=
  match parse source with
  | .ok none => {}
  | .ok (some node) =>
    match (Session.evaluate node).run Session.new with
    | .ok value _ => { output := value.text ++ "\n" }
    | .error error _ => .ofError Outcome.evaluationCode error
  | .error error => .ofError Outcome.parseCode error

/-- Submits the lines of a text to a new terminal. -/
def submitLines (settings : Settings) (source : String) : Terminal :=
  (Text.lines source.toList).foldl
    (fun terminal line => (terminal.submit (String.ofList line)).terminal) (Terminal.new settings)

/-- Holds a dialogue over the whole input. -/
def dialogueOutcome (settings : Settings) (input : List UInt8) : Outcome :=
  let terminal := Dialogue.start settings
  let (shown, ok) := Dialogue.hold terminal (Text.byteLines input)
  let output := Dialogue.opening terminal ++ shown
  if ok then
    { output }
  else
    { Outcome.failure "stream did not contain valid UTF-8" with output }

/-- Goes on with the text that a path leads to, or ends because there is none. -/
def withText (world : World) (path : String) (next : String → Outcome) : Outcome :=
  match readText world path with
  | .ok (text, _) => next text
  | .error outcome => outcome

/-- Carries out a command. -/
def execute (world : World) (settings : Settings) : Command → Outcome
  | .tokenize path => withText world path tokenizeText
  | .parse path json => withText world path (parseText json)
  | .evaluate path => withText world path evaluateText
  | .run path =>
    withText world path fun source => { output := unlines (submitLines settings source).lines }
  | .repl => dialogueOutcome settings world.input

/-- Starts the log, and gives the world with it. -/
def startLog (world : World) : Except Outcome World :=
  match world.logged with
  | some entry => .ok { world with entry }
  | none => .error (.failure ("Failed to create " ++ logName))

/-- Does what comes before any command: starts the log if one is asked for, and then reads the
settings. -/
def prepare (world : World) (invocation : Invocation) : Except Outcome (Settings × World) := do
  let world ← if invocation.log then startLog world else pure world
  readSettings world invocation.config

/-- Carries out an invocation. -/
def invoke (world : World) (invocation : Invocation) : Outcome :=
  match prepare world invocation with
  | .ok (settings, world) => execute world settings invocation.command
  | .error outcome => outcome

/-- Runs the program. -/
def run (world : World) (args : List String) : Outcome :=
  match Request.ofArgs? args with
  | none => { exit := Outcome.usageCode, errors := usageText }
  | some .help => { output := usageText }
  | some .version => { output := versionText }
  | some (.invoke invocation) => invoke world invocation

end ScriptConsole.CommandLine
