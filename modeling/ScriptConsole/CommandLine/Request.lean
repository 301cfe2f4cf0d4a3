/-!
# Requests

What the arguments of the command line ask for. The options `--log` and `--config` may stand before
or behind the name of the command; if a file is given in both places, the one behind counts. An option
must not be given twice in the same place. Arguments are read from left to right, and the first that
makes no sense or asks for help or the version decides.
-/

namespace ScriptConsole.CommandLine

/-- What to do. -/
inductive Command
  /-- List the tokens of a file. -/
  | tokenize (path : String)
  /-- Print the statement in a file, as source or as JSON. -/
  | parse (path : String) (json : Bool)
  /-- Print the value of the statement in a file. -/
  | evaluate (path : String)
  /-- Submit a file to a terminal line by line and print its scrollback. -/
  | run (path : String)
  /-- Submit the lines of the input to a terminal as they come. -/
  | repl
deriving DecidableEq, Repr

/-- A command with its options. -/
structure Invocation where
  command : Command
  /-- Whether a log is asked for. -/
  log : Bool
  /-- The path of the settings. -/
  config : Option String
deriving DecidableEq, Repr

/-- What the arguments ask for. -/
inductive Request
  /-- How to use the program. -/
  | help
  /-- Which version it is. -/
  | version
  | invoke (invocation : Invocation)
deriving DecidableEq, Repr

/-- The options and the path found in one place. -/
structure Options where
  log : Bool := false
  config : Option String := none
  json : Bool := false
  path : Option String := none
deriving DecidableEq, Repr

/-- Whether an argument looks like an option; a dash alone does not. -/
def looksLikeOption (arg : String) : Bool :=
  arg.toList.head? == some '-' && arg != "-"

/-- Whether an argument can be the value of an option. -/
def isValue (arg : String) : Bool :=
  !looksLikeOption arg && arg != ""

/-- What stands in an argument behind a given start. -/
def after? (start arg : String) : Option String :=
  (start.toList.isPrefixOf? arg.toList).map String.ofList

namespace Options

/-- Takes up the path of the settings; it must not be empty or given twice. -/
def setConfig (options : Options) (path : String) : Option Options :=
  if options.config.isSome ∨ path = "" then none else some { options with config := some path }

/-- Takes up `--log`, which must not be given twice. -/
def setLog (options : Options) : Option Options :=
  if options.log then none else some { options with log := true }

/-- Takes up `--json`, which must not be given twice. -/
def setJson (options : Options) : Option Options :=
  if options.json then none else some { options with json := true }

/-- Takes up the path of a file; it must not be empty or given twice. -/
def setPath (options : Options) (path : String) : Option Options :=
  if options.path.isSome ∨ path = "" then none else some { options with path := some path }

end Options

/-- The name of a command. -/
inductive Command.Name
  | tokenize
  | parse
  | evaluate
  | run
  | repl
deriving DecidableEq, Repr

namespace Command.Name

/-- The name as it is written. -/
def text : Name → String
  | tokenize => "tokenize"
  | parse => "parse"
  | evaluate => "evaluate"
  | run => "run"
  | repl => "repl"

/-- All names. -/
def all : List Name :=
  [tokenize, parse, evaluate, run, repl]

/-- The name that is written as a given text. -/
def ofText? (s : String) : Option Name :=
  all.find? fun name => name.text == s

/-- Whether the command takes the path of a file. -/
def takesPath (name : Name) : Bool :=
  name ≠ repl

/-- Whether the command takes `--json`. -/
def takesJson (name : Name) : Bool :=
  name = parse

/-- The command of this name, given what stands behind it. -/
def command? (name : Name) (options : Options) : Option Command :=
  match name with
  | tokenize => options.path.map .tokenize
  | parse => options.path.map fun path => .parse path options.json
  | evaluate => options.path.map .evaluate
  | run => options.path.map .run
  | repl => some .repl

/-- Takes up an argument that is no option. -/
def take (name : Name) (options : Options) (arg : String) : Option Options :=
  if name.takesPath then options.setPath arg else none

/-- Reads the arguments behind the name. The result is `none` if they make no sense, and `some none`
if they ask for help. -/
def readOptions (name : Name) (options : Options) : List String → Option (Option Options)
  | [] => some (some options)
  | "--" :: args => (args.foldlM name.take options).map some
  | "--config" :: args =>
    match args with
    | path :: args =>
      if isValue path then
        (options.setConfig path).bind fun options => name.readOptions options args
      else
        none
    | [] => none
  | arg :: args =>
    if arg = "--log" then
      options.setLog.bind fun options => name.readOptions options args
    else if name.takesJson ∧ arg = "--json" then
      options.setJson.bind fun options => name.readOptions options args
    else if let some path := after? "--config=" arg then
      (options.setConfig path).bind fun options => name.readOptions options args
    else if arg = "--help" ∨ (after? "-h" arg).isSome then
      some none
    else if looksLikeOption arg then
      none
    else
      (name.take options arg).bind fun options => name.readOptions options args

end Command.Name

namespace Request

/-- The request of a named command, given the options before and the arguments behind its name. -/
def ofCommand? (name : Command.Name) (before : Options) (args : List String) : Option Request :=
  match name.readOptions {} args with
  | none => none
  | some none => some .help
  | some (some behind) =>
    (name.command? behind).map fun command =>
      .invoke ⟨command, before.log || behind.log, behind.config.or before.config⟩

/-- The request behind the word `help`: help on the program, on one command, or on `help`. -/
def ofHelp? : List String → Option Request
  | [] | ["help"] => some .help
  | [arg] => (Command.Name.ofText? arg).map fun _ => .help
  | _ => none

/-- Reads all arguments, given the options found so far. -/
def read (options : Options) : List String → Option Request
  | [] => none
  | "--config" :: args =>
    match args with
    | path :: args =>
      if isValue path then
        (options.setConfig path).bind fun options => read options args
      else
        none
    | [] => none
  | arg :: args =>
    if arg = "--log" then
      options.setLog.bind fun options => read options args
    else if let some path := after? "--config=" arg then
      (options.setConfig path).bind fun options => read options args
    else if arg = "--version" ∨ (after? "-V" arg).isSome then
      some .version
    else if arg = "--help" ∨ (after? "-h" arg).isSome then
      some .help
    else if arg = "help" then
      ofHelp? args
    else
      (Command.Name.ofText? arg).bind fun name => ofCommand? name options args

/-- What the arguments ask for; `none` if they make no sense. -/
def ofArgs? (args : List String) : Option Request :=
  read {} args

end Request

end ScriptConsole.CommandLine
