/-!
# The world of a run

What a run can see besides its arguments: what paths lead to, and the input. A run that keeps a log
starts it before it reads anything, so it sees the paths as they are once the log is there. A path may
lead to the input as well; whoever reads it there uses it up.
-/

namespace ScriptConsole.CommandLine

/-- What a path leads to. -/
inductive Entry
  /-- Nothing that can be opened. -/
  | missing
  /-- Something that can be opened but not read, such as a directory. -/
  | unreadable
  /-- The input of the run. -/
  | input
  | file (bytes : List UInt8)
deriving DecidableEq, Repr

/-- What a run can see of the world. -/
structure World where
  /-- What a path leads to. -/
  entry : String → Entry
  /-- What a path leads to once the log has been started; `none` if it cannot be started. -/
  logged : Option (String → Entry) := some entry
  /-- The input that is left. -/
  input : List UInt8 := []

/-- The name of the log. -/
def logName : String := "app.log"

/-- What a log says when it has been started. -/
def logText : String := "Logger initialized, writing to " ++ logName ++ "\n"

end ScriptConsole.CommandLine
