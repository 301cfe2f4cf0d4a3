import ScriptConsole.Evaluation
import ScriptConsole.Tree.Parser

/-!
# Sessions

A session keeps the variables of its statements in one outermost scope, `Session.globals`.
-/

namespace ScriptConsole.Session

/-- The outermost scope of a session. -/
def globals : ScopeId := 0

/-- A session in which nothing has been bound. -/
def new : Session :=
  { store := (Store.empty.push none).2 }

/-- Parses and evaluates one submission, which starts outside of any call; one without tokens has no
value. -/
def interpret (source : String) : Eval (Option Value) := do
  match ← MonadExcept.ofExcept (parse source) with
  | none => return none
  | some node =>
    modify fun session => { session with depth := 0 }
    some <$> Evaluation.evaluate globals node

/-- Evaluates a tree in the outermost scope. -/
def evaluate (node : Node) : Eval Value :=
  Evaluation.evaluate globals node

/-- Calls a value. -/
def call (function : Value) (args : List Value) : Eval Value :=
  Evaluation.call function args

/-- Looks a variable up. -/
def get (session : Session) (name : String) : Value :=
  session.store.get globals name

/-- Binds a variable. -/
def define (session : Session) (name : String) (value : Value) : Session :=
  { session with store := session.store.define globals name value }

/-- Takes the signals that are queued. -/
def takeSignals (session : Session) : List Signal × Session :=
  (session.signals, { session with signals := [] })

end ScriptConsole.Session
