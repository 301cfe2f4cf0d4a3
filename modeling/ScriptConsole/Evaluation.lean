import ScriptConsole.Scope
import ScriptConsole.Tree.Printer
import ScriptConsole.Value.Arithmetic

/-!
# Evaluation

Trees are evaluated in a scope of a session. An evaluation changes the session as it goes, and what
it has changed stays when it fails.

The evaluator itself, `Evaluation.evaluateWith`, follows the tree and is handed the way to make
calls. A call evaluates the body of a closure, which is no part of the tree that makes the call:
`Evaluation.callWith` counts down how many calls may still be made inside each other, and this is
why every evaluation ends. A call gets a scope of its own, which is there until the call returns, and
the session counts the calls that have not returned.
-/

namespace ScriptConsole

/-- What a function asks of the host. -/
inductive Signal
  /-- Clear the screen and the scrollback. -/
  | clearScreen
deriving DecidableEq, Repr, Inhabited

/-- The state that one statement leaves to the next: the scopes, the signals that the host has not
taken yet, and how many calls of closures are under way. -/
structure Session where
  store : Store
  signals : List Signal := []
  depth : Nat := 0
deriving DecidableEq, Inhabited

/-- A computation in a session. -/
abbrev Eval := EStateM Error Session

namespace Evaluation

/-- How many calls may be made inside each other. -/
def maxCallDepth : Nat := 256

/-- Looks a name up in a scope. -/
def lookup (scope : ScopeId) (name : String) : Eval Value := do
  return (← get).store.get scope name

/-- Binds a name in a scope. -/
def define (scope : ScopeId) (name : String) (value : Value) : Eval Unit :=
  modify fun session => { session with store := session.store.define scope name value }

/-- Queues a signal for the host. -/
def raise (signal : Signal) : Eval Unit :=
  modify fun session => { session with signals := session.signals ++ [signal] }

/-- Makes a closure in a scope. -/
def makeClosure (scope : ScopeId) (name : String) (params : List String) (body : Node) :
    Eval Closure :=
  modifyGet fun session =>
    let (id, store) := session.store.fresh
    (⟨id, name, params, body, scope⟩, { session with store })

/-- The parameters that the arguments of a pattern name: all of them have to be names. -/
def parameterNames : List Node → Except Error (List String)
  | [] => .ok []
  | .identifier name _ :: rest => (parameterNames rest).map (name :: ·)
  | node :: _ => .error (.invalidIdentifier node.print)

/-- Calls a built-in. -/
def callBuiltin : Builtin → List Value → Eval Value
  | .abs, [] => throw (.missingArgument Builtin.abs.name)
  | .abs, value :: _ => MonadExcept.ofExcept do
    let n ← value.toNumber
    Value.ofExact n.val.natAbs
  | .cls, _ => do
    raise .clearScreen
    return .null

/-- Starts a call: a new scope inside `parent` in which names are bound to values. -/
def enter (parent : ScopeId) (names : List String) (values : List Value) (session : Session) :
    ScopeId × Session :=
  let (scope, store) := session.store.push (some parent)
  (scope, { session with store := store.defineAll scope names values, depth := session.depth + 1 })

/-- Ends a call and takes its scope away. -/
def leave (scope : ScopeId) (session : Session) : Session :=
  { session with store := session.store.release scope, depth := session.depth - 1 }

/-- Runs a computation in a new scope inside `parent` in which names are bound to values, and takes
the scope away again, whether the computation succeeds or fails. -/
def inScope (parent : ScopeId) (names : List String) (values : List Value)
    (body : ScopeId → Eval Value) : Eval Value := fun session =>
  let (scope, entered) := enter parent names values session
  match body scope entered with
  | .ok value after => .ok value (leave scope after)
  | .error error after => .error error (leave scope after)

mutual

/-- Evaluates a tree in a scope, given the way to make calls. -/
def evaluateWith (call : Value → List Value → Eval Value) (scope : ScopeId) : Node → Eval Value
  | .identifier name _ => lookup scope name
  | .literal value _ => return .ofLiteral value
  | .array slots g => throw (.unimplementedEvaluator (Node.array slots g).kindName)
  | .function name params body _ => do
    let closure ← makeClosure scope (name.getD "function") params body
    if let some name := name then
      define scope name (.closure closure)
    return .closure closure
  | .block body _ => evaluateBody call scope .null body
  | .statement expression _ => evaluateWith call scope expression
  | .assignment .assign (.identifier name _) right _ => do
    let value ← evaluateWith call scope right
    define scope name value
    return value
  | .assignment (.compound op) (.identifier name _) right _ => do
    let current ← lookup scope name
    let operand ← evaluateWith call scope right
    let value ← MonadExcept.ofExcept (Value.binary op current operand)
    define scope name value
    return value
  | .assignment .assign (.call callee arguments _) right _ => do
    let params ← MonadExcept.ofExcept (parameterNames arguments)
    let closure ← makeClosure scope callee params right
    define scope callee (.closure closure)
    return .closure closure
  | .assignment (.compound op) (.call _ _ _) _ _ => throw (.compoundDefinition (.compound op))
  | .assignment _ left _ _ => throw (.invalidAssignment left.kindName)
  | .binary op left right _ => do
    let a ← evaluateWith call scope left
    let b ← evaluateWith call scope right
    MonadExcept.ofExcept (Value.binary op a b)
  | .unary op operand _ => do
    let value ← evaluateWith call scope operand
    MonadExcept.ofExcept (Value.unary op value)
  | .call callee arguments _ => do
    let function ← lookup scope callee
    if function.isCallable then
      let values ← evaluateAll call scope arguments
      call function values
    else
      throw (.notAFunction callee)

/-- Evaluates statements in order. The value is that of the last one, or `last` if there is none. -/
def evaluateBody (call : Value → List Value → Eval Value) (scope : ScopeId) (last : Value) :
    List Node → Eval Value
  | [] => return last
  | statement :: rest => do
    let value ← evaluateWith call scope statement
    evaluateBody call scope value rest

/-- Evaluates arguments from left to right. -/
def evaluateAll (call : Value → List Value → Eval Value) (scope : ScopeId) :
    List Node → Eval (List Value)
  | [] => return []
  | argument :: rest => do
    let value ← evaluateWith call scope argument
    let values ← evaluateAll call scope rest
    return value :: values

end

/-- Calls a value with arguments, where so many calls may be made inside each other. A closure can be
called as long as the scope it was defined in is there. -/
def callWith : Nat → Value → List Value → Eval Value
  | _, .builtin f, args => callBuiltin f args
  | 0, .closure _, _ => throw (.callDepth maxCallDepth)
  | callsLeft + 1, .closure c, args => do
    if (← get).store.isLive c.scope then
      inScope c.scope c.params args fun scope => evaluateWith (callWith callsLeft) scope c.body
    else
      throw (.expiredClosure c.signature)
  | _, value, _ => throw (.notAFunction value.text)

/-- Calls a value with arguments. The calls under way count towards the limit. -/
def call (function : Value) (args : List Value) : Eval Value := fun session =>
  callWith (maxCallDepth - session.depth) function args session

/-- Evaluates a tree in a scope. -/
def evaluate (scope : ScopeId) (node : Node) : Eval Value :=
  evaluateWith call scope node

end Evaluation

end ScriptConsole
