import ScriptConsole.Error
import ScriptConsole.Text.Blank
import ScriptConsole.Text.Escaped
import ScriptConsole.Tree.Node

/-!
# Values

What expressions evaluate to, with the readings of a value that operators and messages use: its
text, its truth, and its number. A closure names the scope it was defined in and does not hold it,
so values contain no scopes.
-/

namespace ScriptConsole

/-- Names a scope. A name is never given out twice. -/
abbrev ScopeId := Nat

/-- The functions that every scope can see. -/
inductive Builtin
  /-- The absolute value of a number. -/
  | abs
  /-- Asks for the screen to be cleared. -/
  | cls
deriving DecidableEq, Repr, Inhabited

/-- A function defined in a session. -/
structure Closure where
  /-- Tells closures apart that look alike: each definition makes a closure of its own. -/
  id : Nat
  /-- The name it was defined with. -/
  name : String
  /-- The names that the arguments of a call are bound to. -/
  params : List String
  /-- What a call evaluates. -/
  body : Node
  /-- The scope it was defined in. -/
  scope : ScopeId
deriving DecidableEq

/-- A value of the language. -/
inductive Value
  | number (n : Number)
  | string (s : String)
  | bool (b : Bool)
  | null
  | builtin (f : Builtin)
  | closure (c : Closure)
deriving DecidableEq, Inhabited

namespace Builtin

/-- The name the function is called by. -/
def name : Builtin → String
  | .abs => "abs"
  | .cls => "cls"

/-- The function with a given name. -/
def ofName? : String → Option Builtin
  | "abs" => some .abs
  | "cls" => some .cls
  | _ => none

@[simp]
theorem ofName?_name (f : Builtin) : ofName? f.name = some f := by
  cases f <;> rfl

end Builtin

namespace Closure

/-- The name with the parameters, as in `half(x)`. -/
def signature (c : Closure) : String :=
  c.name ++ "(" ++ ", ".intercalate c.params ++ ")"

/-- A closure with the value null whose scope never was there, made with a name that no scope and no
other closure has. -/
def orphan (id : Nat) (name : String) (params : List String) : Closure :=
  ⟨id, name, params, .literal .null, id⟩

end Closure

namespace Value

/-- The value of a constant. -/
def ofLiteral : Literal → Value
  | .number n => .number n
  | .string s => .string s
  | .bool b => .bool b
  | .null => .null

/-- The text of a truth value. -/
def boolText (b : Bool) : String :=
  if b then "true" else "false"

/-- The text that stands for a value on the console and in concatenations. -/
def text : Value → String
  | .number n => n.text
  | .string s => s
  | .bool b => boolText b
  | .null => "null"
  | .builtin f => "<native fn " ++ f.name ++ ">"
  | .closure c => c.signature

/-- The text that shows the kind of a value and what it holds. -/
def inspect : Value → String
  | .number n => "Number(" ++ n.text ++ ")"
  | .string s => "String(" ++ Text.Escaped.text s ++ ")"
  | .bool b => "Bool(" ++ boolText b ++ ")"
  | .null => "Null"
  | .builtin f => "NativeFunction(" ++ f.name ++ ")"
  | .closure c => "Closure(" ++ c.signature ++ ")"

/-- Whether a value can be called. -/
def isCallable : Value → Bool
  | .builtin _ | .closure _ => true
  | _ => false

/-- Whether a value is a string. -/
def isString : Value → Bool
  | .string _ => true
  | _ => false

/-- Whether a value counts as true: all do but `false`, `null`, zero and the empty string. -/
def isTruthy : Value → Bool
  | .bool b => b
  | .null => false
  | .number n => n.val != 0
  | .string s => s != ""
  | .builtin _ | .closure _ => true

/-- The number a value stands for in arithmetic. A string stands for the decimal number it holds
between blanks, and for zero if it holds nothing but blanks. -/
def toNumber : Value → Except Error Number
  | .number n => .ok n
  | .bool b => .ok (if b then Number.one else Number.zero)
  | .null => .ok Number.zero
  | .string s =>
    match Text.trim s.toList with
    | [] => .ok Number.zero
    | digits =>
      match Number.ofDecimal? digits with
      | some n => .ok n
      | none => .error (.notANumber ("\"" ++ s ++ "\""))
  | .builtin f => .error (.notANumber (text (.builtin f)))
  | .closure c => .error (.notANumber (text (.closure c)))

/-- Equality of values; closures are equal if they are one and the same. -/
def same : Value → Value → Bool
  | .closure c, .closure d => c.id == d.id
  | a, b => a = b

end Value

end ScriptConsole
