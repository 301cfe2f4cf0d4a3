import ScriptConsole.Tree.Operator

/-!
# Errors

Why a statement could not be parsed or evaluated. An `Error` holds the cause, and `Error.message` is
the only place that puts causes into words.
-/

namespace ScriptConsole

/-- What is wrong with a sequence of tokens. -/
inductive Fault
  /-- Another token stands where `what` has to stand, or none does. -/
  | expected (what : String)
  /-- The input ends inside an array. -/
  | unclosedArray
  /-- An array element is followed by neither a comma nor the closing bracket. -/
  | arraySeparator
  /-- The input ends where an expression or a name has to stand. -/
  | endOfInput
  /-- A number is too large to be held. -/
  | badNumber (lexeme : String)
  /-- A token follows the complete statement. -/
  | leftover (lexeme : String)
deriving DecidableEq, Repr, Inhabited

/-- The causes for which a submission fails. -/
inductive Error
  /-- The tokens do not form a statement. -/
  | malformed (fault : Fault)
  /-- The input ends inside an open block, so that more lines may complete it. -/
  | incomplete (fault : Fault)
  /-- A text that cannot be used as a name. -/
  | invalidIdentifier (text : String)
  /-- A call of something that cannot be called. -/
  | notAFunction (name : String)
  /-- An assignment to something that is neither a name nor the pattern of a definition. -/
  | invalidAssignment (kind : String)
  /-- A definition written with a compound assignment. -/
  | compoundDefinition (op : AssignOp)
  /-- An operator without a meaning. -/
  | unimplementedOperator (lexeme : String)
  /-- A kind of node that has no value. -/
  | unimplementedEvaluator (kind : String)
  /-- Arithmetic on a value without a numeric reading. -/
  | notANumber (value : String)
  | divisionByZero
  | overflow
  /-- Too many calls inside each other. -/
  | callDepth (limit : Nat)
  /-- A call of a closure after the call that defined it has returned. -/
  | expiredClosure (signature : String)
  /-- A built-in called without the argument it needs. -/
  | missingArgument (function : String)
deriving DecidableEq, Repr, Inhabited

namespace Fault

/-- The wording of a fault. -/
def message : Fault → String
  | .expected what => "Expected \"" ++ what ++ "\""
  | .unclosedArray => "Unclosed array expression"
  | .arraySeparator => "Expected \",\" or \"]\" in array expression."
  | .endOfInput => "Unexpected end of input"
  | .badNumber lexeme => "\"" ++ lexeme ++ "\" is not a valid number"
  | .leftover lexeme => "Unexpected \"" ++ lexeme ++ "\""

end Fault

namespace Error

/-- The wording of an error. -/
def message : Error → String
  | .malformed fault => fault.message
  | .incomplete fault => fault.message
  | .invalidIdentifier text => "\"" ++ text ++ "\" is not a valid identifier"
  | .notAFunction name => name ++ " is not a function."
  | .invalidAssignment kind => "Can't assign to a " ++ kind
  | .compoundDefinition op => "Can't use \"" ++ op.text ++ "\" to define a function"
  | .unimplementedOperator lexeme => "Unimplemented operator: " ++ lexeme
  | .unimplementedEvaluator kind => "Unimplemented evaluator: " ++ kind
  | .notANumber value => value ++ " is not a number"
  | .divisionByZero => "Division by zero"
  | .overflow => "Integer overflow"
  | .callDepth limit => "Maximum call depth of " ++ toString limit ++ " exceeded"
  | .expiredClosure signature => signature ++ " outlived the call that defined it"
  | .missingArgument function => function ++ " expects an argument"

/-- Whether more input could still complete the statement. -/
def isIncomplete : Error → Bool
  | .incomplete _ => true
  | _ => false

end Error

end ScriptConsole
