/-!
# Operators

The operators of the language and the texts they are written with. Each `text` is read back by the
`ofLexeme?` of its kind.
-/

namespace ScriptConsole

/-- The operators written in front of their operand. -/
inductive UnaryOp
  | plus
  | minus
  | not
deriving DecidableEq, Repr, Inhabited

/-- The operators written between their operands. -/
inductive BinaryOp
  | add
  | subtract
  | multiply
  | divide
  | remainder
deriving DecidableEq, Repr, Inhabited

/-- Plain assignment, or assignment of the result of a binary operator to its left operand. -/
inductive AssignOp
  | assign
  | compound (op : BinaryOp)
deriving DecidableEq, Repr, Inhabited

namespace UnaryOp

/-- The text of the operator. -/
def text : UnaryOp → String
  | .plus => "+"
  | .minus => "-"
  | .not => "!"

/-- The operator with a given text. -/
def ofLexeme? : String → Option UnaryOp
  | "+" => some .plus
  | "-" => some .minus
  | "!" => some .not
  | _ => none

@[simp]
theorem ofLexeme?_text (op : UnaryOp) : ofLexeme? op.text = some op := by
  cases op <;> rfl

end UnaryOp

namespace BinaryOp

/-- The text of the operator. -/
def text : BinaryOp → String
  | .add => "+"
  | .subtract => "-"
  | .multiply => "*"
  | .divide => "/"
  | .remainder => "%"

/-- The operator with a given text. -/
def ofLexeme? : String → Option BinaryOp
  | "+" => some .add
  | "-" => some .subtract
  | "*" => some .multiply
  | "/" => some .divide
  | "%" => some .remainder
  | _ => none

@[simp]
theorem ofLexeme?_text (op : BinaryOp) : ofLexeme? op.text = some op := by
  cases op <;> rfl

end BinaryOp

namespace AssignOp

/-- The text of the operator: a binary operator is compounded by an equals sign after it. -/
def text : AssignOp → String
  | .assign => "="
  | .compound op => op.text ++ "="

/-- Whether a text looks like an assignment: an equals sign with at most one byte before it. Two
operators look so and mean nothing: `==` and `!=`. -/
def hasShape (lexeme : String) : Bool :=
  lexeme.toList.getLast? == some '=' && lexeme.utf8ByteSize ≤ 2

/-- The operator with a given text. -/
def ofLexeme? : String → Option AssignOp
  | "=" => some .assign
  | "+=" => some (.compound .add)
  | "-=" => some (.compound .subtract)
  | "*=" => some (.compound .multiply)
  | "/=" => some (.compound .divide)
  | "%=" => some (.compound .remainder)
  | _ => none

@[simp]
theorem ofLexeme?_text (op : AssignOp) : ofLexeme? op.text = some op := by
  cases op with
  | assign => rfl
  | compound op => cases op <;> rfl

end AssignOp

end ScriptConsole
