import ScriptConsole.Token.Scanner
import ScriptConsole.Tree.Node

/-!
# Printing trees

`Node.print` writes a tree as source text. Parentheses are written where a node is marked as grouped
and around statements of a block that would otherwise run into their neighbours.
-/

namespace ScriptConsole

/-- The source form of a constant; a string is quoted. -/
def Literal.print : Literal → String
  | .number n => n.text
  | .string s => String.ofList (Text.Quoted.enclose s.toList)
  | .bool b => if b then "true" else "false"
  | .null => "null"

namespace Node

/-- A text between parentheses. -/
def parenthesise (text : String) : String :=
  "(" ++ text ++ ")"

/-- Whether a text starts with a plus or a minus sign, so that it would continue the expression
before it. -/
def startsWithSign (text : String) : Bool :=
  text.toList.head? == some '+' || text.toList.head? == some '-'

/-- Whether a text starts with an opening parenthesis. -/
def startsWithParen (text : String) : Bool :=
  text.toList.head? == some '('

/-- Whether the last token of a text is an identifier, so that an opening parenthesis after it would
make a call of it. -/
def endsInName (text : String) : Bool :=
  (Token.scan text).getLast?.any fun token => token.kind == .identifier

/-- Sets the printed statements of a block apart, given the one before them: a statement that starts
with a sign is parenthesised, and so is a statement that ends in a name if the next one, as it is
printed then, starts with a parenthesis. -/
def separateAfter (previous : String) : List String → List String
  | [] => [previous]
  | next :: rest =>
    let next := if startsWithSign next then parenthesise next else next
    let previous :=
      if startsWithParen next && endsInName previous then parenthesise previous else previous
    previous :: separateAfter next rest

/-- Sets the printed statements of a block apart. -/
def separate : List String → List String
  | [] => []
  | first :: rest => separateAfter first rest

/-- The statements of a block, each followed by a space. -/
def joinStatements (statements : List String) : String :=
  String.join ((separate statements).map (· ++ " "))

/-- Writes the parentheses of a grouped node. -/
def wrap (g : Bool) (text : String) : String :=
  if g then parenthesise text else text

/-- The head of a function, up to its body. -/
def functionHead (name : Option String) (params : List String) : String :=
  "function " ++ name.getD "" ++ "(" ++ ", ".intercalate params ++ ") "

mutual

/-- The source form of a tree. The body of a function is written without the `do` of its block. -/
def print : Node → String
  | .identifier name g => wrap g name
  | .literal value g => wrap g value.print
  | .array slots g => wrap g ("[" ++ ", ".intercalate (printSlots slots) ++ "]")
  | .function name params (.block body _) g =>
    wrap g (functionHead name params ++ joinStatements (printAll body) ++ "end")
  | .function name params body g => wrap g (functionHead name params ++ body.print ++ " end")
  | .block body g => wrap g ("do " ++ joinStatements (printAll body) ++ "end")
  | .statement expression g => wrap g expression.print
  | .assignment op left right g => wrap g (left.print ++ " " ++ op.text ++ " " ++ right.print)
  | .binary op left right g => wrap g (left.print ++ " " ++ op.text ++ " " ++ right.print)
  | .unary op operand g => wrap g (op.text ++ operand.print)
  | .call callee arguments g => wrap g (callee ++ "(" ++ ", ".intercalate (printAll arguments) ++ ")")

/-- The source forms of several trees. -/
def printAll : List Node → List String
  | [] => []
  | node :: rest => node.print :: printAll rest

/-- The source forms of the slots of an array; an empty slot has none. -/
def printSlots : List (Option Node) → List String
  | [] => []
  | none :: rest => "" :: printSlots rest
  | some node :: rest => node.print :: printSlots rest

end

end Node

end ScriptConsole
