import ScriptConsole.Json.Writer
import ScriptConsole.Tree.Node

/-!
# Trees as JSON

Every node is an object with its kind and the mark that says whether it was written between
parentheses. The kind is an object with one member, named for the kind, which holds the parts.
-/

namespace ScriptConsole

open Json (Document)

/-- The name of a unary operator in a document. -/
def UnaryOp.documentName : UnaryOp → String
  | .plus => "Plus"
  | .minus => "Minus"
  | .not => "Not"

/-- The name of a binary operator in a document. -/
def BinaryOp.documentName : BinaryOp → String
  | .add => "Add"
  | .subtract => "Subtract"
  | .multiply => "Multiply"
  | .divide => "Divide"
  | .remainder => "Remainder"

/-- The document of an assignment operator. -/
def AssignOp.toDocument : AssignOp → Document
  | .assign => .string "Assign"
  | .compound op => .object [("Compound", .string op.documentName)]

/-- The document of a constant. -/
def Literal.toDocument : Literal → Document
  | .number n => .object [("Number", .number n.val)]
  | .string s => .object [("Str", .string s)]
  | .bool b => .object [("Bool", .bool b)]
  | .null => .string "Null"

namespace Node

/-- The document of a node with the given parts. -/
def documentOf (kind : String) (parts : List (String × Document)) (grouped : Bool) : Document :=
  .object [("kind", .object [(kind, .object parts)]), ("parenthesised", .bool grouped)]

mutual

/-- The document of a tree. -/
def toDocument : Node → Document
  | .identifier name g => documentOf "Identifier" [("name", .string name)] g
  | .literal value g => documentOf "Literal" [("value", value.toDocument)] g
  | .array slots g => documentOf "ArrayExpression" [("elements", .list (slotDocuments slots))] g
  | .function name params body g =>
    documentOf "FunctionExpression"
      [("id", match name with | some name => .string name | none => .null),
        ("params", .list (params.map .string)), ("body", body.toDocument)] g
  | .block body g => documentOf "BlockStatement" [("body", .list (documents body))] g
  | .statement inner g => documentOf "ExpressionStatement" [("expression", inner.toDocument)] g
  | .assignment op left right g =>
    documentOf "AssignmentExpression"
      [("operator", op.toDocument), ("left", left.toDocument), ("right", right.toDocument)] g
  | .binary op left right g =>
    documentOf "BinaryExpression"
      [("operator", .string op.documentName), ("left", left.toDocument),
        ("right", right.toDocument)] g
  | .unary op operand g =>
    documentOf "UnaryExpression"
      [("operator", .string op.documentName), ("argument", operand.toDocument)] g
  | .call callee arguments g =>
    documentOf "CallExpression"
      [("callee", .string callee), ("arguments", .list (documents arguments))] g

/-- The documents of several trees. -/
def documents : List Node → List Document
  | [] => []
  | node :: rest => node.toDocument :: documents rest

/-- The documents of slots; an empty slot is null. -/
def slotDocuments : List (Option Node) → List Document
  | [] => []
  | none :: rest => .null :: slotDocuments rest
  | some node :: rest => node.toDocument :: slotDocuments rest

end

end Node

end ScriptConsole
