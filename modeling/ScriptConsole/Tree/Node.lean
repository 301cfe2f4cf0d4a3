import ScriptConsole.Number
import ScriptConsole.Tree.Operator

/-!
# Trees

A statement is a tree of nodes. Every node remembers whether it was written between parentheses,
which only matters when the tree is printed. Two trees are equal if their marks are equal too.
-/

namespace ScriptConsole

/-- A constant written in the source. -/
inductive Literal
  | number (n : Number)
  | string (s : String)
  | bool (b : Bool)
  | null
deriving DecidableEq, Inhabited

/-- A node of the tree of a statement. In every case `grouped` says whether the node was written
between parentheses. -/
inductive Node
  /-- A name that is looked up. -/
  | identifier (name : String) (grouped : Bool := false)
  /-- A constant. -/
  | literal (value : Literal) (grouped : Bool := false)
  /-- A list in brackets; a slot may be empty. -/
  | array (slots : List (Option Node)) (grouped : Bool := false)
  /-- A function with its parameters and its body, and maybe a name. -/
  | function (name : Option String) (params : List String) (body : Node) (grouped : Bool := false)
  /-- Statements in order. -/
  | block (body : List Node) (grouped : Bool := false)
  /-- An expression used as a statement. -/
  | statement (expression : Node) (grouped : Bool := false)
  /-- An assignment to the left side, which is a name or the pattern of a definition. -/
  | assignment (op : AssignOp) (left right : Node) (grouped : Bool := false)
  /-- An operator between two operands. -/
  | binary (op : BinaryOp) (left right : Node) (grouped : Bool := false)
  /-- An operator in front of its operand. -/
  | unary (op : UnaryOp) (operand : Node) (grouped : Bool := false)
  /-- A call by name. -/
  | call (callee : String) (arguments : List Node) (grouped : Bool := false)
deriving Inhabited

namespace Node

/-- Whether the node was written between parentheses. -/
def grouped : Node → Bool
  | .identifier _ g => g
  | .literal _ g => g
  | .array _ g => g
  | .function _ _ _ g => g
  | .block _ g => g
  | .statement _ g => g
  | .assignment _ _ _ g => g
  | .binary _ _ _ g => g
  | .unary _ _ g => g
  | .call _ _ g => g

/-- The same node, marked as written between parentheses or not. -/
def withGrouped (g : Bool) : Node → Node
  | .identifier name _ => .identifier name g
  | .literal value _ => .literal value g
  | .array slots _ => .array slots g
  | .function name params body _ => .function name params body g
  | .block body _ => .block body g
  | .statement expression _ => .statement expression g
  | .assignment op left right _ => .assignment op left right g
  | .binary op left right _ => .binary op left right g
  | .unary op operand _ => .unary op operand g
  | .call callee arguments _ => .call callee arguments g

/-- The name of the node's kind in messages. -/
def kindName : Node → String
  | .identifier .. => "Identifier"
  | .literal .. => "Literal"
  | .array .. => "ArrayExpression"
  | .function .. => "FunctionExpression"
  | .block .. => "BlockStatement"
  | .statement .. => "ExpressionStatement"
  | .assignment .. => "AssignmentExpression"
  | .binary .. => "BinaryExpression"
  | .unary .. => "UnaryExpression"
  | .call .. => "CallExpression"

mutual

/-- Whether two trees are equal, marks included. -/
def same : Node → Node → Bool
  | .identifier a g, .identifier b k => a == b && g == k
  | .literal a g, .literal b k => a == b && g == k
  | .array as g, .array bs k => sameSlots as bs && g == k
  | .function a as x g, .function b bs y k => a == b && as == bs && same x y && g == k
  | .block as g, .block bs k => sameAll as bs && g == k
  | .statement a g, .statement b k => same a b && g == k
  | .assignment a w x g, .assignment b y z k => a == b && same w y && same x z && g == k
  | .binary a w x g, .binary b y z k => a == b && same w y && same x z && g == k
  | .unary a x g, .unary b y k => a == b && same x y && g == k
  | .call a as g, .call b bs k => a == b && sameAll as bs && g == k
  | _, _ => false

/-- Whether two lists of trees are equal. -/
def sameAll : List Node → List Node → Bool
  | [], [] => true
  | a :: as, b :: bs => same a b && sameAll as bs
  | _, _ => false

/-- Whether two lists of slots are equal. -/
def sameSlots : List (Option Node) → List (Option Node) → Bool
  | [], [] => true
  | none :: as, none :: bs => sameSlots as bs
  | some a :: as, some b :: bs => same a b && sameSlots as bs
  | _, _ => false

end

mutual

/-- `same` decides equality of trees. -/
theorem same_iff (a b : Node) : same a b = true ↔ a = b := by
  cases a <;> cases b <;>
    simp [same, same_iff, sameAll_iff, sameSlots_iff, and_assoc]

/-- `sameAll` decides equality of lists of trees. -/
theorem sameAll_iff (as bs : List Node) : sameAll as bs = true ↔ as = bs := by
  cases as <;> cases bs <;> simp [sameAll, same_iff, sameAll_iff]

/-- `sameSlots` decides equality of lists of slots. -/
theorem sameSlots_iff (as bs : List (Option Node)) : sameSlots as bs = true ↔ as = bs := by
  rcases as with _ | ⟨_ | a, as⟩ <;> rcases bs with _ | ⟨_ | b, bs⟩ <;>
    simp [sameSlots, same_iff, sameSlots_iff]

end

instance : DecidableEq Node := fun a b => decidable_of_iff _ (same_iff a b)

end Node

end ScriptConsole
