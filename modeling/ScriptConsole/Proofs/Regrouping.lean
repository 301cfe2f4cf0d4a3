import ScriptConsole.Proofs.RegularTrees
import ScriptConsole.Tree.Printer

/-!
# Parentheses that printing adds

Printing puts a statement between parentheses that starts with a sign and is not the first of its
block. `Node.groupSigned` marks these statements in the tree. The marks are the only difference
(`plain_groupSigned`), and they are printed by the parentheses that were there anyway
(`print_groupSigned`).
-/

namespace ScriptConsole.Node

/-- A statement with parentheses around its expression. -/
def groupInner : Node → Node
  | .statement inner g => .statement (inner.withGrouped true) g
  | node => node

mutual

/-- The tree with parentheses around the expression of every statement that is not the first of its
block and is printed with a plus or a minus sign in front. -/
def groupSigned : Node → Node
  | .identifier name g => .identifier name g
  | .literal value g => .literal value g
  | .array slots g => .array (groupSignedSlots slots) g
  | .function name params body g => .function name params (groupSigned body) g
  | .block body g => .block (groupSignedBody body) g
  | .statement inner g => .statement (groupSigned inner) g
  | .assignment op left right g => .assignment op (groupSigned left) (groupSigned right) g
  | .binary op left right g => .binary op (groupSigned left) (groupSigned right) g
  | .unary op operand g => .unary op (groupSigned operand) g
  | .call callee arguments g => .call callee (groupSignedAll arguments) g

def groupSignedBody : List Node → List Node
  | [] => []
  | first :: rest => groupSigned first :: groupSignedLater rest

/-- The statements behind the first one of a block. -/
def groupSignedLater : List Node → List Node
  | [] => []
  | node :: rest =>
    (if startsWithSign node.print then groupInner (groupSigned node) else groupSigned node) ::
      groupSignedLater rest

def groupSignedAll : List Node → List Node
  | [] => []
  | node :: rest => groupSigned node :: groupSignedAll rest

def groupSignedSlots : List (Option Node) → List (Option Node)
  | [] => []
  | none :: rest => none :: groupSignedSlots rest
  | some node :: rest => some (groupSigned node) :: groupSignedSlots rest

end

mutual

/-- The tree without any marks of parentheses. -/
def plain : Node → Node
  | .identifier name _ => .identifier name
  | .literal value _ => .literal value
  | .array slots _ => .array (plainSlots slots)
  | .function name params body _ => .function name params (plain body)
  | .block body _ => .block (plainAll body)
  | .statement inner _ => .statement (plain inner)
  | .assignment op left right _ => .assignment op (plain left) (plain right)
  | .binary op left right _ => .binary op (plain left) (plain right)
  | .unary op operand _ => .unary op (plain operand)
  | .call callee arguments _ => .call callee (plainAll arguments)

def plainAll : List Node → List Node
  | [] => []
  | node :: rest => plain node :: plainAll rest

def plainSlots : List (Option Node) → List (Option Node)
  | [] => []
  | none :: rest => none :: plainSlots rest
  | some node :: rest => some (plain node) :: plainSlots rest

end

lemma plain_withGrouped (node : Node) (g : Bool) : (node.withGrouped g).plain = node.plain := by
  cases node <;> rfl

lemma plain_groupInner (node : Node) : node.groupInner.plain = node.plain := by
  cases node with
  | statement inner g =>
    rw [groupInner, plain, plain, plain_withGrouped]
  | _ => rfl

mutual

/-- Grouping statements changes nothing but marks. -/
theorem plain_groupSigned (node : Node) : node.groupSigned.plain = node.plain := by
  match node with
  | .identifier .. | .literal .. => rfl
  | .array slots _ => simp only [groupSigned, plain, plainSlots_groupSignedSlots slots]
  | .function _ _ body _ => simp only [groupSigned, plain, plain_groupSigned body]
  | .block body _ => simp only [groupSigned, plain, plainAll_groupSignedBody body]
  | .statement inner _ => simp only [groupSigned, plain, plain_groupSigned inner]
  | .assignment _ left right _ =>
    simp only [groupSigned, plain, plain_groupSigned left, plain_groupSigned right]
  | .binary _ left right _ =>
    simp only [groupSigned, plain, plain_groupSigned left, plain_groupSigned right]
  | .unary _ operand _ => simp only [groupSigned, plain, plain_groupSigned operand]
  | .call _ arguments _ => simp only [groupSigned, plain, plainAll_groupSignedAll arguments]

lemma plainAll_groupSignedBody (nodes : List Node) :
    plainAll (groupSignedBody nodes) = plainAll nodes := by
  match nodes with
  | [] => rfl
  | first :: rest =>
    rw [groupSignedBody, plainAll, plainAll, plain_groupSigned first, plainAll_groupSignedLater rest]

lemma plainAll_groupSignedLater (nodes : List Node) :
    plainAll (groupSignedLater nodes) = plainAll nodes := by
  match nodes with
  | [] => rfl
  | node :: rest =>
    rw [groupSignedLater, plainAll, plainAll, plainAll_groupSignedLater rest]
    split
    · rw [plain_groupInner, plain_groupSigned node]
    · rw [plain_groupSigned node]

lemma plainAll_groupSignedAll (nodes : List Node) :
    plainAll (groupSignedAll nodes) = plainAll nodes := by
  match nodes with
  | [] => rfl
  | node :: rest =>
    rw [groupSignedAll, plainAll, plainAll, plain_groupSigned node, plainAll_groupSignedAll rest]

lemma plainSlots_groupSignedSlots (slots : List (Option Node)) :
    plainSlots (groupSignedSlots slots) = plainSlots slots := by
  match slots with
  | [] => rfl
  | none :: rest => rw [groupSignedSlots, plainSlots, plainSlots, plainSlots_groupSignedSlots rest]
  | some node :: rest =>
    rw [groupSignedSlots, plainSlots, plainSlots, plain_groupSigned node,
      plainSlots_groupSignedSlots rest]

end

/-- A text between parentheses if it starts with a sign. -/
def parenthesiseSigned (text : String) : String :=
  if startsWithSign text then parenthesise text else text

lemma startsWithSign_parenthesise (text : String) : startsWithSign (parenthesise text) = false := by
  simp [startsWithSign, parenthesise]

/-- Statements are set apart by the parentheses of signed ones before anything else. -/
lemma separateAfter_congr {texts texts' : List String}
    (h : texts.map parenthesiseSigned = texts'.map parenthesiseSigned) (previous : String) :
    separateAfter previous texts = separateAfter previous texts' := by
  induction texts generalizing texts' previous with
  | nil =>
    rw [List.map_nil] at h
    rw [List.map_eq_nil_iff.mp h.symm]
  | cons text texts ih =>
    cases texts' with
    | nil => cases h
    | cons text' texts' =>
      obtain ⟨hhead, htail⟩ := List.cons.inj h
      unfold parenthesiseSigned at hhead
      rw [separateAfter, separateAfter, hhead, ih htail]

/-- The parentheses of a grouped node are the outermost part of its text. -/
lemma print_eq_wrap (node : Node) : node.print = wrap node.grouped (node.withGrouped false).print := by
  cases node with
  | function _ _ body _ => cases body <;> rfl
  | _ => rfl

lemma print_withGrouped_of_startsWithSign {node : Node} (h : startsWithSign node.print = true) :
    (node.withGrouped true).print = parenthesise node.print := by
  have hgrouped : node.grouped = false := by
    by_contra hgrouped
    rw [Bool.not_eq_false] at hgrouped
    rw [print_eq_wrap, hgrouped, wrap, if_pos rfl, startsWithSign_parenthesise] at h
    cases h
  rw [print_eq_wrap, grouped_withGrouped, withGrouped_withGrouped, withGrouped_grouped hgrouped]
  rfl

lemma parenthesiseSigned_print_groupInner {node : Node} (h : startsWithSign node.print = true) :
    parenthesiseSigned node.groupInner.print = parenthesiseSigned node.print := by
  cases node with
  | statement inner g =>
    cases g with
    | false =>
      have hinner : startsWithSign inner.print = true := h
      have hprint : (groupInner (.statement inner)).print = parenthesise inner.print :=
        print_withGrouped_of_startsWithSign hinner
      have hprint' : (Node.statement inner).print = inner.print := rfl
      rw [hprint, hprint', parenthesiseSigned, parenthesiseSigned, startsWithSign_parenthesise,
        if_pos hinner]
      rfl
    | true =>
      have hwrapped : (Node.statement inner true).print = parenthesise inner.print := rfl
      rw [hwrapped, startsWithSign_parenthesise] at h
      cases h
  | _ => rfl

mutual

/-- Grouping statements leaves the printed text as it is. -/
theorem print_groupSigned (node : Node) : node.groupSigned.print = node.print := by
  match node with
  | .identifier .. | .literal .. => rfl
  | .array slots _ => simp only [groupSigned, print, printSlots_groupSignedSlots slots]
  | .function _ _ body _ =>
    have hprint := print_groupSigned body
    cases body with
    | block body k => simp only [groupSigned, print, joinStatements_groupSignedBody body]
    | _ => simp only [groupSigned, print] at hprint ⊢ <;> rw [hprint]
  | .block body _ => simp only [groupSigned, print, joinStatements_groupSignedBody body]
  | .statement inner _ => simp only [groupSigned, print, print_groupSigned inner]
  | .assignment _ left right _ =>
    simp only [groupSigned, print, print_groupSigned left, print_groupSigned right]
  | .binary _ left right _ =>
    simp only [groupSigned, print, print_groupSigned left, print_groupSigned right]
  | .unary _ operand _ => simp only [groupSigned, print, print_groupSigned operand]
  | .call _ arguments _ => simp only [groupSigned, print, printAll_groupSignedAll arguments]

lemma joinStatements_groupSignedBody (nodes : List Node) :
    joinStatements (printAll (groupSignedBody nodes)) = joinStatements (printAll nodes) := by
  match nodes with
  | [] => rfl
  | first :: rest =>
    have hlater := separateAfter_congr (printAll_groupSignedLater rest) first.print
    rw [joinStatements, joinStatements, groupSignedBody, printAll, printAll, print_groupSigned first,
      separate, separate, hlater]

lemma printAll_groupSignedLater (nodes : List Node) :
    (printAll (groupSignedLater nodes)).map parenthesiseSigned =
      (printAll nodes).map parenthesiseSigned := by
  match nodes with
  | [] => rfl
  | node :: rest =>
    have hnode := print_groupSigned node
    have hrest := printAll_groupSignedLater rest
    rw [groupSignedLater, printAll, printAll, List.map_cons, List.map_cons, hrest]
    split
    · next hsign =>
      rw [← hnode] at hsign
      rw [parenthesiseSigned_print_groupInner hsign, hnode]
    · rw [hnode]

lemma printAll_groupSignedAll (nodes : List Node) :
    printAll (groupSignedAll nodes) = printAll nodes := by
  match nodes with
  | [] => rfl
  | node :: rest =>
    rw [groupSignedAll, printAll, printAll, print_groupSigned node, printAll_groupSignedAll rest]

lemma printSlots_groupSignedSlots (slots : List (Option Node)) :
    printSlots (groupSignedSlots slots) = printSlots slots := by
  match slots with
  | [] => rfl
  | none :: rest => rw [groupSignedSlots, printSlots, printSlots, printSlots_groupSignedSlots rest]
  | some node :: rest =>
    rw [groupSignedSlots, printSlots, printSlots, print_groupSigned node,
      printSlots_groupSignedSlots rest]

end

end ScriptConsole.Node
