import ScriptConsole.Proofs.Regrouping

/-!
# Empty slots at the end of arrays

An array is printed with a comma between its slots, but a comma behind a slot is read as its end. So
of empty slots at the end of an array one is lost when the array is printed and parsed again.
`Node.trimmed` is the tree without these slots. `Node.patterns` lists which slots of the arrays in a
tree are filled, so that slots of one tree can be compared with those of another.
-/

namespace ScriptConsole

/-- Slots without the last one if that is empty. -/
def dropEmpty {α : Type} (slots : List (Option α)) : List (Option α) :=
  match slots.getLast? with
  | some none => slots.dropLast
  | _ => slots

section

variable {α β : Type}

@[simp]
lemma dropEmpty_nil : dropEmpty ([] : List (Option α)) = [] := rfl

@[simp]
lemma dropEmpty_empty : dropEmpty [(none : Option α)] = [] := rfl

@[simp]
lemma dropEmpty_filled (a : α) : dropEmpty [some a] = [some a] := rfl

@[simp]
lemma dropEmpty_cons_cons (slot next : Option α) (slots : List (Option α)) :
    dropEmpty (slot :: next :: slots) = slot :: dropEmpty (next :: slots) := by
  unfold dropEmpty
  rw [List.getLast?_cons_cons]
  split <;> rfl

lemma dropEmpty_eq_self_iff {slots : List (Option α)} :
    dropEmpty slots = slots ↔ slots.getLast? ≠ some none := by
  unfold dropEmpty
  split
  · next hlast =>
    have hne : slots ≠ [] := by
      rintro rfl
      cases hlast
    have hshorter : slots.dropLast.length < slots.length := by
      have := List.length_pos_of_ne_nil hne
      rw [List.length_dropLast]
      omega
    constructor
    · intro heq
      rw [heq] at hshorter
      exact absurd hshorter (Nat.lt_irrefl _)
    · intro hfilled
      exact absurd hlast hfilled
  · next hlast => exact ⟨fun _ => hlast, fun _ => rfl⟩

lemma dropEmpty_map (f : α → β) (slots : List (Option α)) :
    dropEmpty (slots.map (Option.map f)) = (dropEmpty slots).map (Option.map f) := by
  induction slots with
  | nil => rfl
  | cons slot slots ih =>
    cases slots with
    | nil => cases slot <;> rfl
    | cons next slots =>
      rw [dropEmpty_cons_cons, List.map_cons, List.map_cons, dropEmpty_cons_cons, ← List.map_cons,
        ih, List.map_cons]

end

namespace Node

/-- The last slot of an array is not empty. -/
def EndsFilled : Node → Prop
  | .array slots _ => slots.getLast? ≠ some none
  | _ => True

mutual

/-- The tree without the empty slots that stand last in its arrays. -/
def trimmed : Node → Node
  | .identifier name g => .identifier name g
  | .literal value g => .literal value g
  | .array slots g => .array (dropEmpty (trimmedSlots slots)) g
  | .function name params body g => .function name params (trimmed body) g
  | .block body g => .block (trimmedAll body) g
  | .statement inner g => .statement (trimmed inner) g
  | .assignment op left right g => .assignment op (trimmed left) (trimmed right) g
  | .binary op left right g => .binary op (trimmed left) (trimmed right) g
  | .unary op operand g => .unary op (trimmed operand) g
  | .call callee arguments g => .call callee (trimmedAll arguments) g

def trimmedAll : List Node → List Node
  | [] => []
  | node :: rest => trimmed node :: trimmedAll rest

def trimmedSlots : List (Option Node) → List (Option Node)
  | [] => []
  | none :: rest => none :: trimmedSlots rest
  | some node :: rest => some (trimmed node) :: trimmedSlots rest

end

/-- Which slots are filled. -/
def pattern (slots : List (Option Node)) : List (Option Unit) :=
  slots.map (Option.map fun _ => ())

mutual

/-- Which slots are filled in the arrays of a tree, one array after the other in the order of their
opening brackets. -/
def patterns : Node → List (List (Option Unit))
  | .identifier .. | .literal .. => []
  | .array slots _ => pattern slots :: patternsSlots slots
  | .function _ _ body _ => patterns body
  | .block body _ => patternsAll body
  | .statement inner _ => patterns inner
  | .assignment _ left right _ => patterns left ++ patterns right
  | .binary _ left right _ => patterns left ++ patterns right
  | .unary _ operand _ => patterns operand
  | .call _ arguments _ => patternsAll arguments

def patternsAll : List Node → List (List (Option Unit))
  | [] => []
  | node :: rest => patterns node ++ patternsAll rest

def patternsSlots : List (Option Node) → List (List (Option Unit))
  | [] => []
  | none :: rest => patternsSlots rest
  | some node :: rest => patterns node ++ patternsSlots rest

end

lemma trimmed_withGrouped (node : Node) (g : Bool) :
    (node.withGrouped g).trimmed = node.trimmed.withGrouped g := by
  cases node <;> rfl

lemma pattern_trimmedSlots (slots : List (Option Node)) :
    pattern (trimmedSlots slots) = pattern slots := by
  induction slots with
  | nil => rfl
  | cons slot slots ih => cases slot <;> exact congrArg (List.cons _) ih

lemma patternsSlots_dropEmpty (slots : List (Option Node)) :
    patternsSlots (dropEmpty slots) = patternsSlots slots := by
  induction slots with
  | nil => rfl
  | cons slot slots ih =>
    cases slots with
    | nil => cases slot <;> rfl
    | cons next slots =>
      rw [dropEmpty_cons_cons]
      cases slot with
      | none => exact ih
      | some node => rw [patternsSlots, patternsSlots, ih]

mutual

/-- Trimming takes the last slot of an array away if it is empty, and changes no other slot. -/
lemma patterns_trimmed (node : Node) : node.trimmed.patterns = node.patterns.map dropEmpty := by
  match node with
  | .identifier .. | .literal .. => rfl
  | .array slots _ =>
    rw [trimmed, patterns, patterns, List.map_cons, patternsSlots_dropEmpty,
      patternsSlots_trimmedSlots slots]
    unfold pattern
    rw [← dropEmpty_map]
    exact congrArg (dropEmpty · :: _) (pattern_trimmedSlots slots)
  | .function _ _ inner _ | .statement inner _ | .unary _ inner _ => exact patterns_trimmed inner
  | .block nodes _ | .call _ nodes _ => exact patternsAll_trimmedAll nodes
  | .assignment _ left right _ | .binary _ left right _ =>
    simp only [trimmed, patterns, patterns_trimmed left, patterns_trimmed right, List.map_append]

lemma patternsAll_trimmedAll (nodes : List Node) :
    patternsAll (trimmedAll nodes) = (patternsAll nodes).map dropEmpty := by
  match nodes with
  | [] => rfl
  | node :: rest =>
    rw [trimmedAll, patternsAll, patternsAll, patterns_trimmed node, patternsAll_trimmedAll rest,
      List.map_append]

lemma patternsSlots_trimmedSlots (slots : List (Option Node)) :
    patternsSlots (trimmedSlots slots) = (patternsSlots slots).map dropEmpty := by
  match slots with
  | [] => rfl
  | none :: rest => exact patternsSlots_trimmedSlots rest
  | some node :: rest =>
    rw [trimmedSlots, patternsSlots, patternsSlots, patterns_trimmed node,
      patternsSlots_trimmedSlots rest, List.map_append]

end

mutual

/-- Marks of parentheses have no influence on slots. -/
lemma patterns_plain (node : Node) : node.plain.patterns = node.patterns := by
  match node with
  | .identifier .. | .literal .. => rfl
  | .array slots _ =>
    have hpattern : pattern (plainSlots slots) = pattern slots := by
      clear * -
      induction slots with
      | nil => rfl
      | cons slot slots ih => cases slot <;> exact congrArg (List.cons _) ih
    rw [plain, patterns, patterns, hpattern, patternsSlots_plainSlots slots]
  | .function _ _ inner _ | .statement inner _ | .unary _ inner _ => exact patterns_plain inner
  | .block nodes _ | .call _ nodes _ => exact patternsAll_plainAll nodes
  | .assignment _ left right _ | .binary _ left right _ =>
    simp only [plain, patterns, patterns_plain left, patterns_plain right]

lemma patternsAll_plainAll (nodes : List Node) : patternsAll (plainAll nodes) = patternsAll nodes := by
  match nodes with
  | [] => rfl
  | node :: rest =>
    rw [plainAll, patternsAll, patternsAll, patterns_plain node, patternsAll_plainAll rest]

lemma patternsSlots_plainSlots (slots : List (Option Node)) :
    patternsSlots (plainSlots slots) = patternsSlots slots := by
  match slots with
  | [] => rfl
  | none :: rest => exact patternsSlots_plainSlots rest
  | some node :: rest =>
    rw [plainSlots, patternsSlots, patternsSlots, patterns_plain node, patternsSlots_plainSlots rest]

end

lemma patterns_groupSigned (node : Node) : node.groupSigned.patterns = node.patterns := by
  rw [← patterns_plain, plain_groupSigned, patterns_plain]

lemma getLast?_pattern_ne_iff {slots : List (Option Node)} :
    (pattern slots).getLast? ≠ some none ↔ slots.getLast? ≠ some none := by
  rw [pattern, List.getLast?_map]
  cases slots.getLast? with
  | none => simp
  | some slot => cases slot <;> simp

mutual

lemma all_endsFilled_iff (node : Node) :
    node.All EndsFilled ↔ ∀ slots ∈ node.patterns, slots.getLast? ≠ some none := by
  match node with
  | .identifier .. | .literal .. => exact ⟨fun _ => List.forall_mem_nil _, fun _ => trivial⟩
  | .array slots _ =>
    rw [All, EndsFilled, patterns, List.forall_mem_cons, getLast?_pattern_ne_iff,
      allSlots_endsFilled_iff slots]
  | .function _ _ inner _ | .statement inner _ | .unary _ inner _ =>
    exact (and_iff_right trivial).trans (all_endsFilled_iff inner)
  | .block nodes _ | .call _ nodes _ =>
    exact (and_iff_right trivial).trans (allIn_endsFilled_iff nodes)
  | .assignment _ left right _ | .binary _ left right _ =>
    rw [All, patterns, List.forall_mem_append, all_endsFilled_iff left, all_endsFilled_iff right]
    exact and_iff_right trivial

lemma allIn_endsFilled_iff (nodes : List Node) :
    AllIn EndsFilled nodes ↔ ∀ slots ∈ patternsAll nodes, slots.getLast? ≠ some none := by
  match nodes with
  | [] => exact ⟨fun _ => List.forall_mem_nil _, fun _ => trivial⟩
  | node :: rest =>
    rw [AllIn, patternsAll, List.forall_mem_append, all_endsFilled_iff node,
      allIn_endsFilled_iff rest]

lemma allSlots_endsFilled_iff (slots : List (Option Node)) :
    AllSlots EndsFilled slots ↔ ∀ inner ∈ patternsSlots slots, inner.getLast? ≠ some none := by
  match slots with
  | [] => exact ⟨fun _ => List.forall_mem_nil _, fun _ => trivial⟩
  | none :: rest => exact allSlots_endsFilled_iff rest
  | some node :: rest =>
    rw [AllSlots, patternsSlots, List.forall_mem_append, all_endsFilled_iff node,
      allSlots_endsFilled_iff rest]

end

mutual

/-- Nothing is trimmed if no array ends with an empty slot. -/
lemma trimmed_eq_self (node : Node) (h : node.All EndsFilled) : node.trimmed = node := by
  match node, h with
  | .identifier .., _ | .literal .., _ => rfl
  | .array slots _, h =>
    rw [trimmed, trimmedSlots_eq_self slots h.2, dropEmpty_eq_self_iff.mpr h.1]
  | .function _ _ inner _, h | .statement inner _, h | .unary _ inner _, h =>
    rw [trimmed, trimmed_eq_self inner h.2]
  | .block nodes _, h | .call _ nodes _, h => rw [trimmed, trimmedAll_eq_self nodes h.2]
  | .assignment _ left right _, h | .binary _ left right _, h =>
    rw [trimmed, trimmed_eq_self left h.2.1, trimmed_eq_self right h.2.2]

lemma trimmedAll_eq_self (nodes : List Node) (h : AllIn EndsFilled nodes) :
    trimmedAll nodes = nodes := by
  match nodes, h with
  | [], _ => rfl
  | node :: rest, h => rw [trimmedAll, trimmed_eq_self node h.1, trimmedAll_eq_self rest h.2]

lemma trimmedSlots_eq_self (slots : List (Option Node)) (h : AllSlots EndsFilled slots) :
    trimmedSlots slots = slots := by
  match slots, h with
  | [], _ => rfl
  | none :: rest, h => rw [trimmedSlots, trimmedSlots_eq_self rest h]
  | some node :: rest, h =>
    rw [trimmedSlots, trimmed_eq_self node h.1, trimmedSlots_eq_self rest h.2]

end

lemma trimmed_groupSigned_of_filled {node : Node} (h : node.All EndsFilled) :
    node.groupSigned.trimmed = node.groupSigned := by
  rw [all_endsFilled_iff, ← patterns_groupSigned, ← all_endsFilled_iff] at h
  exact trimmed_eq_self _ h

end Node

end ScriptConsole
