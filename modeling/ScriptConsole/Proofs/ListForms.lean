import Mathlib
import ScriptConsole.Proofs.RegularTrees

/-!
# The form of argument and parameter lists

`Token.lists` follows the brackets of a token sequence and notes the items and the commas of every
list of arguments or parameters, at any nesting. `Node.listLengths` gives the lengths of these lists
in a tree. `lists_but_for_last_comma` compares the two for every text that is parsed: the items of a
list have one comma between them, and behind the last one there may be one more, which the grammar
does not provide for.
-/

namespace ScriptConsole

namespace Token

/-- What a list in parentheses is made up of. -/
inductive Mark
  | item
  | comma
deriving DecidableEq

/-- A bracket or a block that is open, with the marks that have come in it so far. -/
structure Frame where
  /-- Whether it is a list of arguments or parameters. -/
  isList : Bool
  marks : List Mark

/-- How far the brackets of a token sequence have been followed. -/
structure Outline where
  /-- The last token is a name or the keyword of a function: a parenthesis behind it opens a
  list. -/
  afterName : Bool := false
  /-- What is open, innermost first. -/
  frames : List Frame := []
  /-- The lists that have been closed, in the order of their closing parentheses. -/
  lists : List (List Mark) := []

/-- Goes on with an item or starts one. -/
def Frame.fill (frame : Frame) : Frame :=
  if frame.marks.getLast? = some .item then frame
  else { frame with marks := frame.marks ++ [.item] }

def Frame.separate (frame : Frame) : Frame :=
  { frame with marks := frame.marks ++ [.comma] }

namespace Outline

/-- Any token but a comma and a closing bracket is part of an item. -/
def fill (outline : Outline) (afterName : Bool) : Outline :=
  { outline with afterName, frames := outline.frames.modifyHead Frame.fill }

def enter (outline : Outline) (isList : Bool) : Outline :=
  { outline.fill false with frames := ⟨isList, []⟩ :: (outline.fill false).frames }

def leave (outline : Outline) : Outline :=
  match outline.frames with
  | [] => { outline with afterName := false }
  | frame :: frames =>
    { afterName := false, frames,
      lists := if frame.isList then outline.lists ++ [frame.marks] else outline.lists }

/-- What a token does to the outline of those before it. -/
def advance (outline : Outline) (token : Token) : Outline :=
  match token.kind with
  | .leftParen => outline.enter outline.afterName
  | .leftBracket | .keywordDo => outline.enter false
  | .keywordFunction => { outline.enter false with afterName := true }
  | .rightParen | .rightBracket | .keywordEnd => outline.leave
  | .comma =>
    { outline with afterName := false, frames := outline.frames.modifyHead Frame.separate }
  | .identifier => outline.fill true
  | .number | .string | .operator | .dot | .dotDot | .keywordTrue | .keywordFalse =>
    outline.fill false

end Outline

/-- The lists of arguments and parameters in a token sequence. -/
def lists (tokens : List Token) : List (List Mark) :=
  (tokens.foldl Outline.advance {}).lists

/-- The form that the grammar gives to a list: a comma between any two items. -/
def documented (n : Nat) : List Mark :=
  [Mark.comma].intercalate (List.replicate n [.item])

example : documented 3 = [.item, .comma, .item, .comma, .item] := by decide

/-- The forms of a list that are read: one comma may follow the last item. -/
def ListForm (n : Nat) (marks : List Mark) : Prop :=
  marks = documented n ∨ 0 < n ∧ marks = documented n ++ [.comma]

end Token

namespace Node

mutual

/-- How many arguments or parameters the calls and functions of a tree have, in the order in which
their lists are closed. -/
def listLengths : Node → List Nat
  | .identifier .. | .literal .. => []
  | .array slots _ => listLengthsSlots slots
  | .function _ params body _ => params.length :: listLengths body
  | .block body _ => listLengthsAll body
  | .statement inner _ => listLengths inner
  | .assignment _ left right _ => listLengths left ++ listLengths right
  | .binary _ left right _ => listLengths left ++ listLengths right
  | .unary _ operand _ => listLengths operand
  | .call _ arguments _ => listLengthsAll arguments ++ [arguments.length]

def listLengthsAll : List Node → List Nat
  | [] => []
  | node :: rest => listLengths node ++ listLengthsAll rest

def listLengthsSlots : List (Option Node) → List Nat
  | [] => []
  | none :: rest => listLengthsSlots rest
  | some node :: rest => listLengths node ++ listLengthsSlots rest

end

lemma listLengths_withGrouped (node : Node) (g : Bool) :
    (node.withGrouped g).listLengths = node.listLengths := by
  cases node <;> rfl

end Node

namespace Token

lemma documented_cons {n : Nat} (h : 0 < n) :
    documented (n + 1) = .item :: .comma :: documented n := by
  obtain ⟨k, rfl⟩ := Nat.exists_eq_add_one_of_ne_zero (Nat.ne_of_gt h)
  rw [documented, List.replicate_succ, List.replicate_succ, List.intercalate_cons_cons,
    ← List.replicate_succ]
  rfl

lemma documented_ne_nil {n : Nat} (h : 0 < n) : documented n ≠ [] := by
  obtain ⟨k, rfl⟩ := Nat.exists_eq_add_one_of_ne_zero (Nat.ne_of_gt h)
  obtain rfl | hk := Nat.eq_zero_or_pos k
  · decide
  · rw [documented_cons hk]
    exact List.cons_ne_nil _ _

lemma getLast?_documented (n : Nat) : (documented n).getLast? ≠ some .comma := by
  induction n with
  | zero => decide
  | succ n ih =>
    obtain rfl | hpos := Nat.eq_zero_or_pos n
    · decide
    · rwa [documented_cons hpos, List.getLast?_cons_of_ne_nil (List.cons_ne_nil _ _),
        List.getLast?_cons_of_ne_nil (documented_ne_nil hpos)]

lemma ListForm.cons {n : Nat} {marks : List Mark} (h : ListForm n marks) :
    ListForm (n + 1) (.item :: .comma :: marks) := by
  obtain rfl | hpos := Nat.eq_zero_or_pos n
  · obtain rfl | ⟨hfalse, -⟩ := h
    · exact .inr ⟨Nat.one_pos, rfl⟩
    · exact absurd hfalse (Nat.lt_irrefl 0)
  · unfold ListForm
    rw [documented_cons hpos]
    obtain rfl | ⟨-, rfl⟩ := h
    · exact .inl rfl
    · exact .inr ⟨Nat.succ_pos n, rfl⟩

/-- A list has the form of the grammar exactly if no comma stands in front of its closing
parenthesis. -/
lemma ListForm.documented_iff {n : Nat} {marks : List Mark} (h : ListForm n marks) :
    marks = documented n ↔ marks.getLast? ≠ some .comma := by
  constructor
  · rintro rfl
    exact getLast?_documented n
  · intro hlast
    obtain rfl | ⟨-, rfl⟩ := h
    · rfl
    · exact absurd List.getLast?_concat hlast

lemma forall₂_documented_iff {lengths : List Nat} {found : List (List Mark)}
    (h : List.Forall₂ ListForm lengths found) :
    List.Forall₂ (fun n marks => marks = documented n) lengths found ↔
      ∀ marks ∈ found, marks.getLast? ≠ some .comma := by
  induction h with
  | nil => simp
  | cons hform _ ih => rw [List.forall₂_cons, List.forall_mem_cons, ih, hform.documented_iff]

lemma Frame.fill_fill (frame : Frame) : frame.fill.fill = frame.fill := by
  unfold Frame.fill
  by_cases h : frame.marks.getLast? = some .item <;> simp [h]

@[simp]
lemma modifyHead_fill_fill (frames : List Frame) :
    (frames.modifyHead Frame.fill).modifyHead Frame.fill = frames.modifyHead Frame.fill := by
  cases frames with
  | nil => rfl
  | cons frame frames => simp [Frame.fill_fill]

lemma Frame.fill_of_ne {isList : Bool} {marks : List Mark} (h : marks.getLast? ≠ some .item) :
    Frame.fill ⟨isList, marks⟩ = ⟨isList, marks ++ [.item]⟩ :=
  if_neg h

section

open Outline (advance)

/-! What each kind of token does to an outline. -/

variable {token : Token} {name : Bool} {frames : List Frame} {noted : List (List Mark)}

lemma advance_value (h : token.kind ∈ [.number, .string, .operator, .keywordTrue, .keywordFalse]) :
    advance ⟨name, frames, noted⟩ token = ⟨false, frames.modifyHead Frame.fill, noted⟩ := by
  simp only [List.mem_cons, List.not_mem_nil, or_false] at h
  unfold advance
  rcases h with h | h | h | h | h <;> rw [h] <;> rfl

lemma advance_name (h : token.kind = .identifier) :
    advance ⟨name, frames, noted⟩ token = ⟨true, frames.modifyHead Frame.fill, noted⟩ := by
  unfold advance
  rw [h]
  rfl

lemma advance_paren (h : token.kind = .leftParen) :
    advance ⟨name, frames, noted⟩ token =
      ⟨false, ⟨name, []⟩ :: frames.modifyHead Frame.fill, noted⟩ := by
  unfold advance
  rw [h]
  rfl

lemma advance_open (h : token.kind = .leftBracket ∨ token.kind = .keywordDo) :
    advance ⟨name, frames, noted⟩ token =
      ⟨false, ⟨false, []⟩ :: frames.modifyHead Frame.fill, noted⟩ := by
  unfold advance
  rcases h with h | h <;> rw [h] <;> rfl

lemma advance_function (h : token.kind = .keywordFunction) :
    advance ⟨name, frames, noted⟩ token =
      ⟨true, ⟨false, []⟩ :: frames.modifyHead Frame.fill, noted⟩ := by
  unfold advance
  rw [h]
  rfl

lemma advance_comma {isList : Bool} {marks : List Mark} (h : token.kind = .comma) :
    advance ⟨name, ⟨isList, marks⟩ :: frames, noted⟩ token =
      ⟨false, ⟨isList, marks ++ [.comma]⟩ :: frames, noted⟩ := by
  unfold advance
  rw [h]
  rfl

lemma advance_close {isList : Bool} {marks : List Mark}
    (h : token.kind = .rightParen ∨ token.kind = .rightBracket ∨ token.kind = .keywordEnd) :
    advance ⟨name, ⟨isList, marks⟩ :: frames, noted⟩ token =
      ⟨false, frames, if isList then noted ++ [marks] else noted⟩ := by
  unfold advance
  rcases h with h | h | h <;> rw [h] <;> rfl

end

end Token

namespace Parser

open Token (Frame Mark ListForm)
open Token.Outline (advance)

/-- No parenthesis opens a list here, whether or not a name stands before. -/
def Unopened (name : Bool) (tokens : List Token) : Prop :=
  name = true → Ahead (·.kind ≠ .leftParen) tokens

lemma unopened_false (tokens : List Token) : Unopened false tokens :=
  nofun

/-- The tokens in front of `rest` are one item or part of one, and hold lists of these lengths. -/
def Passes (lengths : List Nat) (tokens rest : List Token) : Prop :=
  ∀ name frames noted, Unopened name tokens →
    ∃ name' new, List.Forall₂ ListForm lengths new ∧ Unopened name' rest ∧
      tokens.foldl advance ⟨name, frames, noted⟩ =
        rest.foldl advance ⟨name', frames.modifyHead Frame.fill, noted ++ new⟩

/-- The tokens in front of `rest` close a bracket or a block, and hold lists of these lengths. -/
def Closes (lengths : List Nat) (tokens rest : List Token) : Prop :=
  ∀ name marks frames noted, Unopened name tokens →
    ∃ new, List.Forall₂ ListForm lengths new ∧
      tokens.foldl advance ⟨name, ⟨false, marks⟩ :: frames, noted⟩ =
        rest.foldl advance ⟨false, frames, noted ++ new⟩

/-- The tokens in front of `rest` close a list behind `n` more items, and hold lists of these
lengths. -/
def ClosesList (lengths : List Nat) (n : Nat) (tokens rest : List Token) : Prop :=
  ∀ marks frames noted, marks.getLast? ≠ some .item →
    ∃ new more, List.Forall₂ ListForm lengths new ∧ ListForm n more ∧
      tokens.foldl advance ⟨false, ⟨true, marks⟩ :: frames, noted⟩ =
        rest.foldl advance ⟨false, frames, noted ++ new ++ [marks ++ more]⟩

/-- The tokens in front of `rest`, behind the keyword of a function, are its head with `n`
parameters. -/
def Heads (n : Nat) (tokens rest : List Token) : Prop :=
  ∀ frames noted, ∃ marks, ListForm n marks ∧
    tokens.foldl advance ⟨true, frames, noted⟩ =
      rest.foldl advance ⟨false, frames.modifyHead Frame.fill, noted ++ [marks]⟩

section

variable {token : Token} {lengths lengths' : List Nat} {tokens middle rest : List Token} {n : Nat}

lemma Passes.append (h : Passes lengths tokens middle) (h' : Passes lengths' middle rest) :
    Passes (lengths ++ lengths') tokens rest := by
  intro name frames noted hname
  obtain ⟨name', new, hnew, hname', hrun⟩ := h name frames noted hname
  obtain ⟨name'', new', hnew', hname'', hrun'⟩ :=
    h' name' (frames.modifyHead Frame.fill) (noted ++ new) hname'
  refine ⟨name'', new ++ new', List.rel_append hnew hnew', hname'', ?_⟩
  rw [hrun, hrun', Token.modifyHead_fill_fill, List.append_assoc]

lemma passes_value
    (h : token.kind ∈ [.number, .string, .operator, .keywordTrue, .keywordFalse])
    (rest : List Token) : Passes [] (token :: rest) rest := by
  intro name frames noted _
  refine ⟨false, [], .nil, unopened_false rest, ?_⟩
  rw [List.foldl_cons, Token.advance_value h, List.append_nil]

lemma passes_name (h : token.kind = .identifier) (hstop : Ahead (·.kind ≠ .leftParen) rest) :
    Passes [] (token :: rest) rest := by
  intro name frames noted _
  refine ⟨true, [], .nil, fun _ => hstop, ?_⟩
  rw [List.foldl_cons, Token.advance_name h, List.append_nil]

/-- An operator in front of an operand belongs to the same item. -/
lemma Passes.operator (h : Passes lengths tokens rest) (hop : token.kind = .operator) :
    Passes lengths (token :: tokens) rest :=
  (passes_value (by simp [hop]) tokens).append h

lemma Closes.passes (h : Closes lengths tokens rest)
    (hopen : token.kind = .leftBracket ∨ token.kind = .keywordDo) :
    Passes lengths (token :: tokens) rest := by
  intro name frames noted _
  obtain ⟨new, hnew, hrun⟩ :=
    h false [] (frames.modifyHead Frame.fill) noted (unopened_false tokens)
  refine ⟨false, new, hnew, unopened_false rest, ?_⟩
  rw [List.foldl_cons, Token.advance_open hopen, hrun]

lemma closes_nil (hclose : token.kind = .rightBracket ∨ token.kind = .keywordEnd)
    (rest : List Token) : Closes [] (token :: rest) rest := by
  intro name marks frames noted _
  refine ⟨[], .nil, ?_⟩
  rw [List.foldl_cons, Token.advance_close (.inr hclose), List.append_nil]
  rfl

lemma Passes.closes (h : Passes lengths tokens middle) (h' : Closes lengths' middle rest) :
    Closes (lengths ++ lengths') tokens rest := by
  intro name marks frames noted hname
  obtain ⟨name', new, hnew, hname', hrun⟩ := h name (⟨false, marks⟩ :: frames) noted hname
  have hfill : ∃ marks', Frame.fill ⟨false, marks⟩ = ⟨false, marks'⟩ := by
    unfold Frame.fill
    split
    · exact ⟨_, rfl⟩
    · exact ⟨_, rfl⟩
  obtain ⟨marks', hfill⟩ := hfill
  obtain ⟨new', hnew', hrun'⟩ := h' name' marks' frames (noted ++ new) hname'
  refine ⟨new ++ new', List.rel_append hnew hnew', ?_⟩
  rw [hrun, List.modifyHead_cons, hfill, hrun', List.append_assoc]

lemma Closes.comma (h : Closes lengths tokens rest) (hcomma : token.kind = .comma) :
    Closes lengths (token :: tokens) rest := by
  intro name marks frames noted _
  have hrest := h false (marks ++ [.comma]) frames noted (unopened_false tokens)
  rwa [List.foldl_cons, Token.advance_comma hcomma]

lemma closesList_nil (hclose : token.kind = .rightParen) (rest : List Token) :
    ClosesList [] 0 (token :: rest) rest := by
  intro marks frames noted _
  refine ⟨[], [], .nil, .inl rfl, ?_⟩
  rw [List.foldl_cons, Token.advance_close (.inl hclose), List.append_nil, List.append_nil]
  rfl

lemma Passes.closesList (h : Passes lengths tokens (token :: middle)) (hcomma : token.kind = .comma)
    (h' : ClosesList lengths' n middle rest) :
    ClosesList (lengths ++ lengths') (n + 1) tokens rest := by
  intro marks frames noted hmarks
  obtain ⟨name', new, hnew, -, hrun⟩ :=
    h false (⟨true, marks⟩ :: frames) noted (unopened_false tokens)
  obtain ⟨new', more, hnew', hmore, hrun'⟩ :=
    h' (marks ++ [.item] ++ [.comma]) frames (noted ++ new) (by simp)
  refine ⟨new ++ new', .item :: .comma :: more, List.rel_append hnew hnew', hmore.cons, ?_⟩
  rw [hrun, List.modifyHead_cons, Frame.fill_of_ne hmarks, List.foldl_cons,
    Token.advance_comma hcomma, hrun']
  simp only [List.append_assoc, List.cons_append, List.nil_append]

lemma Passes.closesList_last (h : Passes lengths tokens (token :: rest))
    (hclose : token.kind = .rightParen) : ClosesList lengths 1 tokens rest := by
  intro marks frames noted hmarks
  obtain ⟨name', new, hnew, -, hrun⟩ :=
    h false (⟨true, marks⟩ :: frames) noted (unopened_false tokens)
  refine ⟨new, [.item], hnew, .inl rfl, ?_⟩
  rw [hrun, List.modifyHead_cons, Frame.fill_of_ne hmarks, List.foldl_cons,
    Token.advance_close (.inl hclose)]
  rfl

/-- The parentheses of a group are no list. -/
lemma Passes.group {close : Token} (h : Passes lengths tokens (close :: rest))
    (hopen : token.kind = .leftParen) (hclose : close.kind = .rightParen) :
    Passes lengths (token :: tokens) rest := by
  intro name frames noted hname
  obtain rfl : name = false := by
    cases name with
    | false => rfl
    | true => exact absurd hopen (ahead_cons.mp (hname rfl))
  obtain ⟨name', new, hnew, -, hrun⟩ :=
    h false (⟨false, []⟩ :: frames.modifyHead Frame.fill) noted (unopened_false tokens)
  refine ⟨false, new, hnew, unopened_false rest, ?_⟩
  rw [List.foldl_cons, Token.advance_paren hopen, hrun, List.modifyHead_cons,
    Frame.fill_of_ne (by decide), List.foldl_cons, Token.advance_close (.inl hclose)]
  rfl

lemma ClosesList.heads (h : ClosesList [] n tokens rest) (hopen : token.kind = .leftParen) :
    Heads n (token :: tokens) rest := by
  intro frames noted
  obtain ⟨new, more, hnew, hmore, hrun⟩ := h [] (frames.modifyHead Frame.fill) noted (by decide)
  obtain rfl := List.forall₂_nil_left_iff.mp hnew
  refine ⟨more, hmore, ?_⟩
  rw [List.foldl_cons, Token.advance_paren hopen, hrun, List.append_nil]
  rfl

lemma Heads.named (h : Heads n tokens rest) (hname : token.kind = .identifier) :
    Heads n (token :: tokens) rest := by
  intro frames noted
  have hrest := h (frames.modifyHead Frame.fill) noted
  rw [Token.modifyHead_fill_fill] at hrest
  rwa [List.foldl_cons, Token.advance_name hname]

lemma Heads.passes (h : Heads n tokens middle) (h' : Closes lengths middle rest)
    (hkeyword : token.kind = .keywordFunction) : Passes (n :: lengths) (token :: tokens) rest := by
  intro name frames noted _
  obtain ⟨marks, hmarks, hrun⟩ := h (⟨false, []⟩ :: frames.modifyHead Frame.fill) noted
  obtain ⟨new, hnew, hrun'⟩ := h' false [.item] (frames.modifyHead Frame.fill) (noted ++ [marks])
    (unopened_false middle)
  refine ⟨false, marks :: new, .cons hmarks hnew, unopened_false rest, ?_⟩
  rw [List.foldl_cons, Token.advance_function hkeyword, hrun, List.modifyHead_cons,
    Frame.fill_of_ne (by decide)]
  exact hrun'.trans (by rw [List.append_assoc]; rfl)

lemma ClosesList.passes {next : Token} (h : ClosesList lengths n tokens rest)
    (hname : token.kind = .identifier) (hopen : next.kind = .leftParen) :
    Passes (lengths ++ [n]) (token :: next :: tokens) rest := by
  intro name frames noted _
  obtain ⟨new, more, hnew, hmore, hrun⟩ := h [] (frames.modifyHead Frame.fill) noted (by decide)
  refine ⟨false, new ++ [more], List.rel_append hnew (.cons hmore .nil), unopened_false rest, ?_⟩
  rw [List.foldl_cons, Token.advance_name hname, List.foldl_cons, Token.advance_paren hopen,
    Token.modifyHead_fill_fill, hrun, List.append_assoc]
  rfl

end

/-- What following the tokens of a phrase finds. The operators and operands that follow a first
operand go on with the item that the operand has started. -/
def Phrase.Outlined (tokens rest : List Token) : Phrase → Prop
  | .statement node | .expression node | .assignment node | .binary _ node | .operand _ node
  | .unary node | .primary node => Passes node.listLengths tokens rest
  | .statements body => Closes (Node.listLengthsAll body) tokens rest
  | .slots list => Closes (Node.listLengthsSlots list) tokens rest
  | .signature _ params => Heads params.length tokens rest
  | .parameters names => ClosesList [] names.length tokens rest
  | .chain _ left node =>
    ∀ before, Passes left.listLengths before tokens → Passes node.listLengths before rest
  | .arguments nodes => ClosesList (Node.listLengthsAll nodes) nodes.length tokens rest

/-- The lists found in the tokens of a phrase are those of the tree that is read off them. -/
theorem Reads.outlined {phrase : Phrase} {tokens rest : List Token} (h : Reads phrase tokens rest) :
    phrase.Outlined tokens rest := by
  induction h with
  | statementBlock hdo _ ih => exact ih.passes (.inr hdo)
  | statementExpression _ _ ih => exact ih
  | statementsEnd hend => exact closes_nil (.inr hend) _
  | statementsCons _ _ _ ihfirst ihbody => exact ihfirst.closes ihbody
  | expressionArray hopen _ ih => exact ih.passes (.inl hopen)
  | expressionFunction hkeyword _ _ ihsignature ihbody => exact ihsignature.passes ihbody hkeyword
  | expressionAssignment _ _ ih => exact ih
  | slotsEnd hclose => exact closes_nil (.inl hclose) _
  | slotsEmpty hcomma _ ih => exact ih.comma hcomma
  | slotsComma _ _ hcomma _ ihfirst ihslots => exact ihfirst.closes (ihslots.comma hcomma)
  | slotsLast _ _ hclose ihfirst => exact ihfirst.closes (closes_nil (.inl hclose) _)
  | signatureNameless hopen _ ih => exact ih.heads hopen
  | signatureNamed hname hopen _ ih => exact (ih.heads hopen).named hname
  | parametersEnd hclose => exact closesList_nil hclose _
  | parametersComma hname hcomma _ ih =>
    exact (passes_name hname (ahead_cons.mpr (by simp [hcomma]))).closesList hcomma ih
  | parametersLast hname hclose =>
    exact (passes_name hname (ahead_cons.mpr (by simp [hclose]))).closesList_last hclose
  | assignmentValue _ _ ih => exact ih
  | assignmentTo _ hshape hop _ _ ihleft ihright =>
    have hoperator := looksLikeAssignment_and_iff.mp ⟨hshape, hop⟩
    exact ihleft.append (ihright.operator hoperator.1)
  | binary _ _ ihleft ihchain => exact ihchain _ ihleft
  | chainEnd _ => exact fun _ hleft => hleft
  | chainCons hop _ _ ihright ihchain =>
    have hoperator := (operator?_eq_some_iff.mp hop).1
    exact fun before hleft => ihchain before (hleft.append (ihright.operator hoperator.1))
  | operandSum _ ih => exact ih
  | operandProduct _ ih => exact ih
  | unarySign hop _ ih => exact ih.operator (sign?_eq_some_iff.mp hop).1
  | unaryPrimary _ _ ih => exact ih
  | primaryNumber hkind _ | primaryString hkind | primaryTrue hkind | primaryFalse hkind =>
    refine passes_value ?_ _
    simp [hkind]
  | primaryGroup hopen _ hclose ih =>
    rw [Phrase.Outlined, Node.listLengths_withGrouped]
    exact ih.group hopen hclose
  | primaryBlock hdo _ ih => exact ih.passes (.inr hdo)
  | primaryCall hname hopen _ ih => exact ih.passes hname hopen
  | primaryName hname hstop => exact passes_name hname hstop
  | argumentsEnd hclose => exact closesList_nil hclose _
  | argumentsComma _ _ hcomma _ ihfirst iharguments => exact ihfirst.closesList hcomma iharguments
  | argumentsLast _ _ hclose ihfirst =>
    rw [Phrase.Outlined, Node.listLengthsAll, Node.listLengthsAll, List.append_nil]
    exact ihfirst.closesList_last hclose

end Parser

open Token (lists documented ListForm Mark)

/-- In every text that is parsed, the lists found by following its brackets are the argument and
parameter lists of the tree, one by one. A list of `n` items has a comma between any two of them
and, if it has items, maybe one more behind the last. All lists have the form of the grammar exactly
if none has a comma in front of its closing parenthesis. -/
theorem lists_but_for_last_comma {source : String} {node : Node}
    (h : parse source = .ok (some node)) :
    List.Forall₂ ListForm node.listLengths (lists (Token.scan source)) ∧
      (List.Forall₂ (fun n marks => marks = documented n) node.listLengths
          (lists (Token.scan source)) ↔
        ∀ marks ∈ lists (Token.scan source), marks.getLast? ≠ some .comma) := by
  have hreads := (Parser.parse_eq_some_iff.mp h).outlined
  obtain ⟨_, new, hforms, -, hrun⟩ := hreads false [] [] (Parser.unopened_false _)
  have hlists : lists (Token.scan source) = new := by
    rw [lists, hrun]
    rfl
  rw [hlists]
  exact ⟨hforms, Token.forall₂_documented_iff hforms⟩

/-- A list inside a list, with a comma behind its only item, and a list of parameters. -/
theorem lists_but_for_last_comma_nested :
    List.Forall₂ ListForm [1, 2, 2] (lists (Token.scan "f(g(1,), function (x, y) end)")) := by
  have hparse : parse "f(g(1,), function (x, y) end)" = .ok (some (.statement (.call "f"
      [.call "g" [.literal (.number .one)], .function none ["x", "y"] (.block [])]))) := by
    cbv
  exact (lists_but_for_last_comma hparse).1

/-- Arguments and parameters are read with a comma in front of the closing parenthesis, a form that
the grammar gives to no list. -/
theorem comma_before_closing_parenthesis :
    parse "f(1,)" = .ok (some (.statement (.call "f" [.literal (.number .one)]))) ∧
      parse "function (x,) end" = .ok (some (.statement (.function none ["x"] (.block [])))) ∧
      lists (Token.scan "f(1,)") = [[.item, .comma]] ∧
      lists (Token.scan "function (x,) end") = [[.item, .comma]] ∧
      ∀ n, [Mark.item, .comma] ≠ documented n := by
  refine ⟨by cbv, by cbv, by cbv, by cbv, fun n hform => ?_⟩
  have hlast := Token.getLast?_documented n
  rw [← hform] at hlast
  exact hlast rfl

end ScriptConsole
