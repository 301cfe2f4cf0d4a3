import Mathlib
import ScriptConsole.Proofs.Grammar
import ScriptConsole.Proofs.Lexemes

/-!
# Regular trees

A tree that was parsed is regular at every node: operands bind tightly enough to be written without
parentheses, targets of assignments can be assigned to, names are names, and so on. All of this is
read off the derivation of the tree in the grammar (`Derives.regular`).
-/

namespace ScriptConsole

/-- How tightly the operators of a level bind. -/
def Parser.Level.tightness : Level → Nat
  | .sum => 1
  | .product => 2

namespace Node

mutual

/-- A property holds of every node of a tree. -/
def All (p : Node → Prop) : Node → Prop
  | .identifier name g => p (.identifier name g)
  | .literal value g => p (.literal value g)
  | .array slots g => p (.array slots g) ∧ AllSlots p slots
  | .function name params body g => p (.function name params body g) ∧ All p body
  | .block body g => p (.block body g) ∧ AllIn p body
  | .statement inner g => p (.statement inner g) ∧ All p inner
  | .assignment op left right g => p (.assignment op left right g) ∧ All p left ∧ All p right
  | .binary op left right g => p (.binary op left right g) ∧ All p left ∧ All p right
  | .unary op operand g => p (.unary op operand g) ∧ All p operand
  | .call callee arguments g => p (.call callee arguments g) ∧ AllIn p arguments

def AllIn (p : Node → Prop) : List Node → Prop
  | [] => True
  | node :: rest => All p node ∧ AllIn p rest

def AllSlots (p : Node → Prop) : List (Option Node) → Prop
  | [] => True
  | none :: rest => AllSlots p rest
  | some node :: rest => All p node ∧ AllSlots p rest

end

section

variable {p q r : Node → Prop}

mutual

/-- Two properties that hold of every node hold together at every node. -/
lemma all_imp₂ (h : ∀ node, p node → q node → r node) (node : Node) (hp : node.All p)
    (hq : node.All q) : node.All r := by
  match node, hp, hq with
  | .identifier .., hp, hq | .literal .., hp, hq => exact h _ hp hq
  | .array slots _, hp, hq => exact ⟨h _ hp.1 hq.1, allSlots_imp₂ h slots hp.2 hq.2⟩
  | .function _ _ inner _, hp, hq | .statement inner _, hp, hq | .unary _ inner _, hp, hq =>
    exact ⟨h _ hp.1 hq.1, all_imp₂ h inner hp.2 hq.2⟩
  | .block nodes _, hp, hq | .call _ nodes _, hp, hq =>
    exact ⟨h _ hp.1 hq.1, allIn_imp₂ h nodes hp.2 hq.2⟩
  | .assignment _ left right _, hp, hq | .binary _ left right _, hp, hq =>
    exact ⟨h _ hp.1 hq.1, all_imp₂ h left hp.2.1 hq.2.1, all_imp₂ h right hp.2.2 hq.2.2⟩

lemma allIn_imp₂ (h : ∀ node, p node → q node → r node) (nodes : List Node) (hp : AllIn p nodes)
    (hq : AllIn q nodes) : AllIn r nodes := by
  match nodes, hp, hq with
  | [], _, _ => exact trivial
  | node :: rest, hp, hq => exact ⟨all_imp₂ h node hp.1 hq.1, allIn_imp₂ h rest hp.2 hq.2⟩

lemma allSlots_imp₂ (h : ∀ node, p node → q node → r node) (slots : List (Option Node))
    (hp : AllSlots p slots) (hq : AllSlots q slots) : AllSlots r slots := by
  match slots, hp, hq with
  | [], _, _ => exact trivial
  | none :: rest, hp, hq => exact allSlots_imp₂ h rest hp hq
  | some node :: rest, hp, hq => exact ⟨all_imp₂ h node hp.1 hq.1, allSlots_imp₂ h rest hp.2 hq.2⟩

end

end

/-- How tightly a tree binds as an operand: sums least, then products, unary and primary
expressions. Other trees cannot be operands as they are. -/
def tightness : Node → Nat
  | .array .. | .function .. | .statement .. | .assignment .. => 0
  | .binary op .. => (Parser.levelOf op).tightness
  | .unary .. => 3
  | .identifier .. | .literal .. | .block .. | .call .. => 4

/-- Whether a node can stand where an expression is asked for. -/
def isExpression : Node → Bool
  | .statement .. => false
  | _ => true

/-- An expression that stands between parentheses or binds at least as tightly as the bound. -/
def Binds (bound : Nat) (node : Node) : Prop :=
  node.isExpression = true ∧ (node.grouped = false → bound ≤ node.tightness)

/-- A block or an expression used as a statement, without parentheses. -/
def IsStatement (node : Node) : Prop :=
  (∃ body, node = .block body) ∨ ∃ inner, node = .statement inner

/-- What holds of a node of a parsed tree and the nodes right under it. -/
def Regular : Node → Prop
  | .identifier name _ => Token.IsName name
  | .literal (.number n) _ => 0 ≤ n.val ∧ n.val < 9223372036854775808
  | .literal (.string _) _ | .literal (.bool _) _ => True
  | .literal .null _ => False
  | .array slots _ => ∀ node, some node ∈ slots → node.Binds 0
  | .function name params body _ =>
    (∀ x ∈ name, Token.IsName x) ∧ (∀ x ∈ params, Token.IsName x) ∧ ∃ inner, body = .block inner
  | .block body _ => ∀ node ∈ body, node.IsStatement
  | .statement inner _ => inner.Binds 0
  | .assignment _ left right _ =>
    ((∃ name g, left = .identifier name g) ∨ ∃ callee arguments g, left = .call callee arguments g) ∧
      right.Binds 0
  | .binary op left right _ =>
    left.Binds (Parser.levelOf op).tightness ∧ right.Binds ((Parser.levelOf op).tightness + 1)
  | .unary _ operand _ => operand.Binds 3
  | .call callee arguments _ => Token.IsName callee ∧ ∀ node ∈ arguments, node.Binds 0

lemma Binds.mono {bound bound' : Nat} {node : Node} (h : node.Binds bound) (hle : bound' ≤ bound) :
    node.Binds bound' :=
  ⟨h.1, fun hgrouped => Nat.le_trans hle (h.2 hgrouped)⟩

@[simp]
lemma grouped_withGrouped (node : Node) (g : Bool) : (node.withGrouped g).grouped = g := by
  cases node <;> rfl

lemma withGrouped_grouped {node : Node} {g : Bool} (h : node.grouped = g) :
    node.withGrouped g = node := by
  subst h
  cases node <;> rfl

@[simp]
lemma withGrouped_withGrouped (node : Node) (g k : Bool) :
    (node.withGrouped g).withGrouped k = node.withGrouped k := by
  cases node <;> rfl

lemma binds_zero {node : Node} (h : node.isExpression = true) : node.Binds 0 :=
  ⟨h, fun _ => Nat.zero_le _⟩

/-- Between parentheses, an expression binds as tightly as anything. -/
lemma binds_withGrouped {node : Node} (h : node.isExpression = true) (bound : Nat) :
    (node.withGrouped true).Binds bound := by
  refine ⟨?_, by simp⟩
  cases node <;> exact h

lemma regular_withGrouped {node : Node} {g : Bool} (h : node.Regular) :
    (node.withGrouped g).Regular := by
  cases node with
  | literal value => cases value <;> exact h
  | _ => exact h

/-- Parentheses around a tree leave it regular. -/
lemma all_regular_withGrouped {node : Node} {g : Bool} (h : node.All Regular) :
    (node.withGrouped g).All Regular := by
  cases node with
  | identifier | literal => exact regular_withGrouped h
  | array | function | block | statement | assignment | binary | unary | call =>
    exact ⟨regular_withGrouped h.1, h.2⟩

lemma isTarget_iff {node : Node} : Parser.isTarget node = true ↔
    (∃ name g, node = .identifier name g) ∨ ∃ callee arguments g, node = .call callee arguments g := by
  cases node <;> simp [Parser.isTarget]

end Node

lemma Number.ofDecimal?_cons {c : Char} (hc : c.isDigit = true) (cs : List Char) :
    ofDecimal? (c :: cs) = (digits? (c :: cs)).bind fun n => ofInt? n := by
  unfold ofDecimal?
  split
  · next heq =>
    cases heq
    exact absurd hc (by decide)
  · next heq =>
    cases heq
    exact absurd hc (by decide)
  · rfl

lemma Number.nonneg_of_ofDecimal? {c : Char} {cs : List Char} {n : Number} (hc : c.isDigit = true)
    (h : ofDecimal? (c :: cs) = some n) : 0 ≤ n.val := by
  rw [ofDecimal?_cons hc, Option.bind_eq_some_iff] at h
  obtain ⟨m, -, hm⟩ := h
  rw [ofInt?_eq_some_iff.mp hm]
  exact Int.natCast_nonneg m

namespace Token

lemma Fits.isName {token : Token} (h : token.Fits) (hkind : token.kind = .identifier) :
    IsName token.lexeme := by
  rw [← fits_identifier_iff, ← hkind]
  exact h

lemma Fits.nonneg {token : Token} (h : token.Fits) (hkind : token.kind = .number) {n : Number}
    (hn : Number.ofDecimal? token.lexeme.toList = some n) : 0 ≤ n.val := by
  cases h with
  | number hc _ =>
    rw [String.toList_ofList] at hn
    exact Number.nonneg_of_ofDecimal? hc hn
  | @word c cs _ _ =>
    have hword := kind_ofWord (c :: cs)
    rw [hkind] at hword
    exact absurd hword (by decide)
  | punctuation hc =>
    cases hkind
    unfold punctuation? at hc
    split at hc <;> cases hc
  | _ => cases hkind

end Token

namespace Parser

/-- What the grammar guarantees of the trees in a phrase. -/
def Phrase.Regular : Phrase → Prop
  | .statement node => node.All Node.Regular ∧ node.IsStatement
  | .statements body => Node.AllIn Node.Regular body ∧ ∀ node ∈ body, node.IsStatement
  | .expression node | .assignment node => node.All Node.Regular ∧ node.Binds 0
  | .slots list => Node.AllSlots Node.Regular list ∧ ∀ node, some node ∈ list → node.Binds 0
  | .signature name params => (∀ x ∈ name, Token.IsName x) ∧ ∀ x ∈ params, Token.IsName x
  | .parameters names => ∀ x ∈ names, Token.IsName x
  | .binary level node => node.All Node.Regular ∧ node.Binds level.tightness
  | .operand level node => node.All Node.Regular ∧ node.Binds (level.tightness + 1)
  | .unary node => node.All Node.Regular ∧ node.Binds 3
  | .primary node => node.All Node.Regular ∧ node.Binds 4
  | .arguments nodes => Node.AllIn Node.Regular nodes ∧ ∀ node ∈ nodes, node.Binds 0
  | .chain .. => True

/-- The trees that the grammar derives from scanned tokens are regular. -/
theorem Derives.regular {phrase : Phrase} {tokens : List Token} (h : Derives phrase tokens)
    (hfits : ∀ token ∈ tokens, token.Fits) : phrase.Regular := by
  induction h with
  | statementBlock _ _ ih =>
    obtain ⟨hall, hbody⟩ := ih (List.forall_mem_cons.mp hfits).2
    exact ⟨⟨hbody, hall⟩, .inl ⟨_, rfl⟩⟩
  | statementExpression _ ih =>
    obtain ⟨hall, hbinds⟩ := ih hfits
    exact ⟨⟨hbinds, hall⟩, .inr ⟨_, rfl⟩⟩
  | statementsEnd _ => exact ⟨trivial, by simp⟩
  | statementsCons _ _ ihfirst ihbody =>
    rw [List.forall_mem_append] at hfits
    obtain ⟨hall, hfirst⟩ := ihfirst hfits.1
    obtain ⟨hallBody, hbody⟩ := ihbody hfits.2
    exact ⟨⟨hall, hallBody⟩, List.forall_mem_cons.mpr ⟨hfirst, hbody⟩⟩
  | expressionArray _ _ ih =>
    obtain ⟨hall, hslots⟩ := ih (List.forall_mem_cons.mp hfits).2
    exact ⟨⟨hslots, hall⟩, Node.binds_zero rfl⟩
  | expressionFunction _ _ _ ihsignature ihbody =>
    rw [List.cons_append, List.forall_mem_cons, List.forall_mem_append] at hfits
    obtain ⟨hname, hparams⟩ := ihsignature hfits.2.1
    obtain ⟨hall, hbody⟩ := ihbody hfits.2.2
    exact ⟨⟨⟨hname, hparams, _, rfl⟩, hbody, hall⟩, Node.binds_zero rfl⟩
  | expressionAssignment _ ih => exact ih hfits
  | slotsEnd _ => exact ⟨trivial, by simp⟩
  | slotsEmpty _ _ ih =>
    obtain ⟨hall, hslots⟩ := ih (List.forall_mem_cons.mp hfits).2
    exact ⟨hall, by simpa using hslots⟩
  | slotsComma _ _ _ ihfirst ihslots =>
    rw [List.forall_mem_append, List.forall_mem_cons] at hfits
    obtain ⟨hall, hfirst⟩ := ihfirst hfits.1
    obtain ⟨hallSlots, hslots⟩ := ihslots hfits.2.2
    exact ⟨⟨hall, hallSlots⟩, by simpa [hfirst] using hslots⟩
  | slotsLast _ _ ihfirst =>
    rw [List.forall_mem_append] at hfits
    obtain ⟨hall, hfirst⟩ := ihfirst hfits.1
    exact ⟨⟨hall, trivial⟩, by simpa using hfirst⟩
  | signatureNameless _ _ ih => exact ⟨by simp, ih (List.forall_mem_cons.mp hfits).2⟩
  | signatureNamed hname _ _ ih =>
    rw [List.forall_mem_cons, List.forall_mem_cons] at hfits
    exact ⟨by simpa using hfits.1.isName hname, ih hfits.2.2⟩
  | parametersEnd _ => exact List.forall_mem_nil _
  | parametersComma hname _ _ ih =>
    rw [List.forall_mem_cons, List.forall_mem_cons] at hfits
    exact List.forall_mem_cons.mpr ⟨hfits.1.isName hname, ih hfits.2.2⟩
  | parametersLast hname _ =>
    rw [List.forall_mem_cons] at hfits
    exact List.forall_mem_singleton.mpr (hfits.1.isName hname)
  | assignmentValue _ ih =>
    obtain ⟨hall, hbinds⟩ := ih hfits
    exact ⟨hall, hbinds.mono (Nat.zero_le _)⟩
  | assignmentTo _ _ htarget _ ihleft ihright =>
    rw [List.forall_mem_append, List.forall_mem_cons] at hfits
    obtain ⟨hallLeft, -⟩ := ihleft hfits.1
    obtain ⟨hallRight, hright⟩ := ihright hfits.2.2
    exact ⟨⟨⟨Node.isTarget_iff.mp htarget, hright⟩, hallLeft, hallRight⟩, Node.binds_zero rfl⟩
  | binaryOperand _ ih =>
    obtain ⟨hall, hbinds⟩ := ih hfits
    exact ⟨hall, hbinds.mono (Nat.le_succ _)⟩
  | binaryOperator _ _ hlevel _ ihleft ihright =>
    rw [List.forall_mem_append, List.forall_mem_cons] at hfits
    obtain ⟨hallLeft, hleft⟩ := ihleft hfits.1
    obtain ⟨hallRight, hright⟩ := ihright hfits.2.2
    subst hlevel
    exact ⟨⟨⟨hleft, hright⟩, hallLeft, hallRight⟩, rfl, fun _ => Nat.le_refl _⟩
  | operandSum _ ih => exact ih hfits
  | operandProduct _ ih => exact ih hfits
  | unarySign _ _ ih =>
    obtain ⟨hall, hbinds⟩ := ih (List.forall_mem_cons.mp hfits).2
    exact ⟨⟨hbinds, hall⟩, rfl, fun _ => Nat.le_refl 3⟩
  | unaryPrimary _ ih =>
    obtain ⟨hall, hbinds⟩ := ih hfits
    exact ⟨hall, hbinds.mono (by decide)⟩
  | primaryNumber hkind hvalue =>
    have hfit := List.forall_mem_singleton.mp hfits
    exact ⟨⟨hfit.nonneg hkind hvalue, Number.lt_bound _⟩, rfl, fun _ => Nat.le_refl 4⟩
  | primaryString _ | primaryTrue _ | primaryFalse _ => exact ⟨trivial, rfl, fun _ => Nat.le_refl 4⟩
  | primaryGroup _ _ _ ih =>
    rw [List.cons_append, List.forall_mem_cons, List.forall_mem_append] at hfits
    obtain ⟨hall, hbinds⟩ := ih hfits.2.1
    exact ⟨Node.all_regular_withGrouped hall, Node.binds_withGrouped hbinds.1 4⟩
  | primaryBlock _ _ ih =>
    obtain ⟨hall, hbody⟩ := ih (List.forall_mem_cons.mp hfits).2
    exact ⟨⟨hbody, hall⟩, rfl, fun _ => Nat.le_refl 4⟩
  | primaryCall hname _ _ ih =>
    rw [List.forall_mem_cons, List.forall_mem_cons] at hfits
    obtain ⟨hall, harguments⟩ := ih hfits.2.2
    exact ⟨⟨⟨hfits.1.isName hname, harguments⟩, hall⟩, rfl, fun _ => Nat.le_refl 4⟩
  | primaryName hname =>
    have hfit := List.forall_mem_singleton.mp hfits
    exact ⟨hfit.isName hname, rfl, fun _ => Nat.le_refl 4⟩
  | argumentsEnd _ => exact ⟨trivial, by simp⟩
  | argumentsComma _ _ _ ihfirst iharguments =>
    rw [List.forall_mem_append, List.forall_mem_cons] at hfits
    obtain ⟨hall, hfirst⟩ := ihfirst hfits.1
    obtain ⟨hallArguments, harguments⟩ := iharguments hfits.2.2
    exact ⟨⟨hall, hallArguments⟩, List.forall_mem_cons.mpr ⟨hfirst, harguments⟩⟩
  | argumentsLast _ _ ihfirst =>
    rw [List.forall_mem_append] at hfits
    obtain ⟨hall, hfirst⟩ := ihfirst hfits.1
    exact ⟨⟨hall, trivial⟩, List.forall_mem_singleton.mpr hfirst⟩

/-- A tree that is read off all tokens of a text is derived from them and regular. -/
lemma Reads.derives_and_regular {source : String} {node : Node}
    (h : Reads (.statement node) (Token.scan source) []) :
    Derives (.statement node) (Token.scan source) ∧ node.IsStatement ∧ node.All Node.Regular := by
  obtain ⟨used, hused, hderives⟩ := h.derives
  rw [List.append_nil] at hused
  subst hused
  obtain ⟨hall, hstatement⟩ := Derives.regular hderives fun _ => Token.fits_of_mem_scanChars
  exact ⟨hderives, hstatement, hall⟩

end Parser

/-- A parsed tree is a derivation of exactly the tokens of the text in the grammar, and every node of
it is regular. -/
theorem derives_and_regular_of_parse {source : String} {node : Node}
    (h : parse source = .ok (some node)) :
    Parser.Derives (.statement node) (Token.scan source) ∧ node.IsStatement ∧
      node.All Node.Regular :=
  (Parser.parse_eq_some_iff.mp h).derives_and_regular

/-- The tree of `a - -b * (c + f(x,))`. -/
def nestedSum : Node :=
  .statement (.binary .subtract (.identifier "a")
    (.binary .multiply (.unary .minus (.identifier "b"))
      (.binary .add (.identifier "c") (.call "f" [.identifier "x"]) true)))

theorem derives_and_regular_nestedSum :
    Parser.Derives (.statement nestedSum) (Token.scan "a - -b * (c + f(x,))") ∧
      nestedSum.IsStatement ∧ nestedSum.All Node.Regular :=
  derives_and_regular_of_parse (by cbv)

-- The grammar speaks of operators by the levels that the parser gives them: these.
example : ["+", "-", "*", "/", "%"].map (fun text => (BinaryOp.ofLexeme? text).map Parser.levelOf) =
    [some .sum, some .sum, some .product, some .product, some .product] := by
  decide

example : parse "a - b * c + d" = .ok (some (.statement (.binary .add
    (.binary .subtract (.identifier "a") (.binary .multiply (.identifier "b") (.identifier "c")))
    (.identifier "d")))) := by
  cbv

end ScriptConsole
