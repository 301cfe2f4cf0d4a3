import ScriptConsole.Proofs.ErrorPhases
import ScriptConsole.Proofs.RoundTrip

/-!
# Conventional arithmetic

An arithmetic expression is written with parentheses only where the conventional precedence of its
operators needs them. `interpret_arith` says that a session computes its exact value from this text,
or fails with the error of the step that conventional evaluation, operands first and from left to
right, comes to first.
-/

namespace ScriptConsole

/-- A sign in front of an operand. -/
inductive Sign
  | plus
  | minus

namespace Sign

/-- The operator that a sign is written as. -/
def op : Sign → UnaryOp
  | .plus => .plus
  | .minus => .minus

/-- What a sign makes of an integer. -/
def exact : Sign → Int → Int
  | .plus, n => n
  | .minus, n => -n

end Sign

/-- A number can hold the integer. -/
def Number.InRange (n : Int) : Prop :=
  -9223372036854775808 ≤ n ∧ n < 9223372036854775808

instance : DecidablePred Number.InRange :=
  fun _ => inferInstanceAs (Decidable (_ ∧ _))

namespace BinaryOp

/-- How tightly conventional notation lets an operator bind. -/
def precedence : BinaryOp → Nat
  | .add | .subtract => 1
  | .multiply | .divide | .remainder => 2

/-- What an operator makes of two integers. A quotient is cut off towards zero. -/
def exact : BinaryOp → Int → Int → Int
  | .add, a, b => a + b
  | .subtract, a, b => a - b
  | .multiply, a, b => a * b
  | .divide, a, b => a.tdiv b
  | .remainder, a, b => a.tmod b

/-- Why an operator has no result for two integers, if it has none. The remainder of the least number
by minus one counts as too large, as the quotient is. -/
def fault? (op : BinaryOp) (a b : Int) : Option Error :=
  if (op = .divide ∨ op = .remainder) ∧ b = 0 then
    some .divisionByZero
  else if ¬Number.InRange (op.exact a b) ∨ (op = .remainder ∧ a = -9223372036854775808 ∧ b = -1) then
    some .overflow
  else
    none

end BinaryOp

/-- An arithmetic expression over the numbers that can be written as literals. -/
inductive Arith
  | literal (n : Fin 9223372036854775808)
  | signed (sign : Sign) (operand : Arith)
  | binary (op : BinaryOp) (left right : Arith)

namespace Arith

/-- How tightly an expression binds: a sign binds tighter than any operator between operands. -/
def precedence : Arith → Nat
  | .literal _ => 4
  | .signed .. => 3
  | .binary op .. => op.precedence

/-- An operand is written between parentheses if it binds less tightly than it has to. -/
def enclose (needed precedence : Nat) (text : String) : String :=
  if precedence < needed then "(" ++ text ++ ")" else text

/-- The expression with parentheses only where they are needed. Operators of one precedence are read
from left to right, so that the right operand has to bind tighter than the operator. -/
def text : Arith → String
  | .literal n => toString n.val
  | .signed sign operand => sign.op.text ++ enclose 3 operand.precedence operand.text
  | .binary op left right =>
    enclose op.precedence left.precedence left.text ++ " " ++ op.text ++ " " ++
      enclose (op.precedence + 1) right.precedence right.text

example : (Arith.binary .subtract (.binary .subtract (.literal 1) (.signed .minus (.literal 2)))
    (.binary .subtract (.literal 3) (.literal 4))).text = "1 - -2 - (3 - 4)" := by
  decide

/-- The exact value of the expression, as far as it has one. -/
def exact : Arith → Int
  | .literal n => n.val
  | .signed sign operand => sign.exact operand.exact
  | .binary op left right => op.exact left.exact right.exact

/-- Why the last step of the expression fails, if it does. -/
def fault? : Arith → Option Error
  | .literal _ => none
  | .signed sign operand =>
    if Number.InRange (sign.exact operand.exact) then none else some .overflow
  | .binary op left right => op.fault? left.exact right.exact

/-- The subexpressions from left to right, each behind its operands. -/
def postorder : Arith → List Arith
  | .literal n => [.literal n]
  | .signed sign operand => operand.postorder ++ [.signed sign operand]
  | .binary op left right => left.postorder ++ right.postorder ++ [.binary op left right]

/-- The number that a literal is written for. -/
def number (n : Fin 9223372036854775808) : Number :=
  ⟨n.val, by omega, by omega⟩

/-- The tree of the expression. -/
def node : Arith → Node
  | .literal n => .literal (.number (number n))
  | .signed sign operand => .unary sign.op (operand.node.withGrouped (operand.precedence < 3))
  | .binary op left right =>
    .binary op (left.node.withGrouped (left.precedence < op.precedence))
      (right.node.withGrouped (right.precedence < op.precedence + 1))

lemma grouped_node (t : Arith) : t.node.grouped = false := by
  cases t <;> rfl

lemma tokens_node_withGrouped (t : Arith) (g : Bool) :
    (t.node.withGrouped g).tokens = Node.wrapTokens g t.node.tokens := by
  rw [Node.tokens_eq_wrap, Node.grouped_withGrouped, Node.withGrouped_withGrouped,
    Node.withGrouped_grouped t.grouped_node]

open Token (Written)

lemma written_enclose {text : String} {tokens : List Token} (h : Written text tokens)
    (needed precedence : Nat) :
    Written (enclose needed precedence text) (Node.wrapTokens (precedence < needed) tokens) := by
  have hwrap : enclose needed precedence text = Node.wrap (precedence < needed) text := by
    simp [enclose, Node.wrap, Node.parenthesise]
  rw [hwrap]
  exact Token.written_wrap h _

/-- The text of an expression is scanned as the tokens of its tree. -/
lemma written_text (t : Arith) : Written t.text t.node.tokens := by
  induction t with
  | literal n =>
    have hfits := Number.fits_text (n := number n) (Int.natCast_nonneg n.val)
    exact Token.written_token hfits (by simp)
  | signed sign operand ih =>
    have hoperand := written_enclose ih 3 operand.precedence
    rw [← tokens_node_withGrouped] at hoperand
    exact Token.written_sign hoperand sign.op
  | binary op left right ihleft ihright =>
    have hleft := written_enclose ihleft op.precedence left.precedence
    have hright := written_enclose ihright (op.precedence + 1) right.precedence
    rw [← tokens_node_withGrouped] at hleft hright
    exact Token.written_infix hleft op.fits_text hright

section

open ScriptConsole.Parser (Reads ReadsAs readsAs_of_primary)

/-- An operand is read between parentheses or by a rule that binds as tightly as it has to. -/
lemma readsAs_operand {t : Arith} (h : ReadsAs t.node.tokens t.node t.precedence) (needed : Nat)
    (hneeded : needed ≤ 4) :
    ReadsAs (t.node.withGrouped (t.precedence < needed)).tokens
      (t.node.withGrouped (t.precedence < needed)) needed := by
  rw [tokens_node_withGrouped]
  by_cases hlt : t.precedence < needed
  · have hgroup := readsAs_of_primary fun rest _ => (h.mono (Nat.zero_le _)).parenthesise rest
    simp only [hlt, decide_true]
    exact hgroup.mono hneeded
  · simp only [hlt, decide_false]
    rw [Node.withGrouped_grouped t.grouped_node]
    exact h.mono (Nat.le_of_not_lt hlt)

lemma precedence_eq_tightness (op : BinaryOp) :
    op.precedence = (Parser.levelOf op).tightness := by
  cases op <;> rfl

/-- The tokens of an expression are read as its tree by the rule that binds as tightly as it does. -/
lemma readsAs_node (t : Arith) : ReadsAs t.node.tokens t.node t.precedence := by
  induction t with
  | literal n =>
    refine readsAs_of_primary fun rest _ => .primaryNumber rfl ?_
    exact Number.ofDecimal?_text (Int.natCast_nonneg n.val)
  | signed sign operand ih =>
    exact (readsAs_operand ih 3 (by decide)).unary sign.op (Node.tokens_ne_nil _)
  | binary op left right ihleft ihright =>
    have hprecedence : op.precedence ≤ 2 := by
      cases op <;> decide
    have hleft := readsAs_operand ihleft op.precedence (by omega)
    have hright := readsAs_operand ihright (op.precedence + 1) (by omega)
    rw [precedence_eq_tightness op] at hleft hright
    rw [node, precedence, precedence_eq_tightness op]
    exact hleft.binary op (Node.tokens_ne_nil _) hright

/-- No expression starts like a block. -/
lemma ahead_tokens_node (t : Arith) : Ahead (·.kind ≠ .keywordDo) t.node.tokens := by
  induction t with
  | literal | signed => exact ahead_cons.mpr (by simp [Literal.token])
  | binary op left right ihleft _ =>
    refine Ahead.append ?_ (.inl (Node.tokens_ne_nil _))
    rw [tokens_node_withGrouped, Node.wrapTokens]
    split
    · exact ahead_cons.mpr (by decide)
    · exact ihleft

lemma parse_text (t : Arith) : parse t.text = .ok (some (.statement t.node)) := by
  rw [Parser.parse_eq_some_iff, t.written_text.scans.scan_eq]
  have hreads := (t.readsAs_node.mono (Nat.zero_le _)) [] (fun _ => ahead_nil) ahead_nil
  rw [List.append_nil] at hreads
  exact .statementExpression t.ahead_tokens_node hreads

end

end Arith

namespace Number

lemma inRange_val (n : Number) : InRange n.val :=
  ⟨n.least_le, n.lt_bound⟩

lemma inRange_tmod (a b : Number) (hb : b.val ≠ 0) : InRange (a.val.tmod b.val) := by
  have habs := Int.natAbs_tmod a.val b.val
  have hlt : a.val.natAbs % b.val.natAbs < b.val.natAbs :=
    Nat.mod_lt _ (Int.natAbs_pos.mpr hb)
  have hle : a.val.natAbs % b.val.natAbs ≤ a.val.natAbs := Nat.mod_le _ _
  obtain ⟨ha, ha'⟩ := a.inRange_val
  obtain ⟨hb, hb'⟩ := b.inRange_val
  constructor <;> omega

/-- Of all quotients, only that of the least number by minus one is out of range. -/
lemma inRange_tdiv_iff (a b : Number) :
    InRange (a.val.tdiv b.val) ↔ ¬(a.val = -9223372036854775808 ∧ b.val = -1) := by
  constructor
  · rintro hrange ⟨ha, hb⟩
    rw [ha, hb] at hrange
    exact absurd hrange (by decide)
  · intro hpair
    obtain ⟨ha, ha'⟩ := a.inRange_val
    by_cases hunit : b.val.natAbs = 1
    · obtain hb | hb := Int.natAbs_eq_iff.mp hunit <;> rw [hb]
      · rw [Nat.cast_one, Int.tdiv_one]
        exact a.inRange_val
      · rw [Nat.cast_one, Int.tdiv_neg, Int.tdiv_one]
        constructor <;> omega
    · -- any other divisor at least halves the dividend
      have habs : (a.val.tdiv b.val).natAbs = a.val.natAbs / b.val.natAbs := Int.natAbs_tdiv _ _
      have hhalf : (a.val.tdiv b.val).natAbs ≤ a.val.natAbs / 2 := by
        rw [habs]
        obtain hzero | hlarge : b.val.natAbs = 0 ∨ 2 ≤ b.val.natAbs := by omega
        · rw [hzero, Nat.div_zero]
          exact Nat.zero_le _
        · exact Nat.div_le_div_left hlarge (by decide)
      generalize a.val.tdiv b.val = quotient at hhalf ⊢
      constructor <;> omega

end Number

/-- Apart from the special cases of division, an operator fails if its result is out of range. -/
lemma BinaryOp.fault?_eq_ite {op : BinaryOp} {a b : Int}
    (hzero : ¬((op = .divide ∨ op = .remainder) ∧ b = 0)) (hop : op ≠ .remainder) :
    op.fault? a b = if Number.InRange (op.exact a b) then none else some .overflow := by
  rw [fault?, if_neg hzero]
  by_cases hrange : Number.InRange (op.exact a b) <;> simp [hrange, hop]

namespace Value

/-- The result is the error if one is given, and else the number with the value. -/
def Settles (fault : Option Error) (exact : Int) (result : Except Error Value) : Prop :=
  match fault with
  | none => ∃ n : Number, n.val = exact ∧ result = .ok (.number n)
  | some error => result = .error error

lemma settles_ofExact (n : Int) :
    Settles (if Number.InRange n then none else some .overflow) n (ofExact n) := by
  split
  · next h =>
    have hsome : Number.ofInt? n = some ⟨n, h.1, h.2⟩ := Number.ofInt?_eq_some_iff.mpr rfl
    exact ⟨_, rfl, by rw [ofExact, hsome]⟩
  · next h =>
    have hnone : Number.ofInt? n = none := by
      rw [Number.ofInt?_eq_none_iff]
      unfold Number.InRange at h
      omega
    rw [Settles, ofExact, hnone]

lemma settles_unary (sign : Sign) (n : Number) :
    Settles (if Number.InRange (sign.exact n.val) then none else some .overflow) (sign.exact n.val)
      (unary sign.op (.number n)) := by
  cases sign with
  | plus =>
    have hplus : unary .plus (.number n) = ofExact n.val := by
      rw [unary, ofExact, Number.ofInt?_val]
    exact hplus ▸ settles_ofExact n.val
  | minus => exact settles_ofExact (-n.val)

/-- What follows a result that is settled settles the rest. -/
lemma Settles.bind {fault fault' : Option Error} {exact exact' : Int} {result : Except Error Value}
    {f : Value → Except Error Value} (h : Settles fault exact result)
    (hf : ∀ n : Number, n.val = exact → Settles fault' exact' (f (.number n))) :
    Settles (fault.or fault') exact' (result.bind f) := by
  cases fault with
  | none =>
    obtain ⟨n, hval, rfl⟩ := h
    exact hf n hval
  | some error =>
    rw [h]
    rfl

lemma settles_remainder (a b : Number) (hb : b.val ≠ 0) :
    Settles (BinaryOp.remainder.fault? a.val b.val) (a.val.tmod b.val)
      (arithmetic .remainder a b) := by
  have hremainder := settles_ofExact (a.val.tmod b.val)
  rw [if_pos (Number.inRange_tmod a b hb)] at hremainder
  have hboth := (settles_ofExact (a.val.tdiv b.val)).bind (f := fun _ => ofExact (a.val.tmod b.val))
    fun _ _ => hremainder
  -- the remainder itself is always in range, so that only the quotient decides
  have hfault : BinaryOp.remainder.fault? a.val b.val =
      if Number.InRange (a.val.tdiv b.val) then none else some .overflow := by
    have hiff := Number.inRange_tdiv_iff a b
    have hrange := Number.inRange_tmod a b hb
    by_cases hquotient : Number.InRange (a.val.tdiv b.val)
    · rw [if_pos hquotient]
      simp [BinaryOp.fault?, BinaryOp.exact, hb, hrange, hiff.mp hquotient]
    · rw [if_neg hquotient]
      simp [BinaryOp.fault?, BinaryOp.exact, Decidable.not_not.mp (hiff.not.mp hquotient)]
  rw [hfault, arithmetic, if_neg hb]
  rwa [Option.or_none] at hboth

lemma settles_arithmetic (op : BinaryOp) (a b : Number) :
    Settles (op.fault? a.val b.val) (op.exact a.val b.val) (arithmetic op a b) := by
  have hexact := settles_ofExact (op.exact a.val b.val)
  cases op with
  | add | subtract | multiply =>
    rw [BinaryOp.fault?_eq_ite (by simp) (by simp)]
    exact hexact
  | divide =>
    by_cases hb : b.val = 0
    · simp [BinaryOp.fault?, arithmetic, hb, Settles]
    · rw [BinaryOp.fault?_eq_ite (by simp [hb]) (by simp), arithmetic, if_neg hb]
      exact hexact
  | remainder =>
    by_cases hb : b.val = 0
    · simp [BinaryOp.fault?, arithmetic, hb, Settles]
    · exact settles_remainder a b hb

lemma settles_binary (op : BinaryOp) (a b : Number) :
    Settles (op.fault? a.val b.val) (op.exact a.val b.val) (binary op (.number a) (.number b)) := by
  have hbinary : binary op (.number a) (.number b) = arithmetic op a b := by
    simp [binary, isString, toNumber, Except.bind]
  rw [hbinary]
  exact settles_arithmetic op a b

end Value

namespace Arith

open Evaluation

variable (call : Value → List Value → Eval Value) (scope : ScopeId)

lemma evaluateWith_node_withGrouped (t : Arith) (g : Bool) :
    evaluateWith call scope (t.node.withGrouped g) = evaluateWith call scope t.node := by
  cases t <;> rfl

lemma ofExcept_bind {α β : Type} (result : Except Error α) (f : α → Except Error β) :
    (MonadExcept.ofExcept (result.bind f) : Eval β) =
      MonadExcept.ofExcept result >>= fun value => MonadExcept.ofExcept (f value) := by
  cases result <;> rfl

/-- Evaluating the tree of an expression comes to the exact value, or to the error of the first
subexpression whose last step fails, and changes nothing. -/
lemma exists_evaluateWith_node (t : Arith) :
    ∃ result, Value.Settles (t.postorder.findSome? fault?) t.exact result ∧
      evaluateWith call scope t.node = MonadExcept.ofExcept result := by
  induction t with
  | literal n => exact ⟨.ok (.number (number n)), ⟨number n, rfl, rfl⟩, rfl⟩
  | signed sign operand ih =>
    obtain ⟨result, hsettles, heval⟩ := ih
    refine ⟨result.bind (Value.unary sign.op), ?_, ?_⟩
    · rw [postorder, List.findSome?_append]
      refine hsettles.bind fun n hval => ?_
      have hstep := Value.settles_unary sign n
      rw [hval] at hstep
      rw [List.findSome?_singleton]
      exact hstep
    · rw [node, evaluateWith, evaluateWith_node_withGrouped, heval, ofExcept_bind]
  | binary op left right ihleft ihright =>
    obtain ⟨result, hsettles, heval⟩ := ihleft
    obtain ⟨result', hsettles', heval'⟩ := ihright
    refine ⟨result.bind fun a => result'.bind fun b => Value.binary op a b, ?_, ?_⟩
    · rw [postorder, List.findSome?_append, List.findSome?_append, Option.or_assoc]
      refine hsettles.bind fun a ha => hsettles'.bind fun b hb => ?_
      have hstep := Value.settles_binary op a b
      rw [ha, hb] at hstep
      rw [List.findSome?_singleton]
      exact hstep
    · rw [node, evaluateWith, evaluateWith_node_withGrouped, evaluateWith_node_withGrouped, heval,
        heval', ofExcept_bind]
      simp only [ofExcept_bind]

end Arith

/-- In every session, the text of an arithmetic expression has the exact value of the expression if no
step fails, and else the first subexpression that fails, operands first and from left to right, gives
the error. Nothing is bound, and no signal is raised. -/
theorem interpret_arith (t : Arith) (session : Session) :
    match t.postorder.findSome? Arith.fault? with
    | none => ∃ n : Number, n.val = t.exact ∧
        Session.interpret t.text session = .ok (some (.number n)) { session with depth := 0 }
    | some error => Session.interpret t.text session = .error error { session with depth := 0 } := by
  obtain ⟨result, hsettles, heval⟩ := t.exists_evaluateWith_node Evaluation.call Session.globals
  have hinterpret : Session.interpret t.text session =
      (some <$> MonadExcept.ofExcept result : Eval (Option Value)) { session with depth := 0 } := by
    rw [Session.interpret_of_parse t.parse_text, Evaluation.evaluate, Evaluation.evaluateWith, heval]
  rw [hinterpret]
  cases hfault : t.postorder.findSome? Arith.fault? with
  | none =>
    rw [hfault] at hsettles
    obtain ⟨n, hval, rfl⟩ := hsettles
    exact ⟨n, hval, rfl⟩
  | some error =>
    rw [hfault] at hsettles
    rw [hsettles]
    rfl

end ScriptConsole
