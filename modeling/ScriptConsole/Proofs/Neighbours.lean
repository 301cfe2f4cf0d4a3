import ScriptConsole.Proofs.PrintedTokens

/-!
# Neighbouring statements

The grammar does not say where a statement of a block ends and the next one starts: the parser goes
on as long as it can. So a parsed statement that ends in a name is never followed by one that starts
with a parenthesis or a sign, and a parsed expression used as a statement does not start with `do`.
`Reads.spaced` reads this off the derivations, for every block inside the tree.
-/

namespace ScriptConsole

namespace Token

@[simp]
lemma endsInName_append_singleton (tokens : List Token) (token : Token) :
    endsInName (tokens ++ [token]) = (token.kind == .identifier) := by
  simp [endsInName]

lemma endsInName_append {tokens tokens' : List Token} (h : tokens' ≠ []) :
    endsInName (tokens ++ tokens') = endsInName tokens' := by
  rw [endsInName, endsInName, List.getLast?_append_of_ne_nil _ h]

lemma endsInName_cons {token : Token} {tokens : List Token} (h : tokens ≠ []) :
    endsInName (token :: tokens) = endsInName tokens := by
  rw [← List.singleton_append, endsInName_append h]

@[simp]
lemma endsInName_parenthesise (tokens : List Token) : endsInName (parenthesise tokens) = false :=
  endsInName_append_singleton _ closing

/-- Two token sequences start alike: with tokens of one kind, and both or neither with a sign. -/
def Alike (tokens tokens' : List Token) : Prop :=
  (tokens.head?.map fun token => (token.kind, token.isSign)) =
    tokens'.head?.map fun token => (token.kind, token.isSign)

lemma isSign_eq_false {token : Token} (h : token.kind ≠ .operator) : token.isSign = false := by
  rw [isSign, beq_false_of_ne h, Bool.false_and]

lemma alike_cons {kind : Kind} {token token' : Token} (hkind' : token'.kind = kind)
    (hkind : token.kind = kind) (hop : kind ≠ .operator) (tokens tokens' : List Token) :
    Alike (token :: tokens) (token' :: tokens') := by
  subst hkind
  have hsign := isSign_eq_false hop
  have hsign' : token'.isSign = false := isSign_eq_false (hkind' ▸ hop)
  simp [Alike, hkind', hsign, hsign']

lemma Alike.append {tokens tokens' : List Token} (h : Alike tokens tokens') (hne : tokens ≠ [])
    (suffix : List Token) : Alike (tokens ++ suffix) tokens' := by
  rwa [Alike, List.head?_append_of_ne_nil _ hne]

/-- What comes next in one of two sequences comes next in the other. -/
lemma Alike.ahead {tokens tokens' : List Token} (h : Alike tokens tokens')
    (p : Kind → Bool → Prop) (hp : Ahead (fun token => p token.kind token.isSign) tokens') :
    Ahead (fun token => p token.kind token.isSign) tokens := by
  intro token htoken
  rw [Option.mem_def] at htoken
  rw [Alike, htoken, Option.map_some, eq_comm, Option.map_eq_some_iff] at h
  obtain ⟨token', htoken', heq⟩ := h
  obtain ⟨hkind, hsign⟩ := Prod.mk.inj heq
  rw [← hkind, ← hsign]
  exact hp token' htoken'

end Token

namespace Parser

/-- The token does not continue a name: it makes no call of it and, in a sum, no operand. -/
def Level.Clear : Level → Token → Prop
  | .sum, token => token.kind ≠ .leftParen ∧ token.isSign = false
  | .product, token => token.kind ≠ .leftParen

lemma isSign_of_operator? {token : Token} (h : operator? .sum token = none) :
    token.isSign = false := by
  by_contra hsign
  rw [Bool.not_eq_false, Token.isSign, Bool.and_eq_true, Bool.or_eq_true, beq_iff_eq, beq_iff_eq,
    beq_iff_eq] at hsign
  obtain ⟨hkind, hplus | hminus⟩ := hsign
  · have hop : operator? .sum token = some .add := operator?_eq_some_iff.mpr ⟨⟨hkind, hplus⟩, rfl⟩
    rw [h] at hop
    cases hop
  · have hop : operator? .sum token = some .subtract :=
      operator?_eq_some_iff.mpr ⟨⟨hkind, hminus⟩, rfl⟩
    rw [h] at hop
    cases hop

lemma Level.clear_of_operator? {level : Level} {token : Token} (h : product.Clear token)
    (hop : operator? level token = none) : level.Clear token := by
  cases level with
  | sum => exact ⟨h, isSign_of_operator? hop⟩
  | product => exact h

end Parser

namespace Node

lemma tokens_ne_nil (node : Node) : node.tokens ≠ [] := by
  have hwrap (g : Bool) {tokens : List Token} (h : tokens ≠ []) : wrapTokens g tokens ≠ [] := by
    cases g with
    | false => exact h
    | true => exact List.cons_ne_nil _ _
  match node with
  | .identifier _ g | .literal _ g | .array _ g | .block _ g | .assignment _ _ _ g
  | .binary _ _ _ g | .unary _ _ g | .call _ _ g => exact hwrap g (by simp)
  | .function _ _ body g => cases body <;> exact hwrap g (by simp [headTokens])
  | .statement inner g => exact hwrap g (tokens_ne_nil inner)

/-- The parentheses of a grouped node are its outermost tokens. -/
lemma tokens_eq_wrap (node : Node) :
    node.tokens = wrapTokens node.grouped (node.withGrouped false).tokens := by
  cases node with
  | function _ _ body _ => cases body <;> rfl
  | _ => rfl

/-- If the tree ends in a name, the next token is clear of it. -/
def ClearOf (level : Parser.Level) (node : Node) (rest : List Token) : Prop :=
  Token.endsInName node.tokens = true → Ahead level.Clear rest

/-- What holds of a node of a parsed tree because the parser goes on as long as it can. -/
def Spaced : Node → Prop
  | .block body _ => body.IsChain fun first next => first.ClearOf .sum next.tokens
  | .statement inner _ => Ahead (·.kind ≠ .keywordDo) inner.tokens
  | _ => True

lemma all_spaced_withGrouped {node : Node} {g : Bool} (h : node.All Spaced) :
    (node.withGrouped g).All Spaced := by
  cases node <;> exact h

lemma clearOf_of_endsInName {level : Parser.Level} {node : Node} {rest : List Token}
    (h : Token.endsInName node.tokens = false) : node.ClearOf level rest := by
  intro hname
  rw [h] at hname
  cases hname

lemma clearOf_withGrouped (level : Parser.Level) (node : Node) (rest : List Token) :
    (node.withGrouped true).ClearOf level rest := by
  apply clearOf_of_endsInName
  rw [tokens_eq_wrap, grouped_withGrouped]
  exact Token.endsInName_parenthesise _

/-- A tree is clear of what follows if it ends with a tree that is. -/
lemma ClearOf.of_append {level : Parser.Level} {node last : Node} {tokens rest : List Token}
    (h : last.ClearOf level rest) (htokens : node.tokens = tokens ++ last.tokens) :
    node.ClearOf level rest := by
  intro hname
  rw [htokens, Token.endsInName_append last.tokens_ne_nil] at hname
  exact h hname

end Node

namespace Parser

open Token (Alike)

/-- What the parser ensures about neighbours inside a phrase and behind it, where `tokens` are those
it was read off and `rest` are those that are left. -/
def Phrase.Spaced (tokens rest : List Token) : Phrase → Prop
  | .statement node | .expression node | .assignment node =>
    node.All Node.Spaced ∧ Alike node.tokens tokens ∧ node.ClearOf .sum rest
  | .statements body =>
    Node.AllIn Node.Spaced body ∧ (Node.block body).Spaced ∧
      ∀ first ∈ body.head?, Alike first.tokens tokens
  | .slots list => Node.AllSlots Node.Spaced list
  | .binary level node => node.All Node.Spaced ∧ Alike node.tokens tokens ∧ node.ClearOf level rest
  | .chain level left node =>
    left.All Node.Spaced → left.ClearOf .product tokens →
      node.All Node.Spaced ∧ (∃ suffix, node.tokens = left.tokens ++ suffix) ∧
        node.ClearOf level rest
  | .operand _ node | .unary node | .primary node =>
    node.All Node.Spaced ∧ Alike node.tokens tokens ∧ node.ClearOf .product rest
  | .arguments nodes => Node.AllIn Node.Spaced nodes
  | .signature .. | .parameters _ => True

/-- What is read off tokens is spaced. -/
theorem Reads.spaced {phrase : Phrase} {tokens rest : List Token} (h : Reads phrase tokens rest) :
    phrase.Spaced tokens rest := by
  induction h with
  | statementBlock hdo _ ih =>
    obtain ⟨hall, hbody, -⟩ := ih
    refine ⟨⟨hbody, hall⟩, Token.alike_cons hdo rfl (by decide) _ _, ?_⟩
    exact Node.clearOf_of_endsInName (Token.endsInName_append_singleton _ _)
  | statementExpression hdo _ ih =>
    obtain ⟨hall, halike, hclear⟩ := ih
    exact ⟨⟨halike.ahead (fun kind _ => kind ≠ .keywordDo) hdo, hall⟩, halike, hclear⟩
  | statementsEnd _ => exact ⟨trivial, .nil, by simp⟩
  | @statementsCons _ middle _ first body _ _ _ ihfirst ihbody =>
    obtain ⟨hall, halike, hclear⟩ := ihfirst
    obtain ⟨hallBody, hbody, hnext⟩ := ihbody
    refine ⟨⟨hall, hallBody⟩, ?_, by simpa using halike⟩
    refine List.isChain_cons.mpr ⟨fun next hmem hname => ?_, hbody⟩
    exact (hnext next hmem).ahead (fun kind sign => kind ≠ .leftParen ∧ sign = false) (hclear hname)
  | expressionArray hopen _ ih =>
    refine ⟨⟨trivial, ih⟩, Token.alike_cons hopen rfl (by decide) _ _, ?_⟩
    exact Node.clearOf_of_endsInName (Token.endsInName_append_singleton _ _)
  | expressionFunction hkeyword _ _ _ ihbody =>
    obtain ⟨hall, hbody, -⟩ := ihbody
    refine ⟨⟨trivial, hbody, hall⟩, Token.alike_cons hkeyword rfl (by decide) _ _, ?_⟩
    exact Node.clearOf_of_endsInName (Token.endsInName_append_singleton _ _)
  | expressionAssignment _ _ ih => exact ih
  | slotsEnd _ => exact trivial
  | slotsEmpty _ _ ih => exact ih
  | slotsComma _ _ _ _ ihfirst ihslots => exact ⟨ihfirst.1, ihslots⟩
  | slotsLast _ _ _ ihfirst => exact ⟨ihfirst.1, trivial⟩
  | signatureNameless | signatureNamed | parametersEnd | parametersComma | parametersLast =>
    exact trivial
  | assignmentValue _ _ ih => exact ih
  | @assignmentTo _ _ _ _ op left right _ _ _ _ _ ihleft ihright =>
    obtain ⟨hall, halike, -⟩ := ihleft
    obtain ⟨hallRight, -, hclear⟩ := ihright
    refine ⟨⟨trivial, hall, hallRight⟩, halike.append left.tokens_ne_nil _, ?_⟩
    exact hclear.of_append (List.append_cons left.tokens ⟨.operator, op.text⟩ right.tokens)
  | @binary _ _ _ _ left node _ _ ihleft ihchain =>
    obtain ⟨hall, halike, hclear⟩ := ihleft
    obtain ⟨hallNode, ⟨suffix, hsuffix⟩, hclear'⟩ := ihchain hall hclear
    refine ⟨hallNode, ?_, hclear'⟩
    rw [hsuffix]
    exact halike.append left.tokens_ne_nil suffix
  | chainEnd hstop =>
    -- what follows was left alone by the operands before and is now left alone by this level
    intro hall hclear
    refine ⟨hall, ⟨[], (List.append_nil _).symm⟩, fun hname token htoken => ?_⟩
    exact Level.clear_of_operator? (hclear hname token htoken) (hstop token htoken)
  | @chainCons _ left right _ _ _ _ _ op _ _ _ ihright ihchain =>
    intro hall _
    obtain ⟨hallRight, -, hclear⟩ := ihright
    have hclear' : (Node.binary op left right).ClearOf .product _ :=
      hclear.of_append (List.append_cons left.tokens ⟨.operator, op.text⟩ right.tokens)
    obtain ⟨hallNode, ⟨suffix, hsuffix⟩, hrest⟩ := ihchain ⟨trivial, hall, hallRight⟩ hclear'
    refine ⟨hallNode, ⟨⟨.operator, op.text⟩ :: right.tokens ++ suffix, ?_⟩, hrest⟩
    rw [hsuffix]
    exact List.append_assoc _ _ _
  | operandSum _ ih => exact ih
  | operandProduct _ ih => exact ih
  | @unarySign token _ _ op operand hop _ ih =>
    obtain ⟨hall, -, hclear⟩ := ih
    obtain ⟨hkind, hlexeme⟩ := sign?_eq_some_iff.mp hop
    refine ⟨⟨trivial, hall⟩, ?_, hclear.of_append List.singleton_append.symm⟩
    have htoken : token = ⟨.operator, op.text⟩ := by
      rw [← hkind, ← hlexeme]
    rw [htoken]
    rfl
  | unaryPrimary _ _ ih => exact ih
  | primaryNumber hkind _ | primaryString hkind | primaryTrue hkind | primaryFalse hkind =>
    exact ⟨trivial, Token.alike_cons hkind rfl (by decide) _ _, Node.clearOf_of_endsInName rfl⟩
  | primaryGroup hopen _ _ ih =>
    refine ⟨Node.all_spaced_withGrouped ih.1, ?_, Node.clearOf_withGrouped _ _ _⟩
    rw [Node.tokens_eq_wrap, Node.grouped_withGrouped]
    exact Token.alike_cons hopen rfl (by decide) _ _
  | primaryBlock hdo _ ih =>
    obtain ⟨hall, hbody, -⟩ := ih
    refine ⟨⟨hbody, hall⟩, Token.alike_cons hdo rfl (by decide) _ _, ?_⟩
    exact Node.clearOf_of_endsInName (Token.endsInName_append_singleton _ _)
  | primaryCall hname _ _ ih =>
    refine ⟨⟨trivial, ih⟩, Token.alike_cons hname rfl (by decide) _ _, ?_⟩
    exact Node.clearOf_of_endsInName (Token.endsInName_append_singleton _ _)
  | primaryName hname hstop =>
    exact ⟨trivial, Token.alike_cons hname rfl (by decide) _ _, fun _ => hstop⟩
  | argumentsEnd _ => exact trivial
  | argumentsComma _ _ _ _ ihfirst iharguments => exact ⟨ihfirst.1, iharguments⟩
  | argumentsLast _ _ _ ihfirst => exact ⟨ihfirst.1, trivial⟩

end Parser

end ScriptConsole
