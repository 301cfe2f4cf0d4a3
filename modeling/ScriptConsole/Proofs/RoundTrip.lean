import ScriptConsole.Proofs.EmptySlots
import ScriptConsole.Proofs.Neighbours

/-!
# Printed trees are parsed back

The tokens of a tree that is regular and spaced are read as the tree again, with marks on the
statements that printing puts between parentheses and without the empty slots that stand last in
arrays (`Node.statementReads`). With the scanner and the parser around it this is the round trip of a
parsed tree through its printed text.
-/

namespace ScriptConsole

lemma Ahead.append {p : Token → Prop} {tokens more : List Token} (h : Ahead p tokens)
    (hmore : tokens ≠ [] ∨ Ahead p more) : Ahead p (tokens ++ more) := by
  cases tokens with
  | nil => exact hmore.resolve_left (by simp)
  | cons token tokens => exact ahead_cons.mpr (ahead_cons.mp h)

namespace Parser

/-- The token does not continue an expression in front of it. -/
def Ends (token : Token) : Prop :=
  operator? .sum token = none ∧ operator? .product token = none ∧ looksLikeAssignment token = false

lemma ends_of_kind {token : Token} (h : token.kind ≠ .operator) : Ends token := by
  simp [Ends, operator?, looksLikeAssignment, h]

lemma operator?_assign (level : Level) (op : AssignOp) :
    operator? level ⟨.operator, op.text⟩ = none := by
  cases op with
  | assign => cases level <;> rfl
  | compound op => cases level <;> cases op <;> rfl

/-- The kinds of tokens that a rule never starts with when it succeeds. -/
def Phrase.avoids : Phrase → List Token.Kind
  | .statement _ | .expression _ => [.keywordEnd, .rightBracket, .comma, .rightParen]
  | .assignment _ | .binary _ _ | .operand _ _ | .unary _ =>
    [.keywordEnd, .rightBracket, .comma, .rightParen, .leftBracket, .keywordFunction]
  | .primary _ =>
    [.keywordEnd, .rightBracket, .comma, .rightParen, .leftBracket, .keywordFunction, .operator]
  | _ => []

lemma Reads.ahead {phrase : Phrase} {tokens rest : List Token} (h : Reads phrase tokens rest) :
    Ahead (·.kind ∉ phrase.avoids) tokens := by
  have hnil (list : List Token) : Ahead (fun token => token.kind ∉ ([] : List Token.Kind)) list :=
    fun _ _ => List.not_mem_nil
  induction h with
  | statementBlock hkind _ | expressionArray hkind _ | expressionFunction hkind _ _
  | primaryNumber hkind _ | primaryString hkind | primaryTrue hkind | primaryFalse hkind
  | primaryGroup hkind _ _ | primaryBlock hkind _ | primaryCall hkind _ _ | primaryName hkind _ =>
    rw [ahead_cons, hkind]
    simp [Phrase.avoids]
  | unarySign hop _ _ =>
    rw [ahead_cons, (sign?_eq_some_iff.mp hop).1]
    simp [Phrase.avoids]
  | statementExpression _ _ ih | assignmentValue _ _ ih | operandSum _ ih | operandProduct _ ih =>
    exact ih
  | expressionAssignment _ _ ih =>
    exact ih.imp fun token hkind hmem => hkind (List.mem_append_left [_, _] hmem)
  | unaryPrimary _ _ ih =>
    exact ih.imp fun token hkind hmem => hkind (List.mem_append_left [_] hmem)
  | assignmentTo _ _ _ _ _ ih _ | binary _ _ ih _ => exact ih
  | _ => exact hnil _

lemma Reads.kind_ne {phrase : Phrase} {tokens rest : List Token} (h : Reads phrase tokens rest)
    {kind : Token.Kind} (hkind : kind ∈ phrase.avoids) : Ahead (·.kind ≠ kind) tokens := by
  refine h.ahead.imp fun token hmem heq => ?_
  rw [heq] at hmem
  exact hmem hkind

/-- The tokens start with the operands of a level up to `left`, whatever follows in the chain. -/
def Leads (level : Level) (left : Node) (tokens rest : List Token) : Prop :=
  ∀ node rest', Reads (.chain level left node) rest rest' → Reads (.binary level node) tokens rest'

/-- A slot starts with neither of the tokens that end a slot. -/
lemma Reads.slot_start {node : Node} {tokens rest : List Token}
    (h : Reads (.expression node) tokens rest) :
    Ahead (fun token => token.kind ≠ .rightBracket ∧ token.kind ≠ .comma) tokens :=
  (h.kind_ne (by simp [Phrase.avoids])).and (h.kind_ne (by simp [Phrase.avoids]))

section

variable {level : Level} {node left right : Node} {tokens middle rest : List Token}

lemma Reads.leads (h : Reads (.operand level node) tokens rest) : Leads level node tokens rest :=
  fun _ _ hchain => .binary h hchain

lemma Leads.operator {op : BinaryOp} (h : Leads level left tokens (⟨.operator, op.text⟩ :: middle))
    (hlevel : levelOf op = level)
    (hright : Reads (.operand level right) middle rest) :
    Leads level (.binary op left right) tokens rest :=
  fun _ _ hchain => h _ _ (.chainCons (operator?_eq_some_iff.mpr ⟨⟨rfl, rfl⟩, hlevel⟩) hright hchain)

lemma Leads.binary (h : Leads level node tokens rest)
    (hstop : Ahead (operator? level · = none) rest) : Reads (.binary level node) tokens rest :=
  h _ _ (.chainEnd hstop)

lemma Leads.sum (h : Leads .product node tokens rest)
    (hstop : Ahead (operator? .product · = none) rest) : Leads .sum node tokens rest :=
  (Reads.operandSum (h.binary hstop)).leads

lemma Reads.expression_of_assignment (h : Reads (.assignment node) tokens rest) :
    Reads (.expression node) tokens rest := by
  have hbracket : Ahead (·.kind ≠ .leftBracket) tokens := h.kind_ne (by simp [Phrase.avoids])
  exact .expressionAssignment (hbracket.and (h.kind_ne (by simp [Phrase.avoids]))) h

lemma Leads.expression (h : Leads .sum node tokens rest) (hends : Ahead Ends rest) :
    Reads (.expression node) tokens rest := by
  have hnode := h.binary (hends.imp fun _ ht => ht.1)
  exact (Reads.assignmentValue hnode (hends.imp fun _ ht => ht.2.2)).expression_of_assignment

lemma Reads.unary_of_primary (h : Reads (.primary node) tokens rest) :
    Reads (.unary node) tokens rest := by
  have hop : Ahead (·.kind ≠ .operator) tokens := h.kind_ne (by simp [Phrase.avoids])
  exact .unaryPrimary (hop.imp fun token hkind => by simp [sign?, hkind]) h

lemma Reads.expression_of_primary (h : Reads (.primary node) tokens rest) (hends : Ahead Ends rest) :
    Reads (.expression node) tokens rest :=
  ((Reads.operandProduct h.unary_of_primary).leads.sum (hends.imp fun _ ht => ht.2.1)).expression hends

end

/-- Nothing follows that would make a call of a name at the end of the tokens. -/
def Uncalled (tokens rest : List Token) : Prop :=
  Token.endsInName tokens = true → Ahead Level.product.Clear rest

/-- The tokens are read as the tree by the rule that binds as tightly as the bound, if nothing follows
that would change the end of the tree. -/
def ReadsAs (tokens : List Token) (node : Node) : Nat → Prop
  | 0 => ∀ rest, Uncalled tokens rest → Ahead Ends rest →
    Reads (.expression node) (tokens ++ rest) rest
  | 1 => ∀ rest, Uncalled tokens rest → Ahead (operator? .product · = none) rest →
    Leads .sum node (tokens ++ rest) rest
  | 2 => ∀ rest, Uncalled tokens rest → Leads .product node (tokens ++ rest) rest
  | _ + 3 => ∀ rest, Uncalled tokens rest → Reads (.unary node) (tokens ++ rest) rest

lemma uncalled_cons {token : Token} (tokens rest : List Token) (hparen : token.kind ≠ .leftParen) :
    Uncalled tokens (token :: rest) :=
  fun _ => ahead_cons.mpr hparen

lemma ahead_ends_cons {token : Token} (rest : List Token) (hop : token.kind ≠ .operator) :
    Ahead Ends (token :: rest) :=
  ahead_cons.mpr (ends_of_kind hop)

/-- Tokens end where the last of them do. -/
lemma Uncalled.of_append {before last rest : List Token} (h : Uncalled (before ++ last) rest)
    (hne : last ≠ []) : Uncalled last rest := by
  intro hname
  refine h ?_
  rwa [Token.endsInName_append hne]

section

variable {tokens tokens' : List Token} {node left right : Node} {bound : Nat}

lemma ReadsAs.loosen (h : ReadsAs tokens node (bound + 1)) : ReadsAs tokens node bound := by
  match bound with
  | 0 =>
    intro rest hclear hends
    exact (h rest hclear (hends.imp fun _ ht => ht.2.1)).expression hends
  | 1 =>
    intro rest hclear hstop
    exact (h rest hclear).sum hstop
  | 2 =>
    intro rest hclear
    exact (Reads.operandProduct (h rest hclear)).leads
  | _ + 3 => exact h

/-- What is read by a rule that binds tighter is read by every rule that binds less tightly. -/
lemma ReadsAs.mono {bound' : Nat} (h : ReadsAs tokens node bound) (hle : bound' ≤ bound) :
    ReadsAs tokens node bound' := by
  induction hle with
  | refl => exact h
  | step _ ih => exact ih h.loosen

lemma readsAs_of_primary
    (h : ∀ rest, Uncalled tokens rest → Reads (.primary node) (tokens ++ rest) rest) :
    ReadsAs tokens node 4 :=
  fun rest hclear => (h rest hclear).unary_of_primary

lemma ReadsAs.parenthesise (h : ReadsAs tokens node 0) (rest : List Token) :
    Reads (.primary (node.withGrouped true)) (Token.parenthesise tokens ++ rest) rest := by
  have hinner := h (Token.closing :: rest) (uncalled_cons tokens rest (by decide))
    (ahead_ends_cons rest (by decide))
  have htokens : Token.parenthesise tokens ++ rest =
      Token.opening :: (tokens ++ Token.closing :: rest) := by
    simp [Token.parenthesise]
  rw [htokens]
  exact .primaryGroup rfl hinner rfl

lemma ReadsAs.unary (op : UnaryOp) (hne : tokens ≠ []) (h : ReadsAs tokens node 3) :
    ReadsAs (⟨.operator, op.text⟩ :: tokens) (.unary op node) 3 := by
  intro rest hclear
  rw [← List.singleton_append] at hclear
  exact .unarySign (sign?_eq_some_iff.mpr ⟨rfl, rfl⟩) (h rest (hclear.of_append hne))

lemma ReadsAs.reads_assignment (op : AssignOp) (htarget : isTarget left = true) {rest : List Token}
    (hleft : ReadsAs tokens left 1) (hright : Reads (.expression right) tokens' rest) :
    Reads (.expression (.assignment op left right)) (tokens ++ ⟨.operator, op.text⟩ :: tokens')
      rest := by
  have hnone (level : Level) : Ahead (operator? level · = none) (⟨.operator, op.text⟩ :: tokens') :=
    ahead_cons.mpr (operator?_assign level op)
  have hsum := (hleft _ (uncalled_cons tokens _ (by simp)) (hnone .product)).binary (hnone .sum)
  have hop : IsOperator op.text ⟨.operator, op.text⟩ := ⟨rfl, rfl⟩
  obtain ⟨hshape, hmeaning⟩ := looksLikeAssignment_and_iff.mpr hop
  exact (Reads.assignmentTo hsum hshape hmeaning htarget hright).expression_of_assignment

lemma ReadsAs.assignment (op : AssignOp) (htarget : isTarget left = true) (hne : tokens' ≠ [])
    (hleft : ReadsAs tokens left 1) (hright : ReadsAs tokens' right 0) :
    ReadsAs (tokens ++ ⟨.operator, op.text⟩ :: tokens') (.assignment op left right) 0 := by
  intro rest hclear hends
  rw [List.append_cons] at hclear
  have hvalue := hright rest (hclear.of_append hne) hends
  have hreads := hleft.reads_assignment op htarget hvalue
  rwa [← List.cons_append, ← List.append_assoc] at hreads

lemma ReadsAs.binary (op : BinaryOp) (hne : tokens' ≠ [])
    (hleft : ReadsAs tokens left (levelOf op).tightness)
    (hright : ReadsAs tokens' right ((levelOf op).tightness + 1)) :
    ReadsAs (tokens ++ ⟨.operator, op.text⟩ :: tokens') (.binary op left right)
      (levelOf op).tightness := by
  have htokens (rest : List Token) : tokens ++ ⟨.operator, op.text⟩ :: tokens' ++ rest =
      tokens ++ ⟨.operator, op.text⟩ :: (tokens' ++ rest) := by
    simp
  have hclear (rest : List Token) : Uncalled tokens (⟨.operator, op.text⟩ :: rest) :=
    uncalled_cons tokens rest (by simp)
  rw [List.append_cons]
  cases hlevel : levelOf op with
  | sum =>
    rw [hlevel] at hleft hright
    intro rest hclear' hstop
    have hnone : operator? .product ⟨.operator, op.text⟩ = none := by
      cases op <;> first | rfl | cases hlevel
    have hfirst := hleft _ (hclear (tokens' ++ rest)) (ahead_cons.mpr hnone)
    have hsecond := (hright rest (hclear'.of_append hne)).binary hstop
    rw [← List.append_cons, htokens]
    exact hfirst.operator hlevel (.operandSum hsecond)
  | product =>
    rw [hlevel] at hleft hright
    intro rest hclear'
    have hfirst := hleft _ (hclear (tokens' ++ rest))
    have hsecond := hright rest (hclear'.of_append hne)
    rw [← List.append_cons, htokens]
    exact hfirst.operator hlevel (.operandProduct hsecond)

end

end Parser

namespace Node

open ScriptConsole.Parser (Reads Leads Ends ReadsAs ahead_ends_cons readsAs_of_primary)
open Token (opening closing comma blockEnd)

/-- What it takes of each node for the tokens of a tree to be read. -/
def Legible (node : Node) : Prop :=
  node.Regular ∧ node.Spaced

/-- What it takes of each node for a tree to be read back. -/
def Printable (node : Node) : Prop :=
  node.Regular ∧ node.Spaced ∧ node.EndsFilled

lemma allIn_regular_of_legible {nodes : List Node} (h : AllIn Legible nodes) :
    AllIn Regular nodes :=
  allIn_imp₂ (fun _ hnode _ => hnode.1) nodes h h

/-- The tree that the tokens of a tree are read as. -/
def reread (node : Node) : Node :=
  node.groupSigned.trimmed

/-- The tokens of a tree are read by the rule that binds as tightly as the bound. -/
def ReadsBack (bound : Nat) (node : Node) : Prop :=
  ReadsAs node.tokens node.reread bound

lemma clearOf_cons {token : Token} (node : Node) (rest : List Token)
    (hparen : token.kind ≠ .leftParen) : node.ClearOf .product (token :: rest) :=
  fun _ => ahead_cons.mpr hparen

lemma reread_withGrouped (node : Node) (g : Bool) :
    (node.withGrouped g).reread = node.reread.withGrouped g := by
  cases node <;> rfl

/-- It suffices to read a tree without its own parentheses by its tightest rule. -/
lemma readsBack_of_tightness {node : Node} {bound : Nat} (hbinds : node.Binds bound)
    (h : (node.withGrouped false).ReadsBack node.tightness) : node.ReadsBack bound := by
  cases hgrouped : node.grouped with
  | false =>
    rw [withGrouped_grouped hgrouped] at h
    exact h.mono (hbinds.2 hgrouped)
  | true =>
    -- parentheses make a primary expression of anything that is an expression
    have hgroup : node.ReadsBack (bound + 3) := by
      intro rest _
      have hprimary := (h.mono (Nat.zero_le _)).parenthesise rest
      rw [← reread_withGrouped, withGrouped_withGrouped, withGrouped_grouped hgrouped] at hprimary
      rw [tokens_eq_wrap, hgrouped]
      exact hprimary.unary_of_primary
    exact hgroup.mono (Nat.le_add_right bound 3)

/-- The target of an assignment binds as tightly as anything. -/
lemma binds_of_isTarget {node : Node} (h : Parser.isTarget node = true) {bound : Nat}
    (hbound : bound ≤ 4) : node.Binds bound := by
  obtain ⟨name, g, rfl⟩ | ⟨callee, arguments, g, rfl⟩ := isTarget_iff.mp h
  · exact ⟨rfl, fun _ => hbound⟩
  · exact ⟨rfl, fun _ => hbound⟩

lemma isTarget_reread {node : Node} (h : Parser.isTarget node = true) :
    Parser.isTarget node.reread = true := by
  cases node <;> exact h

lemma reads_parameters (params : List String) (rest : List Token) :
    Reads (.parameters params) ([comma].intercalate (params.map fun param => [⟨.identifier, param⟩]) ++
      closing :: rest) rest := by
  induction params with
  | nil => exact .parametersEnd rfl
  | cons param params ih =>
    cases params with
    | nil => exact @Reads.parametersLast ⟨.identifier, param⟩ closing rest rfl rfl
    | cons next params =>
      rw [List.map_cons, List.map_cons, List.intercalate_cons_cons]
      exact @Reads.parametersComma ⟨.identifier, param⟩ comma _ rest _ rfl rfl ih

lemma reads_signature (name : Option String) (params : List String) (rest : List Token) :
    Reads (.signature name params) ((headTokens name params).tail ++ rest) rest := by
  have hparams := reads_parameters params rest
  cases name with
  | none =>
    refine @Reads.signatureNameless opening _ _ _ rfl ?_
    simpa [headTokens] using hparams
  | some name =>
    refine @Reads.signatureNamed ⟨.identifier, name⟩ opening _ _ _ rfl rfl ?_
    simpa [headTokens] using hparams

lemma reads_arguments {nodes : List Node} (h : ∀ node ∈ nodes, node.ReadsBack 0)
    (rest : List Token) :
    Reads (.arguments (trimmedAll (groupSignedAll nodes)))
      ([comma].intercalate (tokensAll nodes) ++ closing :: rest) rest := by
  induction nodes with
  | nil => exact .argumentsEnd rfl
  | cons node nodes ih =>
    obtain ⟨hnode, hnodes⟩ := List.forall_mem_cons.mp h
    cases nodes with
    | nil =>
      have hlast := hnode (closing :: rest) (clearOf_cons node rest (by decide))
        (ahead_ends_cons rest (by decide))
      have htokens : [comma].intercalate (tokensAll [node]) = node.tokens := by
        simp [tokensAll]
      rw [htokens]
      exact .argumentsLast (hlast.kind_ne (by simp [Parser.Phrase.avoids])) hlast rfl
    | cons next nodes =>
      let others := [comma].intercalate (tokensAll (next :: nodes)) ++ closing :: rest
      have hfirst := hnode (comma :: others) (clearOf_cons node others (by decide))
        (ahead_ends_cons others (by decide))
      have htokens : [comma].intercalate (tokensAll (node :: next :: nodes)) ++ closing :: rest =
          node.tokens ++ comma :: others := by
        simp [tokensAll, others]
      rw [htokens]
      exact .argumentsComma (hfirst.kind_ne (by simp [Parser.Phrase.avoids])) hfirst rfl (ih hnodes)

/-- Slots are read up to the last one that is followed by a comma or filled. -/
lemma reads_slots {slots : List (Option Node)} (h : ∀ node, some node ∈ slots → node.ReadsBack 0)
    (rest : List Token) :
    Reads (.slots (dropEmpty (trimmedSlots (groupSignedSlots slots))))
      ([comma].intercalate (tokensSlots slots) ++ ⟨.rightBracket, "]"⟩ :: rest) rest := by
  induction slots with
  | nil => exact .slotsEnd rfl
  | cons slot slots ih =>
    cases slots with
    | nil =>
      cases slot with
      | none => exact .slotsEnd rfl
      | some node =>
        have hlast := h node (by simp) (⟨.rightBracket, "]"⟩ :: rest)
          (clearOf_cons node rest (by simp)) (ahead_ends_cons rest (by simp))
        have htokens : [comma].intercalate (tokensSlots [some node]) = node.tokens := by
          simp [tokensSlots]
        rw [htokens]
        exact .slotsLast hlast.slot_start hlast rfl
    | cons next slots =>
      have hothers := ih fun node hmem => h node (List.mem_cons_of_mem _ hmem)
      have hdrop (slot : Option Node) :
          dropEmpty (slot :: trimmedSlots (groupSignedSlots (next :: slots))) =
            slot :: dropEmpty (trimmedSlots (groupSignedSlots (next :: slots))) := by
        cases next <;> exact dropEmpty_cons_cons _ _ _
      cases slot with
      | none =>
        have htokens : [comma].intercalate (tokensSlots (none :: next :: slots)) =
            comma :: [comma].intercalate (tokensSlots (next :: slots)) := by
          cases next <;> simp [tokensSlots]
        rw [htokens, groupSignedSlots, trimmedSlots, hdrop]
        exact .slotsEmpty rfl hothers
      | some node =>
        let others := [comma].intercalate (tokensSlots (next :: slots)) ++ ⟨.rightBracket, "]"⟩ :: rest
        have hfirst := h node (by simp) (comma :: others)
          (clearOf_cons node others (by decide)) (ahead_ends_cons others (by decide))
        have htokens : [comma].intercalate (tokensSlots (some node :: next :: slots)) ++
            ⟨.rightBracket, "]"⟩ :: rest = node.tokens ++ comma :: others := by
          cases next <;> simp [tokensSlots, others]
        rw [htokens, groupSignedSlots, trimmedSlots, hdrop]
        exact .slotsComma hfirst.slot_start hfirst rfl hothers

/-- The tokens of a statement behind the first one of a block. -/
def laterTokens (node : Node) : List Token :=
  if Token.startsWithSign node.tokens then Token.parenthesise node.tokens else node.tokens

/-- The tokens of a statement are read as a statement. -/
def StatementReads (node : Node) : Prop :=
  ∀ rest, node.ClearOf .product rest → Ahead Ends rest →
    Reads (.statement node.reread) (node.tokens ++ rest) rest

lemma laterTokens_of_clear {node : Node} (h : Ahead Parser.Level.sum.Clear node.tokens) :
    node.laterTokens = node.tokens := by
  obtain ⟨token, tokens, htokens⟩ := List.exists_cons_of_ne_nil node.tokens_ne_nil
  rw [htokens, ahead_cons] at h
  have hsign : Token.startsWithSign node.tokens = false := by
    rw [htokens]
    exact h.2
  rw [laterTokens, hsign]
  rfl

lemma endsInName_of_laterTokens {node : Node} (h : Token.endsInName node.laterTokens = true) :
    Token.endsInName node.tokens = true := by
  rw [laterTokens] at h
  split at h
  · rw [Token.endsInName_parenthesise] at h
    cases h
  · exact h

/-- No statement of a spaced block needs parentheses because of the one behind it. -/
lemma separateAfter_tokensAll {nodes : List Node} {previous : List Token}
    (hfirst : ∀ next ∈ nodes.head?, Token.endsInName previous = true →
      Ahead Parser.Level.sum.Clear next.tokens)
    (hchain : (Node.block nodes).Spaced) :
    Token.separateAfter previous (tokensAll nodes) = previous :: nodes.map laterTokens := by
  induction nodes generalizing previous with
  | nil => rfl
  | cons node nodes ih =>
    have hnext : ∀ next ∈ nodes.head?, Token.endsInName node.laterTokens = true →
        Ahead Parser.Level.sum.Clear next.tokens := by
      intro next hmem hname
      exact (List.isChain_cons.mp hchain).1 next hmem (endsInName_of_laterTokens hname)
    have hprevious : (Token.startsWithParen node.laterTokens && Token.endsInName previous) = false := by
      by_contra hboth
      rw [Bool.not_eq_false, Bool.and_eq_true] at hboth
      obtain ⟨hparen, hname⟩ := hboth
      have hclear := hfirst node rfl hname
      obtain ⟨token, tokens, htokens⟩ := List.exists_cons_of_ne_nil node.tokens_ne_nil
      rw [laterTokens_of_clear hclear, htokens] at hparen
      rw [htokens, ahead_cons] at hclear
      exact hclear.1 (by simpa [Token.startsWithParen] using hparen)
    rw [tokensAll, Token.separateAfter, List.map_cons]
    change (if Token.startsWithParen node.laterTokens && Token.endsInName previous then _ else previous) ::
      Token.separateAfter node.laterTokens (tokensAll nodes) = _
    rw [hprevious, ih hnext hchain.of_cons]
    rfl

lemma ends_of_starts {token : Token} (h : token.Starts) (hsign : token.isSign = false) :
    Ends token := by
  by_cases hkind : token.kind = .operator
  · obtain ⟨op, hlexeme⟩ := h.2 hkind
    rw [Token.isSign, hkind, hlexeme] at hsign
    have htoken : token = ⟨.operator, op.text⟩ := by
      rw [← hkind, ← hlexeme]
    rw [htoken]
    cases op with
    | plus | minus => cases hsign
    | not => exact ⟨rfl, rfl, rfl⟩
  · exact Parser.ends_of_kind hkind

/-- Nothing continues over the start of a statement behind the first one. -/
lemma ahead_ends_laterTokens {node : Node} (h : node.All Regular) (rest : List Token) :
    Ahead Ends (node.laterTokens ++ rest) := by
  rw [laterTokens]
  split
  · exact ahead_ends_cons _ (by decide)
  · next hsign =>
    obtain ⟨token, -, hhead, hstarts, -⟩ := (written_print node h).starts
    obtain ⟨tokens, htokens⟩ := List.head?_eq_some_iff.mp hhead
    rw [htokens] at hsign ⊢
    exact ahead_cons.mpr (ends_of_starts hstarts (Bool.not_eq_true _ ▸ hsign))

section

variable {node : Node} {nodes : List Node}

lemma ahead_ends_later (h : AllIn Regular nodes) (rest : List Token) :
    Ahead Ends ((nodes.map laterTokens).flatten ++ blockEnd :: rest) := by
  cases nodes with
  | nil => exact ahead_ends_cons rest (by decide)
  | cons next nodes =>
    rw [List.map_cons, List.flatten_cons, List.append_assoc]
    exact ahead_ends_laterTokens h.1 _

lemma clearOf_later (hchain : (Node.block (node :: nodes)).Spaced) (rest : List Token) :
    node.ClearOf .product ((nodes.map laterTokens).flatten ++ blockEnd :: rest) := by
  cases nodes with
  | nil => exact clearOf_cons node rest (by decide)
  | cons next nodes =>
    intro hname
    have hclear := hchain.rel hname
    obtain ⟨token, tokens, htokens⟩ := List.exists_cons_of_ne_nil next.tokens_ne_nil
    rw [List.map_cons, laterTokens_of_clear hclear, htokens]
    rw [htokens, ahead_cons] at hclear
    exact ahead_cons.mpr hclear.1

/-- A statement behind the first one is read with the parentheses it was printed with. -/
lemma reads_laterTokens (hall : node.All Regular) (his : node.IsStatement)
    (h : node.StatementReads) {rest : List Token} (hclear : node.ClearOf .product rest)
    (hends : Ahead Ends rest) :
    Reads (.statement (if startsWithSign node.print then groupInner node.groupSigned
      else node.groupSigned).trimmed) (node.laterTokens ++ rest) rest := by
  rw [laterTokens, (written_print node hall).startsWithSign_eq]
  split
  · next hsign =>
    obtain ⟨body, rfl⟩ | ⟨inner, rfl⟩ := his
    -- a block starts with `do`, so only an expression can start with a sign
    · cases hsign
    · have hinner : inner.ReadsBack 0 := by
        intro rest' hclear' hends'
        cases h rest' hclear' hends' with
        | statementExpression _ hinner => exact hinner
      have hprimary := hinner.parenthesise rest
      rw [reread, ← trimmed_withGrouped] at hprimary
      exact .statementExpression (ahead_cons.mpr (by decide)) (hprimary.expression_of_primary hends)
  · exact h rest hclear hends

lemma reads_later (hall : AllIn Regular nodes) (his : ∀ node ∈ nodes, node.IsStatement)
    (hchain : (Node.block nodes).Spaced) (h : ∀ node ∈ nodes, node.StatementReads)
    (rest : List Token) :
    Reads (.statements (trimmedAll (groupSignedLater nodes)))
      ((nodes.map laterTokens).flatten ++ blockEnd :: rest) rest := by
  induction nodes with
  | nil => exact .statementsEnd rfl
  | cons node nodes ih =>
    obtain ⟨his, hisLater⟩ := List.forall_mem_cons.mp his
    obtain ⟨h, hlater⟩ := List.forall_mem_cons.mp h
    have hnode := reads_laterTokens hall.1 his h (clearOf_later hchain rest)
      (ahead_ends_later hall.2 rest)
    rw [List.map_cons, List.flatten_cons, List.append_assoc]
    exact .statementsCons (hnode.kind_ne (by simp [Parser.Phrase.avoids])) hnode
      (ih hall.2 hisLater hchain.of_cons hlater)

/-- The statements of a block are read back. -/
lemma reads_body (hall : AllIn Regular nodes) (his : ∀ node ∈ nodes, node.IsStatement)
    (hchain : (Node.block nodes).Spaced) (h : ∀ node ∈ nodes, node.StatementReads)
    (rest : List Token) :
    Reads (.statements (trimmedAll (groupSignedBody nodes)))
      ((Token.separate (tokensAll nodes)).flatten ++ blockEnd :: rest) rest := by
  cases nodes with
  | nil => exact .statementsEnd rfl
  | cons first later =>
    obtain ⟨-, hisLater⟩ := List.forall_mem_cons.mp his
    obtain ⟨h, hlater⟩ := List.forall_mem_cons.mp h
    have hnext := (List.isChain_cons.mp hchain).1
    have hfirst := h _ (clearOf_later hchain rest) (ahead_ends_later hall.2 rest)
    rw [tokensAll, Token.separate, separateAfter_tokensAll hnext hchain.of_cons, List.flatten_cons,
      List.append_assoc]
    exact .statementsCons (hfirst.kind_ne (by simp [Parser.Phrase.avoids])) hfirst
      (reads_later hall.2 hisLater hchain.of_cons hlater rest)

end

section

variable {node left right operand : Node} {nodes : List Node}

lemma readsBack_identifier (name : String) : (Node.identifier name).ReadsBack 4 :=
  readsAs_of_primary fun rest hclear => @Reads.primaryName ⟨.identifier, name⟩ rest rfl (hclear rfl)

lemma readsBack_literal {value : Literal} {g : Bool} (h : (Node.literal value g).Regular) :
    (Node.literal value).ReadsBack 4 := by
  refine readsAs_of_primary fun rest _ => ?_
  cases value with
  | number n => exact .primaryNumber rfl (Number.ofDecimal?_text h.1)
  | string s =>
    have hvalue : (Literal.string s).token.stringValue = s := by
      simp [Literal.token, Token.stringValue, Text.Quoted.content_enclose]
    have hreads := @Reads.primaryString (Literal.string s).token rest rfl
    rw [hvalue] at hreads
    exact hreads
  | bool b =>
    cases b with
    | false => exact .primaryFalse rfl
    | true => exact .primaryTrue rfl
  | null => exact h.elim

lemma readsBack_array {slots : List (Option Node)}
    (h : ∀ node, some node ∈ slots → node.ReadsBack 0) : (Node.array slots).ReadsBack 0 := by
  intro rest _ _
  have hslots := reads_slots h rest
  rw [List.append_cons] at hslots
  exact .expressionArray rfl hslots

lemma readsBack_function (name : Option String) (params : List String)
    (hbody : ∀ rest, Reads (.statements (trimmedAll (groupSignedBody nodes)))
      ((Token.separate (tokensAll nodes)).flatten ++ blockEnd :: rest) rest) :
    (Node.function name params (.block nodes)).ReadsBack 0 := by
  intro rest _ _
  have hsignature := reads_signature name params
    ((Token.separate (tokensAll nodes)).flatten ++ blockEnd :: rest)
  have htokens : (Node.function name params (.block nodes)).tokens ++ rest =
      ⟨.keywordFunction, "function"⟩ :: ((headTokens name params).tail ++
        ((Token.separate (tokensAll nodes)).flatten ++ blockEnd :: rest)) := by
    simp [tokens, wrapTokens, headTokens]
  rw [htokens]
  exact .expressionFunction rfl hsignature (hbody rest)

lemma readsBack_block
    (hbody : ∀ rest, Reads (.statements (trimmedAll (groupSignedBody nodes)))
      ((Token.separate (tokensAll nodes)).flatten ++ blockEnd :: rest) rest) :
    (Node.block nodes).ReadsBack 4 := by
  refine readsAs_of_primary fun rest _ => ?_
  have hreads := hbody rest
  rw [List.append_cons] at hreads
  exact .primaryBlock rfl hreads

lemma readsBack_call (callee : String) (h : ∀ node ∈ nodes, node.ReadsBack 0) :
    (Node.call callee nodes).ReadsBack 4 := by
  refine readsAs_of_primary fun rest _ => ?_
  have harguments := reads_arguments h rest
  rw [List.append_cons] at harguments
  exact @Reads.primaryCall ⟨.identifier, callee⟩ opening _ _ _ rfl rfl harguments

end

mutual

/-- The tokens of an expression are read back by every rule it binds tightly enough for. -/
lemma readsBack (node : Node) (h : node.All Legible) {bound : Nat} (hbinds : node.Binds bound) :
    node.ReadsBack bound := by
  match node, h with
  | .identifier name g, _ => exact readsBack_of_tightness hbinds (readsBack_identifier name)
  | .literal value g, h => exact readsBack_of_tightness hbinds (readsBack_literal h.1)
  | .array slots g, h =>
    obtain ⟨⟨hslots, -⟩, hall⟩ := h
    have hreads := readsBackSlots slots hall hslots
    exact readsBack_of_tightness hbinds (readsBack_array hreads)
  | .function name params body g, h =>
    obtain ⟨⟨⟨-, -, inner, rfl⟩, -⟩, ⟨⟨his, hchain⟩, hall⟩⟩ := h
    have hbody := reads_body (allIn_regular_of_legible hall) his hchain (statementReadsBody inner hall his)
    exact readsBack_of_tightness hbinds (readsBack_function name params hbody)
  | .block body g, h =>
    obtain ⟨⟨his, hchain⟩, hall⟩ := h
    have hbody := reads_body (allIn_regular_of_legible hall) his hchain (statementReadsBody body hall his)
    exact readsBack_of_tightness hbinds (readsBack_block hbody)
  | .statement inner g, _ => cases hbinds.1
  | .assignment op left right g, h =>
    obtain ⟨⟨⟨htarget, hright⟩, -⟩, hallLeft, hallRight⟩ := h
    rw [← isTarget_iff] at htarget
    have hleft : left.ReadsBack 1 := readsBack left hallLeft (binds_of_isTarget htarget (by decide))
    exact readsBack_of_tightness hbinds (hleft.assignment op (isTarget_reread htarget)
      right.tokens_ne_nil (readsBack right hallRight hright))
  | .binary op left right g, h =>
    obtain ⟨⟨⟨hleft, hright⟩, -⟩, hallLeft, hallRight⟩ := h
    exact readsBack_of_tightness hbinds ((readsBack left hallLeft hleft).binary op right.tokens_ne_nil
      (readsBack right hallRight hright))
  | .unary op operand g, h =>
    obtain ⟨⟨hoperand, -⟩, hall⟩ := h
    exact readsBack_of_tightness hbinds ((readsBack operand hall hoperand).unary op operand.tokens_ne_nil)
  | .call callee arguments g, h =>
    obtain ⟨⟨⟨-, harguments⟩, -⟩, hall⟩ := h
    have hreads := readsBackAll arguments hall harguments
    exact readsBack_of_tightness hbinds (readsBack_call callee hreads)

lemma readsBackAll (nodes : List Node) (h : AllIn Legible nodes)
    (hbinds : ∀ node ∈ nodes, node.Binds 0) : ∀ node ∈ nodes, node.ReadsBack 0 := by
  match nodes, h with
  | [], _ => exact List.forall_mem_nil _
  | node :: rest, h =>
    obtain ⟨hnode, hrest⟩ := List.forall_mem_cons.mp hbinds
    exact List.forall_mem_cons.mpr ⟨readsBack node h.1 hnode, readsBackAll rest h.2 hrest⟩

lemma readsBackSlots (slots : List (Option Node)) (h : AllSlots Legible slots)
    (hbinds : ∀ node, some node ∈ slots → node.Binds 0) :
    ∀ node, some node ∈ slots → node.ReadsBack 0 := by
  match slots, h with
  | [], _ => simp
  | none :: rest, h =>
    intro node hmem
    exact readsBackSlots rest h (fun n hn => hbinds n (List.mem_cons_of_mem _ hn)) node (by simpa using hmem)
  | some first :: rest, h =>
    intro node hmem
    obtain heq | hmem := List.mem_cons.mp hmem
    · cases heq
      exact readsBack first h.1 (hbinds first List.mem_cons_self)
    · exact readsBackSlots rest h.2 (fun n hn => hbinds n (List.mem_cons_of_mem _ hn)) node hmem

lemma statementReadsBody (nodes : List Node) (h : AllIn Legible nodes)
    (his : ∀ node ∈ nodes, node.IsStatement) : ∀ node ∈ nodes, node.StatementReads := by
  match nodes, h with
  | [], _ => exact List.forall_mem_nil _
  | node :: rest, h =>
    obtain ⟨hnode, hrest⟩ := List.forall_mem_cons.mp his
    exact List.forall_mem_cons.mpr ⟨statementReads node h.1 hnode, statementReadsBody rest h.2 hrest⟩

/-- The tokens of a statement are read. -/
lemma statementReads (node : Node) (h : node.All Legible) (his : node.IsStatement) :
    node.StatementReads := by
  match node, h with
  | .block body g, h =>
    obtain ⟨_, heq⟩ | ⟨_, heq⟩ := his <;> cases heq
    obtain ⟨⟨his, hchain⟩, hall⟩ := h
    intro rest _ _
    have hbody := reads_body (allIn_regular_of_legible hall) his hchain
      (statementReadsBody body hall his) rest
    rw [List.append_cons] at hbody
    exact .statementBlock rfl hbody
  | .statement inner g, h =>
    obtain ⟨_, heq⟩ | ⟨_, heq⟩ := his <;> cases heq
    obtain ⟨⟨hbinds, hdo⟩, hall⟩ := h
    intro rest hclear hends
    exact .statementExpression (hdo.append (.inl inner.tokens_ne_nil))
      (readsBack inner hall hbinds rest hclear hends)
  | .identifier .., _ | .literal .., _ | .array .., _ | .function .., _ | .assignment .., _
  | .binary .., _ | .unary .., _ | .call .., _ => obtain ⟨_, heq⟩ | ⟨_, heq⟩ := his <;> cases heq

end

lemma statementReadsBack (node : Node) (h : node.All Printable) (his : node.IsStatement)
    (rest : List Token) (hclear : node.ClearOf .product rest) (hends : Ahead Ends rest) :
    Reads (.statement node.groupSigned) (node.tokens ++ rest) rest := by
  have hlegible : node.All Legible :=
    all_imp₂ (fun _ hprintable _ => ⟨hprintable.1, hprintable.2.1⟩) node h h
  have hreads := statementReads node hlegible his rest hclear hends
  have hfilled : node.All EndsFilled := all_imp₂ (fun _ hprintable _ => hprintable.2.2) node h h
  rwa [reread, trimmed_groupSigned_of_filled hfilled] at hreads

end Node

/-- A parsed tree in which no array ends with an empty slot is parsed back from its printed text,
with marks on the statements that printing has put between parentheses. But for these marks it is the
same tree, and it is printed the same way. -/
theorem parse_print_of_parse {source : String} {node : Node} (h : parse source = .ok (some node))
    (hfilled : node.All Node.EndsFilled) :
    parse node.print = .ok (some node.groupSigned) ∧ node.groupSigned.plain = node.plain ∧
      node.groupSigned.print = node.print := by
  have hreads := Parser.parse_eq_some_iff.mp h
  obtain ⟨-, hstatement, hregular⟩ := hreads.derives_and_regular
  have hspaced := Node.all_imp₂ (fun _ => And.intro) node hreads.spaced.1 hfilled
  have hprintable : node.All Node.Printable :=
    Node.all_imp₂ (fun _ => And.intro) node hregular hspaced
  refine ⟨?_, node.plain_groupSigned, node.print_groupSigned⟩
  rw [Parser.parse_eq_some_iff, Node.scan_print hregular, ← List.append_nil node.tokens]
  exact Node.statementReadsBack node hprintable hstatement [] (fun _ => ahead_nil) ahead_nil

/-- The tree of `do [a] -b end`, whose second statement is printed between parentheses. -/
def signedBlock : Node :=
  .block [.statement (.array [some (.identifier "a")]),
    .statement (.unary .minus (.identifier "b"))]

theorem parse_print_signedBlock :
    parse signedBlock.print = .ok (some signedBlock.groupSigned) ∧
      signedBlock.groupSigned.plain = signedBlock.plain ∧
        signedBlock.groupSigned.print = signedBlock.print :=
  @parse_print_of_parse "do [a] -b end" signedBlock (by cbv)
    (by simp [signedBlock, Node.All, Node.AllIn, Node.AllSlots, Node.EndsFilled])

/-- The parser only makes trees whose tokens can be read again. -/
lemma legible_of_parse {source : String} {node : Node} (h : parse source = .ok (some node)) :
    node.All Node.Legible ∧ node.IsStatement := by
  have hreads := Parser.parse_eq_some_iff.mp h
  obtain ⟨-, hstatement, hregular⟩ := hreads.derives_and_regular
  exact ⟨Node.all_imp₂ (fun _ => And.intro) node hregular hreads.spaced.1, hstatement⟩

lemma Node.all_regular_of_legible {node : Node} (h : node.All Legible) : node.All Regular :=
  all_imp₂ (fun _ hnode _ => hnode.1) node h h

/-- A statement that is legible is parsed again from its printed text. -/
lemma parse_print_of_legible {node : Node} (h : node.All Node.Legible) (his : node.IsStatement) :
    parse node.print = .ok (some node.reread) := by
  have hreads := Node.statementReads node h his [] (fun _ => ahead_nil) ahead_nil
  rwa [List.append_nil, ← Node.scan_print (Node.all_regular_of_legible h),
    ← Parser.parse_eq_some_iff] at hreads

/-- A parsed tree that is printed and parsed again has the same slots in every array, but for an empty
slot that stands last: it is lost. So all slots survive if and only if no array of the tree ends with
an empty slot. -/
theorem slots_survive_iff_filled {source : String} {node : Node}
    (h : parse source = .ok (some node)) :
    parse node.print = .ok (some node.reread) ∧
      node.reread.patterns = node.patterns.map dropEmpty ∧
        (node.reread.patterns = node.patterns ↔ node.All Node.EndsFilled) := by
  obtain ⟨hlegible, hstatement⟩ := legible_of_parse h
  have hpatterns : node.reread.patterns = node.patterns.map dropEmpty := by
    rw [Node.reread, Node.patterns_trimmed, Node.patterns_groupSigned]
  refine ⟨parse_print_of_legible hlegible hstatement, hpatterns, ?_⟩
  calc node.reread.patterns = node.patterns
      ↔ node.patterns.map dropEmpty = node.patterns.map id := by rw [hpatterns, List.map_id]
    _ ↔ ∀ slots ∈ node.patterns, dropEmpty slots = slots := List.map_inj_left
    _ ↔ ∀ slots ∈ node.patterns, slots.getLast? ≠ some none := by simp only [dropEmpty_eq_self_iff]
    _ ↔ node.All Node.EndsFilled := (Node.all_endsFilled_iff node).symm

/-- The tree of `[1,,]`, an array with one filled slot and an empty one behind it. -/
def halfFilled : Node :=
  .statement (.array [some (.literal (.number .one)), none])

theorem slots_survive_halfFilled :
    parse halfFilled.print = .ok (some halfFilled.reread) ∧
      halfFilled.reread.patterns = halfFilled.patterns.map dropEmpty ∧
        (halfFilled.reread.patterns = halfFilled.patterns ↔ halfFilled.All Node.EndsFilled) :=
  @slots_survive_iff_filled "[1,,]" halfFilled (by cbv)

/-- Of the two slots of `[1,,]` only one is read again from the printed text. -/
theorem last_slot_lost_halfFilled :
    parse "[1,,]" = .ok (some halfFilled) ∧ halfFilled.print = "[1, ]" ∧
      parse halfFilled.print = .ok (some (.statement (.array [some (.literal (.number .one))]))) ∧
        halfFilled.patterns = [[some (), none]] := by
  refine ⟨by cbv, by cbv, by cbv, rfl⟩

end ScriptConsole
