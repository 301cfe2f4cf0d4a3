import ScriptConsole.Proofs.Failing
import ScriptConsole.Proofs.RoundTrip
import ScriptConsole.Proofs.ScannedLines

/-!
# What more lines can do

A text that is incomplete can always be completed (`Fails.completes`): wherever a rule runs out of
tokens, a few tokens make it succeed, and then whatever is open around it is closed from the inside
out. A text that fails for one of the errors that name a wrong token stays wrong (`Fails.append`): all
that was read before the token had a token behind it, so that more tokens behind these change nothing.
-/

namespace ScriptConsole

/-- The error is about something in the text that cannot stand where it stands: a token that is no
name, an operator without a meaning, or the left side of an assignment. -/
def Error.isFinal : Error → Bool
  | .invalidIdentifier _ | .invalidAssignment _ | .unimplementedOperator _ => true
  | _ => false

namespace Parser

/-- The token neither continues an expression in front of it nor turns a name into a call. -/
def Clear (token : Token) : Prop :=
  token.kind ≠ .operator ∧ token.kind ≠ .leftParen

lemma Clear.ends {token : Token} (h : Clear token) : Ends token :=
  ends_of_kind h.1

lemma Clear.operator?_eq {token : Token} (h : Clear token) (level : Level) :
    operator? level token = none := by
  cases level with
  | sum => exact h.ends.1
  | product => exact h.ends.2.1

lemma Ahead.append_clear {p : Token → Prop} {tokens more : List Token} (h : Ahead p tokens)
    (hmore : tokens ≠ [] ∨ Ahead Clear more) (hclear : ∀ token, Clear token → p token) :
    Ahead p (tokens ++ more) :=
  h.append (hmore.imp_right fun hahead => hahead.imp hclear)

def Phrase.isChain : Phrase → Bool
  | .chain _ _ _ => true
  | _ => false

/-- A rule that succeeds has read a token, but for the chain of operators behind an operand. -/
lemma Reads.ne_nil {phrase : Phrase} {tokens rest : List Token} (h : Reads phrase tokens rest)
    (hchain : phrase.isChain = false) : tokens ≠ [] := by
  rintro rfl
  have hgiven := given_of_reads h 0
  cases phrase with
  | chain level left node => cases hchain
  | _ => exact Nat.not_lt_zero _ hgiven.length_lt

lemma Reads.chain_ne_nil {level : Level} {left node : Node} {middle rest : List Token}
    {q : Prop} (h : Reads (.chain level left node) middle rest) (hrest : rest ≠ [] ∨ q) :
    middle ≠ [] ∨ q := by
  cases h with
  | chainEnd => exact hrest
  | chainCons => exact .inl (by simp)

/-- What is read stays the same if more tokens follow, unless nothing was left and they change the
end. -/
theorem Reads.append {phrase : Phrase} {tokens rest more : List Token}
    (h : Reads phrase tokens rest) (hmore : rest ≠ [] ∨ Ahead Clear more) :
    Reads phrase (tokens ++ more) (rest ++ more) := by
  induction h with
  | statementBlock hdo _ ih => exact .statementBlock hdo (ih hmore)
  | statementExpression hdo hinner ih =>
    exact .statementExpression (Ahead.append hdo (.inl (hinner.ne_nil rfl))) (ih hmore)
  | statementsEnd hend => exact .statementsEnd hend
  | statementsCons hend hfirst hbody ihfirst ihbody =>
    exact .statementsCons (Ahead.append hend (.inl (hfirst.ne_nil rfl)))
      (ihfirst (.inl (hbody.ne_nil rfl))) (ihbody hmore)
  | expressionArray hopen _ ih => exact .expressionArray hopen (ih hmore)
  | expressionFunction hkeyword _ hbody ihsignature ihbody =>
    exact .expressionFunction hkeyword (ihsignature (.inl (hbody.ne_nil rfl))) (ihbody hmore)
  | expressionAssignment hstart hnode ih =>
    exact .expressionAssignment (Ahead.append hstart (.inl (hnode.ne_nil rfl))) (ih hmore)
  | slotsEnd hclose => exact .slotsEnd hclose
  | slotsEmpty hcomma _ ih => exact .slotsEmpty hcomma (ih hmore)
  | slotsComma hstart hfirst hcomma _ ihfirst ihslots =>
    exact .slotsComma (Ahead.append hstart (.inl (hfirst.ne_nil rfl)))
      (ihfirst (.inl (List.cons_ne_nil _ _))) hcomma (ihslots hmore)
  | slotsLast hstart hfirst hclose ihfirst =>
    exact .slotsLast (Ahead.append hstart (.inl (hfirst.ne_nil rfl)))
      (ihfirst (.inl (List.cons_ne_nil _ _))) hclose
  | signatureNameless hopen _ ih => exact .signatureNameless hopen (ih hmore)
  | signatureNamed hname hopen _ ih => exact .signatureNamed hname hopen (ih hmore)
  | parametersEnd hclose => exact .parametersEnd hclose
  | parametersComma hname hcomma _ ih => exact .parametersComma hname hcomma (ih hmore)
  | parametersLast hname hclose => exact .parametersLast hname hclose
  | assignmentValue _ hstop ih =>
    exact .assignmentValue (ih hmore) (Ahead.append_clear hstop hmore fun _ ht => ht.ends.2.2)
  | assignmentTo _ hshape hop htarget _ ihleft ihright =>
    exact .assignmentTo (ihleft (.inl (List.cons_ne_nil _ _))) hshape hop htarget (ihright hmore)
  | binary _ hchain ihleft ihchain =>
    exact .binary (ihleft (hchain.chain_ne_nil hmore)) (ihchain hmore)
  | chainEnd hstop =>
    exact .chainEnd (Ahead.append_clear hstop hmore fun _ ht => ht.operator?_eq _)
  | chainCons hop _ hchain ihright ihchain =>
    exact .chainCons hop (ihright (hchain.chain_ne_nil hmore)) (ihchain hmore)
  | operandSum _ ih => exact .operandSum (ih hmore)
  | operandProduct _ ih => exact .operandProduct (ih hmore)
  | unarySign hop _ ih => exact .unarySign hop (ih hmore)
  | unaryPrimary hsign hnode ih =>
    exact .unaryPrimary (Ahead.append hsign (.inl (hnode.ne_nil rfl))) (ih hmore)
  | primaryNumber hkind hvalue => exact .primaryNumber hkind hvalue
  | primaryString hkind => exact .primaryString hkind
  | primaryTrue hkind => exact .primaryTrue hkind
  | primaryFalse hkind => exact .primaryFalse hkind
  | primaryGroup hopen _ hclose ih => exact .primaryGroup hopen (ih (.inl (List.cons_ne_nil _ _))) hclose
  | primaryBlock hdo _ ih => exact .primaryBlock hdo (ih hmore)
  | primaryCall hname hopen _ ih => exact .primaryCall hname hopen (ih hmore)
  | primaryName hname hstop =>
    exact .primaryName hname (Ahead.append_clear hstop hmore fun _ ht => ht.2)
  | argumentsEnd hclose => exact .argumentsEnd hclose
  | argumentsComma hstart hfirst hcomma _ ihfirst iharguments =>
    exact .argumentsComma (Ahead.append hstart (.inl (hfirst.ne_nil rfl)))
      (ihfirst (.inl (List.cons_ne_nil _ _))) hcomma (iharguments hmore)
  | argumentsLast hstart hfirst hclose ihfirst =>
    exact .argumentsLast (Ahead.append hstart (.inl (hfirst.ne_nil rfl)))
      (ihfirst (.inl (List.cons_ne_nil _ _))) hclose

lemma Fails.chain_ne_nil {level : Level} {blocks : Nat} {tokens : List Token} {failure : Failure}
    (h : Fails (.chain level) blocks tokens failure) : tokens ≠ [] := by
  cases h <;> exact List.cons_ne_nil _ _

/-! ### Errors that stay -/

def Failure.extend (failure : Failure) (more : List Token) : Failure :=
  { failure with rest := failure.rest ++ more }

lemma isFinal_missing (blocks : Nat) (fault : Fault) : (missing blocks fault).isFinal = false := by
  unfold missing
  split <;> rfl

section Final

variable {blocks : Nat} {tokens more : List Token} {failure : Failure}

lemma Wants.append {kinds : List Token.Kind} {fault : Fault} {refuse : Token → Error}
    (h : Wants kinds fault refuse blocks tokens failure) (hfinal : failure.error.isFinal = true) :
    Wants kinds fault refuse blocks (tokens ++ more) (failure.extend more) := by
  cases h with
  | out =>
    rw [isFinal_missing] at hfinal
    cases hfinal
  | other hkind => exact .other hkind

lemma Wants.ne_nil {kinds : List Token.Kind} {fault : Fault} {refuse : Token → Error}
    (h : Wants kinds fault refuse blocks tokens failure) (hfinal : failure.error.isFinal = true) :
    tokens ≠ [] := by
  cases h with
  | out =>
    rw [isFinal_missing] at hfinal
    cases hfinal
  | other => exact List.cons_ne_nil _ _

lemma Wants.not_final {kinds : List Token.Kind} {fault fault' : Fault}
    (h : Wants kinds fault (fun _ => .malformed fault') blocks tokens failure) :
    failure.error.isFinal = false := by
  cases h with
  | out => exact isFinal_missing blocks fault
  | other => rfl

lemma Fails.ne_nil {goal : Goal} (h : Fails goal blocks tokens failure)
    (hfinal : failure.error.isFinal = true) : tokens ≠ [] := by
  induction h with
  | statementExpression _ _ ih | expressionAssignment _ _ ih | assignmentLeft _ ih
  | binaryFirst _ ih | operandSum _ ih | operandProduct _ ih | unaryPrimary _ _ ih => exact ih hfinal
  | statementsOut => cases hfinal
  | slotsOut | argumentsOut =>
    rw [isFinal_missing] at hfinal
    cases hfinal
  | statementsRest _ hread _ _ | slotsNext _ hread _ | slotsRest _ hread _ _ _
  | assignmentOperator hread _ _ | assignmentTarget hread _ _ _ | assignmentRight hread _ _ _ _ _
  | binaryChain hread _ _ | argumentsNext _ hread _ | argumentsRest _ hread _ _ _ =>
    exact hread.ne_nil rfl
  | signatureStart hstart | parametersStart hstart | primaryStart hstart => exact hstart.ne_nil hfinal
  | _ => exact List.cons_ne_nil _ _

theorem Fails.append {goal : Goal} (h : Fails goal blocks tokens failure)
    (hfinal : failure.error.isFinal = true) (more : List Token) :
    Fails goal blocks (tokens ++ more) (failure.extend more) := by
  induction h with
  | statementBlock hdo _ ih => exact .statementBlock hdo (ih hfinal)
  | statementExpression hdo hinner ih =>
    exact .statementExpression (Ahead.append hdo (.inl (hinner.ne_nil hfinal))) (ih hfinal)
  | statementsOut => cases hfinal
  | statementsFirst hend _ ih => exact .statementsFirst hend (ih hfinal)
  | statementsRest hend hfirst hrest ih =>
    exact .statementsRest (Ahead.append hend (.inl (hfirst.ne_nil rfl)))
      (hfirst.append (.inl (hrest.ne_nil hfinal))) (ih hfinal)
  | expressionArray hopen _ ih => exact .expressionArray hopen (ih hfinal)
  | expressionSignature hkeyword _ ih => exact .expressionSignature hkeyword (ih hfinal)
  | expressionBody hkeyword hsignature hbody ih =>
    exact .expressionBody hkeyword (hsignature.append (.inl (hbody.ne_nil hfinal))) (ih hfinal)
  | expressionAssignment hstart hnode ih =>
    exact .expressionAssignment (Ahead.append hstart (.inl (hnode.ne_nil hfinal))) (ih hfinal)
  | slotsOut | argumentsOut =>
    rw [isFinal_missing] at hfinal
    cases hfinal
  | slotsEmpty hcomma _ ih => exact .slotsEmpty hcomma (ih hfinal)
  | slotsFirst hstart _ ih => exact .slotsFirst hstart (ih hfinal)
  | slotsNext _ _ hnext | primaryClose _ _ hnext | argumentsNext _ _ hnext | signatureOpen _ hnext
  | parametersNext _ hnext =>
    rw [hnext.not_final] at hfinal
    cases hfinal
  | slotsRest hstart hfirst hcomma _ ih =>
    exact .slotsRest (Ahead.append hstart (.inl (hfirst.ne_nil rfl)))
      (hfirst.append (.inl (List.cons_ne_nil _ _))) hcomma (ih hfinal)
  | signatureStart hstart => exact .signatureStart (hstart.append hfinal)
  | signatureNameless hopen _ ih => exact .signatureNameless hopen (ih hfinal)
  | signatureNamed hname hopen _ ih => exact .signatureNamed hname hopen (ih hfinal)
  | parametersStart hstart => exact .parametersStart (hstart.append hfinal)
  | parametersRest hname hcomma _ ih => exact .parametersRest hname hcomma (ih hfinal)
  | assignmentLeft _ ih => exact .assignmentLeft (ih hfinal)
  | assignmentOperator hleft hshape hop =>
    exact .assignmentOperator (hleft.append (.inl (List.cons_ne_nil _ _))) hshape hop
  | assignmentTarget hleft hshape hop htarget =>
    exact .assignmentTarget (hleft.append (.inl (List.cons_ne_nil _ _))) hshape hop htarget
  | assignmentRight hleft hshape hop htarget _ ih =>
    exact .assignmentRight (hleft.append (.inl (List.cons_ne_nil _ _))) hshape hop htarget (ih hfinal)
  | binaryFirst _ ih => exact .binaryFirst (ih hfinal)
  | binaryChain hleft hchain ih =>
    exact .binaryChain (hleft.append (.inl (hchain.ne_nil hfinal))) (ih hfinal)
  | chainRight hop _ ih => exact .chainRight hop (ih hfinal)
  | chainRest hop hright hchain ih =>
    exact .chainRest hop (hright.append (.inl (hchain.ne_nil hfinal))) (ih hfinal)
  | operandSum _ ih => exact .operandSum (ih hfinal)
  | operandProduct _ ih => exact .operandProduct (ih hfinal)
  | unarySign hop _ ih => exact .unarySign hop (ih hfinal)
  | unaryPrimary hsign hnode ih =>
    exact .unaryPrimary (Ahead.append hsign (.inl (hnode.ne_nil hfinal))) (ih hfinal)
  | primaryStart hstart => exact .primaryStart (hstart.append hfinal)
  | primaryNumber => cases hfinal
  | primaryGroup hopen _ ih => exact .primaryGroup hopen (ih hfinal)
  | primaryBlock hdo _ ih => exact .primaryBlock hdo (ih hfinal)
  | primaryCall hname hopen _ ih => exact .primaryCall hname hopen (ih hfinal)
  | argumentsFirst hstart _ ih => exact .argumentsFirst hstart (ih hfinal)
  | argumentsRest hstart hfirst hcomma _ ih =>
    exact .argumentsRest (Ahead.append hstart (.inl (hfirst.ne_nil rfl)))
      (hfirst.append (.inl (List.cons_ne_nil _ _))) hcomma (ih hfinal)

end Final

/-! ### Completing what is open -/

/-- The rule reads something off the front of the tokens and leaves the rest. -/
def Goal.Met (tokens rest : List Token) : Goal → Prop
  | .statement => ∃ node, Reads (.statement node) tokens rest
  | .statements => ∃ body, Reads (.statements body) tokens rest
  | .expression => ∃ node, Reads (.expression node) tokens rest
  | .slots => ∃ slots, Reads (.slots slots) tokens rest
  | .signature => ∃ name params, Reads (.signature name params) tokens rest
  | .parameters => ∃ names, Reads (.parameters names) tokens rest
  | .assignment => ∃ node, Reads (.assignment node) tokens rest
  | .binary level => ∃ node, Reads (.binary level node) tokens rest
  | .chain level => ∀ left, ∃ node, Reads (.chain level left node) tokens rest
  | .operand level => ∃ node, Reads (.operand level node) tokens rest
  | .unary => ∃ node, Reads (.unary node) tokens rest
  | .primary => ∃ node, Reads (.primary node) tokens rest
  | .arguments => ∃ nodes, Reads (.arguments nodes) tokens rest

def zero : Token := ⟨.number, "0"⟩

def bracketEnd : Token := ⟨.rightBracket, "]"⟩

/-- The tokens that complete what is open. -/
def closers : List Token :=
  [zero, Token.opening, Token.closing, bracketEnd, Token.blockEnd]

/-- With some closers behind the tokens the rule succeeds, whatever follows that is clear of them. -/
def Completable (goal : Goal) (tokens : List Token) : Prop :=
  ∃ closing, (∀ token ∈ closing, token ∈ closers) ∧
    ∀ rest, Ahead Clear rest → goal.Met (tokens ++ (closing ++ rest)) rest

section Completable

variable {goal goal' : Goal} {tokens tokens' : List Token} {closer : Token}

lemma completable_of_closer (hcloser : closer ∈ closers)
    (h : ∀ rest, Ahead Clear rest → goal.Met (tokens ++ closer :: rest) rest) :
    Completable goal tokens :=
  ⟨[closer], by simpa using hcloser, h⟩

lemma Completable.imp (h : Completable goal tokens)
    (hmet : ∀ more rest, Ahead Clear rest → goal.Met (tokens ++ more) rest →
      goal'.Met (tokens' ++ more) rest) : Completable goal' tokens' := by
  obtain ⟨closing, hclosers, hclosing⟩ := h
  exact ⟨closing, hclosers, fun rest hrest => hmet _ rest hrest (hclosing rest hrest)⟩

/-- When the inner rule is complete, one closer completes the outer one. -/
lemma Completable.close (h : Completable goal tokens) (hcloser : closer ∈ closers)
    (hclear : Clear closer)
    (hmet : ∀ more rest, goal.Met (tokens ++ more) (closer :: rest) →
      goal'.Met (tokens' ++ more) rest) : Completable goal' tokens' := by
  obtain ⟨closing, hclosers, hclosing⟩ := h
  refine ⟨closing ++ [closer], fun token hmem => ?_, fun rest _ => ?_⟩
  · rcases List.mem_append.mp hmem with hmem | hmem
    · exact hclosers token hmem
    · rwa [List.mem_singleton.mp hmem]
  · rw [List.append_assoc, List.singleton_append]
    exact hmet _ rest (hclosing (closer :: rest) (ahead_cons.mpr hclear))

end Completable

lemma reads_zero (rest : List Token) :
    Reads (.primary (.literal (.number Number.zero))) (zero :: rest) rest :=
  .primaryNumber rfl (by cbv)

lemma reads_zero_expression {rest : List Token} (h : Ahead Clear rest) :
    Reads (.expression (.literal (.number Number.zero))) (zero :: rest) rest :=
  (reads_zero rest).expression_of_primary (h.imp fun _ ht => ht.ends)

theorem Fails.completes {goal : Goal} {blocks : Nat} {tokens : List Token} {failure : Failure}
    (h : Fails goal blocks tokens failure) (hincomplete : failure.error.isIncomplete = true) :
    Completable goal tokens := by
  have hzero : zero ∈ closers := by decide
  have hend : Token.blockEnd ∈ closers := by decide
  have hclosing : Token.closing ∈ closers := by decide
  have hbracket : bracketEnd ∈ closers := by decide
  have hendClear : Clear Token.blockEnd := ⟨by decide, by decide⟩
  have hclosingClear : Clear Token.closing := ⟨by decide, by decide⟩
  have hbracketClear : Clear bracketEnd := ⟨by decide, by decide⟩
  have hparens : ∀ token ∈ [Token.opening, Token.closing], token ∈ closers := by decide
  induction h with
  | statementBlock hdo _ ih =>
    refine (ih hincomplete).imp fun more rest _ ⟨body, hbody⟩ => ?_
    exact ⟨_, .statementBlock hdo hbody⟩
  | @statementExpression blocks tokens _ hdo _ ih =>
    -- without a first token, that of the completion decides which rule comes next
    cases tokens with
    | nil =>
      refine completable_of_closer hzero fun rest hrest => ?_
      exact ⟨_, .statementExpression (ahead_cons.mpr (by decide)) (reads_zero_expression hrest)⟩
    | cons token tokens =>
      refine (ih hincomplete).imp fun more rest _ ⟨inner, hinner⟩ => ?_
      exact ⟨_, .statementExpression (ahead_cons.mpr (ahead_cons.mp hdo)) hinner⟩
  | statementsOut => exact completable_of_closer hend fun rest _ => ⟨_, .statementsEnd rfl⟩
  | statementsFirst hstart _ ih =>
    refine (ih hincomplete).close hend hendClear fun more rest ⟨first, hfirst⟩ => ?_
    exact ⟨_, .statementsCons (ahead_cons.mpr hstart) hfirst (.statementsEnd rfl)⟩
  | @statementsRest blocks tokens middle first _ hstart hfirst _ ih =>
    have hahead (more : List Token) : Ahead (·.kind ≠ .keywordEnd) (tokens ++ more) :=
      Ahead.append hstart (.inl (hfirst.ne_nil rfl))
    -- the statement may end where the tokens end, and then it must not run on into the completion
    by_cases hmiddle : middle = []
    · subst hmiddle
      refine completable_of_closer hend fun rest _ => ?_
      exact ⟨_, .statementsCons (hahead _) (hfirst.append (.inr (ahead_cons.mpr hendClear)))
        (.statementsEnd rfl)⟩
    · refine (ih hincomplete).imp fun more rest _ ⟨body, hbody⟩ => ?_
      exact ⟨_, .statementsCons (hahead _) (hfirst.append (.inl hmiddle)) hbody⟩
  | expressionArray hopen _ ih =>
    refine (ih hincomplete).imp fun more rest _ ⟨slots, hslots⟩ => ?_
    exact ⟨_, .expressionArray hopen hslots⟩
  | expressionSignature hkeyword _ ih =>
    refine (ih hincomplete).close hend hendClear fun more rest ⟨name, params, hsignature⟩ => ?_
    exact ⟨_, .expressionFunction hkeyword hsignature (.statementsEnd rfl)⟩
  | @expressionBody blocks token tokens middle _ _ _ hkeyword hsignature _ ih =>
    by_cases hmiddle : middle = []
    · subst hmiddle
      refine completable_of_closer hend fun rest _ => ?_
      exact ⟨_, .expressionFunction hkeyword (hsignature.append (.inr (ahead_cons.mpr hendClear)))
        (.statementsEnd rfl)⟩
    · refine (ih hincomplete).imp fun more rest _ ⟨body, hbody⟩ => ?_
      exact ⟨_, .expressionFunction hkeyword (hsignature.append (.inl hmiddle)) hbody⟩
  | @expressionAssignment blocks tokens _ hstart _ ih =>
    cases tokens with
    | nil => exact completable_of_closer hzero fun rest hrest => ⟨_, reads_zero_expression hrest⟩
    | cons token tokens =>
      refine (ih hincomplete).imp fun more rest _ ⟨node, hnode⟩ => ?_
      exact ⟨_, .expressionAssignment (ahead_cons.mpr (ahead_cons.mp hstart)) hnode⟩
  | slotsOut => exact completable_of_closer hbracket fun rest _ => ⟨_, .slotsEnd rfl⟩
  | slotsEmpty hcomma _ ih =>
    refine (ih hincomplete).imp fun more rest _ ⟨slots, hslots⟩ => ?_
    exact ⟨_, .slotsEmpty hcomma hslots⟩
  | slotsFirst hstart _ ih =>
    refine (ih hincomplete).close hbracket hbracketClear fun more rest ⟨first, hfirst⟩ => ?_
    exact ⟨_, .slotsLast (ahead_cons.mpr hstart) hfirst rfl⟩
  | slotsNext hstart hfirst hnext =>
    cases hnext with
    | out =>
      refine completable_of_closer hbracket fun rest _ => ?_
      exact ⟨_, .slotsLast (Ahead.append hstart (.inl (hfirst.ne_nil rfl)))
        (hfirst.append (.inr (ahead_cons.mpr hbracketClear))) rfl⟩
    | other => cases hincomplete
  | slotsRest hstart hfirst hcomma _ ih =>
    refine (ih hincomplete).imp fun more rest _ ⟨slots, hslots⟩ => ?_
    exact ⟨_, .slotsComma (Ahead.append hstart (.inl (hfirst.ne_nil rfl)))
      (hfirst.append (.inl (List.cons_ne_nil _ _))) hcomma hslots⟩
  | signatureStart hstart =>
    cases hstart with
    | out =>
      refine ⟨[Token.opening, Token.closing], hparens, fun rest _ => ?_⟩
      exact ⟨_, _, .signatureNameless rfl (.parametersEnd rfl)⟩
    | other => cases hincomplete
  | signatureNameless hopen _ ih =>
    refine (ih hincomplete).imp fun more rest _ ⟨params, hparams⟩ => ?_
    exact ⟨_, _, .signatureNameless hopen hparams⟩
  | signatureOpen hname hopen =>
    cases hopen with
    | out =>
      refine ⟨[Token.opening, Token.closing], hparens, fun rest _ => ?_⟩
      exact ⟨_, _, .signatureNamed hname rfl (.parametersEnd rfl)⟩
    | other => cases hincomplete
  | signatureNamed hname hopen _ ih =>
    refine (ih hincomplete).imp fun more rest _ ⟨params, hparams⟩ => ?_
    exact ⟨_, _, .signatureNamed hname hopen hparams⟩
  | parametersStart hstart =>
    cases hstart with
    | out => exact completable_of_closer hclosing fun rest _ => ⟨_, .parametersEnd rfl⟩
    | other => cases hincomplete
  | parametersNext hname hnext =>
    cases hnext with
    | out => exact completable_of_closer hclosing fun rest _ => ⟨_, .parametersLast hname rfl⟩
    | other => cases hincomplete
  | parametersRest hname hcomma _ ih =>
    refine (ih hincomplete).imp fun more rest _ ⟨names, hnames⟩ => ?_
    exact ⟨_, .parametersComma hname hcomma hnames⟩
  | assignmentLeft _ ih =>
    refine (ih hincomplete).imp fun more rest hrest ⟨node, hnode⟩ => ?_
    exact ⟨_, .assignmentValue hnode (hrest.imp fun _ ht => ht.ends.2.2)⟩
  | assignmentOperator | assignmentTarget => cases hincomplete
  | assignmentRight hleft hshape hop htarget _ ih =>
    refine (ih hincomplete).imp fun more rest _ ⟨right, hright⟩ => ?_
    exact ⟨_, .assignmentTo (hleft.append (.inl (List.cons_ne_nil _ _))) hshape hop htarget hright⟩
  | binaryFirst _ ih =>
    refine (ih hincomplete).imp fun more rest hrest ⟨left, hleft⟩ => ?_
    exact ⟨_, .binary hleft (.chainEnd (hrest.imp fun _ ht => ht.operator?_eq _))⟩
  | binaryChain hleft hchain ih =>
    refine (ih hincomplete).imp fun more rest _ hmet => ?_
    obtain ⟨node, hnode⟩ := hmet _
    exact ⟨_, .binary (hleft.append (.inl hchain.chain_ne_nil)) hnode⟩
  | chainRight hop _ ih =>
    refine (ih hincomplete).imp fun more rest hrest ⟨right, hright⟩ left => ?_
    exact ⟨_, .chainCons hop hright (.chainEnd (hrest.imp fun _ ht => ht.operator?_eq _))⟩
  | chainRest hop hright hchain ih =>
    refine (ih hincomplete).imp fun more rest _ hmet left => ?_
    obtain ⟨node, hnode⟩ := hmet _
    exact ⟨_, .chainCons hop (hright.append (.inl hchain.chain_ne_nil)) hnode⟩
  | operandSum _ ih =>
    exact (ih hincomplete).imp fun more rest _ ⟨node, hnode⟩ => ⟨_, .operandSum hnode⟩
  | operandProduct _ ih =>
    exact (ih hincomplete).imp fun more rest _ ⟨node, hnode⟩ => ⟨_, .operandProduct hnode⟩
  | unarySign hop _ ih =>
    exact (ih hincomplete).imp fun more rest _ ⟨operand, hoperand⟩ => ⟨_, .unarySign hop hoperand⟩
  | @unaryPrimary blocks tokens _ hsign _ ih =>
    cases tokens with
    | nil =>
      exact completable_of_closer hzero fun rest _ => ⟨_, (reads_zero rest).unary_of_primary⟩
    | cons token tokens =>
      refine (ih hincomplete).imp fun more rest _ ⟨node, hnode⟩ => ?_
      exact ⟨_, .unaryPrimary (ahead_cons.mpr (ahead_cons.mp hsign)) hnode⟩
  | primaryStart hstart =>
    cases hstart with
    | out => exact completable_of_closer hzero fun rest _ => ⟨_, reads_zero rest⟩
    | other => cases hincomplete
  | primaryNumber => cases hincomplete
  | primaryGroup hopen _ ih =>
    refine (ih hincomplete).close hclosing hclosingClear fun more rest ⟨inner, hinner⟩ => ?_
    exact ⟨_, .primaryGroup hopen hinner rfl⟩
  | primaryClose hopen hinner hclose =>
    cases hclose with
    | out =>
      refine completable_of_closer hclosing fun rest _ => ?_
      exact ⟨_, .primaryGroup hopen (hinner.append (.inr (ahead_cons.mpr hclosingClear))) rfl⟩
    | other => cases hincomplete
  | primaryBlock hdo _ ih =>
    exact (ih hincomplete).imp fun more rest _ ⟨body, hbody⟩ => ⟨_, .primaryBlock hdo hbody⟩
  | primaryCall hname hopen _ ih =>
    refine (ih hincomplete).imp fun more rest _ ⟨nodes, harguments⟩ => ?_
    exact ⟨_, .primaryCall hname hopen harguments⟩
  | argumentsOut => exact completable_of_closer hclosing fun rest _ => ⟨_, .argumentsEnd rfl⟩
  | argumentsFirst hstart _ ih =>
    refine (ih hincomplete).close hclosing hclosingClear fun more rest ⟨first, hfirst⟩ => ?_
    exact ⟨_, .argumentsLast (ahead_cons.mpr hstart) hfirst rfl⟩
  | argumentsNext hstart hfirst hnext =>
    cases hnext with
    | out =>
      refine completable_of_closer hclosing fun rest _ => ?_
      exact ⟨_, .argumentsLast (Ahead.append hstart (.inl (hfirst.ne_nil rfl)))
        (hfirst.append (.inr (ahead_cons.mpr hclosingClear))) rfl⟩
    | other => cases hincomplete
  | argumentsRest hstart hfirst hcomma _ ih =>
    refine (ih hincomplete).imp fun more rest _ ⟨nodes, harguments⟩ => ?_
    exact ⟨_, .argumentsComma (Ahead.append hstart (.inl (hfirst.ne_nil rfl)))
      (hfirst.append (.inl (List.cons_ne_nil _ _))) hcomma harguments⟩

/-! ### The line that completes a text -/

def line (tokens : List Token) : String :=
  String.ofList (tokens.flatMap fun token => token.lexeme.toList ++ [' '])

lemma scan_line {tokens : List Token} (h : ∀ token ∈ tokens, token.Fits) :
    Token.scan (line tokens) = tokens := by
  rw [Token.scan, line, String.toList_ofList]
  induction tokens with
  | nil =>
    rw [List.flatMap_nil, Token.scanChars]
  | cons token tokens ih =>
    obtain ⟨hfits, hrest⟩ := List.forall_mem_cons.mp h
    have hspace (cs : List Char) : Token.Breaks (' ' :: cs) := by
      rw [Token.breaks_cons]
      decide
    have htoken := Token.scans_token hfits _ (hspace (tokens.flatMap fun token =>
      token.lexeme.toList ++ [' ']))
    rw [List.flatMap_cons, List.append_assoc, List.singleton_append, htoken, Token.scanChars_space,
      ih hrest]
    rfl

lemma fits_of_mem_closers {token : Token} (h : token ∈ closers) : token.Fits := by
  simp only [closers, List.mem_cons, List.not_mem_nil, or_false] at h
  rcases h with rfl | rfl | rfl | rfl | rfl
  · exact .number (c := '0') (by decide) (by simp)
  · exact .punctuation (c := '(') rfl
  · exact .punctuation (c := ')') rfl
  · exact .punctuation (c := ']') rfl
  · exact Token.fits_keywordEnd

lemma not_mem_line {tokens : List Token} (h : ∀ token ∈ tokens, token ∈ closers) :
    '"' ∉ (line tokens).toList := by
  have hclosers : ∀ token ∈ closers, '"' ∉ token.lexeme.toList ++ [' '] := by decide
  rw [line, String.toList_ofList]
  intro hmem
  obtain ⟨token, htoken, hquote⟩ := List.mem_flatMap.mp hmem
  exact hclosers token (h token htoken) hquote

/-- A text that is incomplete can be completed by a line without quotes. A text that fails because of
a token that is no name, of an operator without a meaning or of what an assignment has on its left
fails with the same error whatever line without quotes follows it. -/
theorem completed_or_failed_for_good (source : String) :
    (∀ fault, parse source = .error (.incomplete fault) →
      ∃ more, '"' ∉ more.toList ∧ ∃ node, parse (source ++ "\n" ++ more) = .ok (some node)) ∧
    ∀ error, parse source = .error error → error.isFinal = true →
      ∀ more, '"' ∉ more.toList → parse (source ++ "\n" ++ more) = .error error := by
  constructor
  · intro fault hparse
    obtain ⟨-, ⟨failure, herror, hfails⟩ | ⟨lexeme, herror⟩⟩ := fails_of_parse hparse
    · obtain ⟨closing, hclosers, hmet⟩ := hfails.completes (by rw [herror]; rfl)
      obtain ⟨node, hnode⟩ := hmet [] ahead_nil
      refine ⟨line closing, not_mem_line hclosers, node, ?_⟩
      rw [parse_eq_some_iff, Token.scan_append_line source (not_mem_line hclosers),
        scan_line fun token hmem => fits_of_mem_closers (hclosers token hmem)]
      rwa [List.append_nil] at hnode
    · cases herror
  · intro error hparse hfinal more hmore
    obtain ⟨hne, ⟨failure, rfl, hfails⟩ | ⟨lexeme, rfl⟩⟩ := fails_of_parse hparse
    · have hscan := Token.scan_append_line source hmore
      have hfails' := hfails.append hfinal (Token.scan more)
      rw [← hscan] at hfails'
      have hsame : (failure.extend (Token.scan more)).error = failure.error := rfl
      rw [← hsame]
      exact parse_of_fails (by simp [hscan, hne]) hfails'
    · cases hfinal

/-- An open array in an open call can be completed, and an assignment to a number cannot be saved. -/
theorem completed_or_failed_openBlock :
    (∃ more, '"' ∉ more.toList ∧ ∃ node, parse ("do f(1, [2" ++ "\n" ++ more) = .ok (some node)) ∧
    ∀ more, '"' ∉ more.toList →
      parse ("do 1 = 2" ++ "\n" ++ more) = .error (.invalidAssignment "Literal") := by
  have hopen : parse "do f(1, [2" = .error (.incomplete .unclosedArray) := by cbv
  have hwrong : parse "do 1 = 2" = .error (.invalidAssignment "Literal") := by cbv
  exact ⟨(completed_or_failed_for_good _).1 _ hopen, (completed_or_failed_for_good _).2 _ hwrong rfl⟩

end Parser

end ScriptConsole
