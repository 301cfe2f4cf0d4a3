import ScriptConsole.Proofs.Reading

/-!
# How the rules of the parser fail

`Fails goal blocks tokens failure` is the counterpart of `Reads`: one derivation rule for each way in
which a rule of the parser can fail, with the error, the blocks that are open and the tokens in front
of which it fails. `fails_statement` and its companions read the derivation off the parser, and
`failed_of_fails` leads back.
-/

namespace ScriptConsole

namespace Parser

/-- Why and where a rule fails. -/
structure Failure where
  error : Error
  blocks : Nat
  rest : List Token

end Parser

namespace Reply

open ScriptConsole.Parser (Failure)

variable {α β : Type} {size larger : Nat} {failure : Failure}

def Fails (reply : Reply α size) (failure : Failure) : Prop :=
  ∃ within, reply = .fail failure.error failure.blocks failure.rest within

@[simp]
lemma fails_fail {error : Error} {blocks : Nat} {rest : List Token} {within : rest.length ≤ size} :
    (Reply.fail error blocks rest within : Reply α size).Fails failure ↔
      failure = ⟨error, blocks, rest⟩ := by
  constructor
  · rintro ⟨_, h⟩
    injection h with herror hblocks hrest
    rw [herror, hblocks, hrest]
  · rintro rfl
    exact ⟨within, rfl⟩

@[simp]
lemma not_fails_done {value : α} {rest : List Token} {shorter : rest.length < size} :
    ¬(Reply.done value rest shorter).Fails failure := by
  rintro ⟨_, h⟩
  cases h

@[simp]
lemma fails_widen {h : size ≤ larger} {reply : Reply α size} :
    (reply.widen h).Fails failure ↔ reply.Fails failure := by
  cases reply <;> simp [widen]

@[simp]
lemma fails_map {f : α → β} {reply : Reply α size} :
    (reply.map f).Fails failure ↔ reply.Fails failure := by
  cases reply <;> simp [map]

@[simp]
lemma fails_andThen {reply : Reply α size}
    {next : α → (rest : List Token) → rest.length < size → Reply β size} :
    (reply.andThen next).Fails failure ↔
      reply.Fails failure ∨ ∃ first middle shorter, reply.Gives first middle ∧
        (next first middle shorter).Fails failure := by
  cases reply with
  | done first middle shorter =>
    constructor
    · intro h
      exact .inr ⟨first, middle, shorter, by simp, h⟩
    · rintro (h | ⟨_, _, _, h, hnext⟩)
      · exact absurd h not_fails_done
      · obtain ⟨rfl, rfl⟩ := gives_done.mp h
        exact hnext
  | fail => simp [andThen]

end Reply

namespace Parser

/-- A rule that is to be applied. -/
inductive Goal
  | statement
  | statements
  | expression
  | slots
  | signature
  | parameters
  | assignment
  | binary (level : Level)
  | chain (level : Level)
  | operand (level : Level)
  | unary
  | primary
  | arguments

/-- A token of one of these kinds has to stand here, and there is none. -/
inductive Wants (kinds : List Token.Kind) (fault : Fault) (refuse : Token → Error) (blocks : Nat) :
    List Token → Failure → Prop
  | out : Wants kinds fault refuse blocks [] ⟨missing blocks fault, blocks, []⟩
  | other {token rest} (h : token.kind ∉ kinds) :
      Wants kinds fault refuse blocks (token :: rest) ⟨refuse token, blocks, token :: rest⟩

def noName (token : Token) : Error :=
  .invalidIdentifier token.lexeme

/-- The kinds of tokens that a primary expression starts with. -/
def primaryKinds : List Token.Kind :=
  [.number, .string, .keywordTrue, .keywordFalse, .leftParen, .keywordDo, .identifier]

/-- `Fails goal blocks tokens failure`: inside so many open blocks, the rule fails on the tokens. -/
inductive Fails : Goal → Nat → List Token → Failure → Prop
  | statementBlock {blocks token tokens failure} (hdo : token.kind = .keywordDo)
      (hbody : Fails .statements (blocks + 1) tokens failure) :
      Fails .statement blocks (token :: tokens) failure
  | statementExpression {blocks tokens failure} (hdo : Ahead (·.kind ≠ .keywordDo) tokens)
      (hinner : Fails .expression blocks tokens failure) : Fails .statement blocks tokens failure
  | statementsOut {blocks} :
      Fails .statements blocks [] ⟨.incomplete (.expected "end"), blocks, []⟩
  | statementsFirst {blocks token tokens failure} (hend : token.kind ≠ .keywordEnd)
      (hfirst : Fails .statement blocks (token :: tokens) failure) :
      Fails .statements blocks (token :: tokens) failure
  | statementsRest {blocks tokens middle first failure} (hend : Ahead (·.kind ≠ .keywordEnd) tokens)
      (hfirst : Reads (.statement first) tokens middle)
      (hrest : Fails .statements blocks middle failure) : Fails .statements blocks tokens failure
  | expressionArray {blocks token tokens failure} (hopen : token.kind = .leftBracket)
      (hslots : Fails .slots blocks tokens failure) : Fails .expression blocks (token :: tokens) failure
  | expressionSignature {blocks token tokens failure} (hkeyword : token.kind = .keywordFunction)
      (hsignature : Fails .signature blocks tokens failure) :
      Fails .expression blocks (token :: tokens) failure
  | expressionBody {blocks token tokens middle name params failure}
      (hkeyword : token.kind = .keywordFunction)
      (hsignature : Reads (.signature name params) tokens middle)
      (hbody : Fails .statements (blocks + 1) middle failure) :
      Fails .expression blocks (token :: tokens) failure
  | expressionAssignment {blocks tokens failure}
      (hstart : Ahead (fun token => token.kind ≠ .leftBracket ∧ token.kind ≠ .keywordFunction) tokens)
      (hnode : Fails .assignment blocks tokens failure) : Fails .expression blocks tokens failure
  | slotsOut {blocks} : Fails .slots blocks [] ⟨missing blocks .unclosedArray, blocks, []⟩
  | slotsEmpty {blocks token tokens failure} (hcomma : token.kind = .comma)
      (hslots : Fails .slots blocks tokens failure) : Fails .slots blocks (token :: tokens) failure
  | slotsFirst {blocks token tokens failure}
      (hstart : token.kind ≠ .rightBracket ∧ token.kind ≠ .comma)
      (hfirst : Fails .expression blocks (token :: tokens) failure) :
      Fails .slots blocks (token :: tokens) failure
  | slotsNext {blocks tokens middle first failure}
      (hstart : Ahead (fun token => token.kind ≠ .rightBracket ∧ token.kind ≠ .comma) tokens)
      (hfirst : Reads (.expression first) tokens middle)
      (hnext : Wants [.comma, .rightBracket] .unclosedArray (fun _ => .malformed .arraySeparator)
        blocks middle failure) : Fails .slots blocks tokens failure
  | slotsRest {blocks tokens token middle first failure}
      (hstart : Ahead (fun token => token.kind ≠ .rightBracket ∧ token.kind ≠ .comma) tokens)
      (hfirst : Reads (.expression first) tokens (token :: middle)) (hcomma : token.kind = .comma)
      (hslots : Fails .slots blocks middle failure) : Fails .slots blocks tokens failure
  | signatureStart {blocks tokens failure}
      (hstart : Wants [.leftParen, .identifier] .endOfInput noName blocks tokens failure) :
      Fails .signature blocks tokens failure
  | signatureNameless {blocks token tokens failure} (hopen : token.kind = .leftParen)
      (hparams : Fails .parameters blocks tokens failure) :
      Fails .signature blocks (token :: tokens) failure
  | signatureOpen {blocks token tokens failure} (hname : token.kind = .identifier)
      (hopen : Wants [.leftParen] (.expected "(") (fun _ => .malformed (.expected "(")) blocks tokens
        failure) : Fails .signature blocks (token :: tokens) failure
  | signatureNamed {blocks token next tokens failure} (hname : token.kind = .identifier)
      (hopen : next.kind = .leftParen) (hparams : Fails .parameters blocks tokens failure) :
      Fails .signature blocks (token :: next :: tokens) failure
  | parametersStart {blocks tokens failure}
      (hstart : Wants [.rightParen, .identifier] .endOfInput noName blocks tokens failure) :
      Fails .parameters blocks tokens failure
  | parametersNext {blocks token tokens failure} (hname : token.kind = .identifier)
      (hnext : Wants [.comma, .rightParen] (.expected ",") (fun _ => .malformed (.expected ","))
        blocks tokens failure) : Fails .parameters blocks (token :: tokens) failure
  | parametersRest {blocks token next tokens failure} (hname : token.kind = .identifier)
      (hcomma : next.kind = .comma) (hparams : Fails .parameters blocks tokens failure) :
      Fails .parameters blocks (token :: next :: tokens) failure
  | assignmentLeft {blocks tokens failure} (hleft : Fails (.binary .sum) blocks tokens failure) :
      Fails .assignment blocks tokens failure
  | assignmentOperator {blocks tokens token middle left}
      (hleft : Reads (.binary .sum left) tokens (token :: middle))
      (hshape : looksLikeAssignment token = true) (hop : AssignOp.ofLexeme? token.lexeme = none) :
      Fails .assignment blocks tokens ⟨.unimplementedOperator token.lexeme, blocks, token :: middle⟩
  | assignmentTarget {blocks tokens token middle left op}
      (hleft : Reads (.binary .sum left) tokens (token :: middle))
      (hshape : looksLikeAssignment token = true) (hop : AssignOp.ofLexeme? token.lexeme = some op)
      (htarget : isTarget left = false) :
      Fails .assignment blocks tokens ⟨.invalidAssignment left.kindName, blocks, middle⟩
  | assignmentRight {blocks tokens token middle left op failure}
      (hleft : Reads (.binary .sum left) tokens (token :: middle))
      (hshape : looksLikeAssignment token = true) (hop : AssignOp.ofLexeme? token.lexeme = some op)
      (htarget : isTarget left = true) (hright : Fails .expression blocks middle failure) :
      Fails .assignment blocks tokens failure
  | binaryFirst {blocks level tokens failure} (hleft : Fails (.operand level) blocks tokens failure) :
      Fails (.binary level) blocks tokens failure
  | binaryChain {blocks level tokens middle left failure}
      (hleft : Reads (.operand level left) tokens middle)
      (hchain : Fails (.chain level) blocks middle failure) :
      Fails (.binary level) blocks tokens failure
  | chainRight {blocks level token tokens op failure} (hop : operator? level token = some op)
      (hright : Fails (.operand level) blocks tokens failure) :
      Fails (.chain level) blocks (token :: tokens) failure
  | chainRest {blocks level token tokens middle op right failure}
      (hop : operator? level token = some op) (hright : Reads (.operand level right) tokens middle)
      (hchain : Fails (.chain level) blocks middle failure) :
      Fails (.chain level) blocks (token :: tokens) failure
  | operandSum {blocks tokens failure} (hnode : Fails (.binary .product) blocks tokens failure) :
      Fails (.operand .sum) blocks tokens failure
  | operandProduct {blocks tokens failure} (hnode : Fails .unary blocks tokens failure) :
      Fails (.operand .product) blocks tokens failure
  | unarySign {blocks token tokens op failure} (hop : sign? token = some op)
      (hoperand : Fails .unary blocks tokens failure) : Fails .unary blocks (token :: tokens) failure
  | unaryPrimary {blocks tokens failure} (hsign : Ahead (sign? · = none) tokens)
      (hnode : Fails .primary blocks tokens failure) : Fails .unary blocks tokens failure
  | primaryStart {blocks tokens failure}
      (hstart : Wants primaryKinds .endOfInput noName blocks tokens failure) :
      Fails .primary blocks tokens failure
  | primaryNumber {blocks token rest} (hkind : token.kind = .number)
      (hvalue : Number.ofDecimal? token.lexeme.toList = none) :
      Fails .primary blocks (token :: rest) ⟨.malformed (.badNumber token.lexeme), blocks, rest⟩
  | primaryGroup {blocks token tokens failure} (hopen : token.kind = .leftParen)
      (hinner : Fails .expression blocks tokens failure) :
      Fails .primary blocks (token :: tokens) failure
  | primaryClose {blocks token tokens middle inner failure} (hopen : token.kind = .leftParen)
      (hinner : Reads (.expression inner) tokens middle)
      (hclose : Wants [.rightParen] (.expected ")") (fun _ => .malformed (.expected ")")) blocks middle
        failure) : Fails .primary blocks (token :: tokens) failure
  | primaryBlock {blocks token tokens failure} (hdo : token.kind = .keywordDo)
      (hbody : Fails .statements (blocks + 1) tokens failure) :
      Fails .primary blocks (token :: tokens) failure
  | primaryCall {blocks token next tokens failure} (hname : token.kind = .identifier)
      (hopen : next.kind = .leftParen) (harguments : Fails .arguments blocks tokens failure) :
      Fails .primary blocks (token :: next :: tokens) failure
  | argumentsOut {blocks} : Fails .arguments blocks [] ⟨missing blocks .endOfInput, blocks, []⟩
  | argumentsFirst {blocks token tokens failure} (hstart : token.kind ≠ .rightParen)
      (hfirst : Fails .expression blocks (token :: tokens) failure) :
      Fails .arguments blocks (token :: tokens) failure
  | argumentsNext {blocks tokens middle first failure} (hstart : Ahead (·.kind ≠ .rightParen) tokens)
      (hfirst : Reads (.expression first) tokens middle)
      (hnext : Wants [.comma, .rightParen] (.expected ",") (fun _ => .malformed (.expected ","))
        blocks middle failure) : Fails .arguments blocks tokens failure
  | argumentsRest {blocks tokens token middle first failure}
      (hstart : Ahead (·.kind ≠ .rightParen) tokens)
      (hfirst : Reads (.expression first) tokens (token :: middle)) (hcomma : token.kind = .comma)
      (harguments : Fails .arguments blocks middle failure) : Fails .arguments blocks tokens failure

section

variable {blocks : Nat} {tokens : List Token} {failure : Failure}

lemma not_mem_pair {kind a b : Token.Kind} (ha : kind ≠ a) (hb : kind ≠ b) : kind ∉ [a, b] := by
  simp [ha, hb]

@[simp]
lemma fails_failAt {α : Type} {error : Error} :
    (failAt error blocks tokens : Reply α tokens.length).Fails failure ↔
      failure = ⟨error, blocks, tokens⟩ := by
  simp [failAt]

@[simp]
lemma fails_paren {kind : Token.Kind} {what : String} :
    (paren blocks kind what tokens).Fails failure ↔
      Wants [kind] (.expected what) (fun _ => .malformed (.expected what)) blocks tokens failure := by
  cases tokens with
  | nil =>
    rw [paren, fails_failAt]
    constructor
    · rintro rfl
      exact .out
    · rintro ⟨⟩
      rfl
  | cons token tokens =>
    rw [paren]
    split
    · next hkind =>
      refine ⟨fun h => absurd h Reply.not_fails_done, fun h => ?_⟩
      cases h with
      | other h => exact absurd (hkind ▸ List.mem_cons_self) h
    · next hkind =>
      rw [fails_failAt]
      constructor
      · rintro rfl
        exact .other (by simpa using hkind)
      · rintro ⟨⟩
        rfl

@[simp]
lemma fails_goesOn :
    (goesOn blocks tokens).Fails failure ↔
      Wants [.comma, .rightParen] (.expected ",") (fun _ => .malformed (.expected ",")) blocks tokens
        failure := by
  cases tokens with
  | nil =>
    rw [goesOn, fails_failAt]
    constructor
    · rintro rfl
      exact .out
    · rintro ⟨⟩
      rfl
  | cons token tokens =>
    rw [goesOn]
    split
    · next hkind =>
      refine ⟨fun h => absurd h Reply.not_fails_done, fun h => ?_⟩
      cases h with
      | other h => exact absurd (hkind ▸ List.mem_cons_self) h
    · next hkind =>
      refine ⟨fun h => absurd h Reply.not_fails_done, fun h => ?_⟩
      cases h with
      | other h => exact absurd (by simp [hkind]) h
    · next hcomma hclose =>
      rw [fails_failAt]
      constructor
      · rintro rfl
        exact .other (not_mem_pair hcomma hclose)
      · rintro ⟨⟩
        rfl

lemma fails_parameters (h : (parameters blocks tokens).Fails failure) :
    Fails .parameters blocks tokens failure := by
  fun_induction parameters blocks tokens with
  | case1 =>
    obtain rfl := fails_failAt.mp h
    exact .parametersStart .out
  | case2 => exact absurd h Reply.not_fails_done
  | case3 token tokens hname ih =>
    rw [Reply.fails_widen, Reply.fails_andThen, fails_goesOn] at h
    obtain hnext | ⟨more, middle, hlen, hmore, h⟩ := h
    · exact .parametersNext hname hnext
    · obtain ⟨next, rfl, hnext⟩ := gives_goesOn.mp hmore
      cases more with
      | false => exact absurd h Reply.not_fails_done
      | true =>
        simp only [if_true, Reply.fails_widen, Reply.fails_map] at h
        exact .parametersRest hname hnext (ih middle hlen h)
  | case4 token tokens hclose hname =>
    obtain rfl := fails_failAt.mp h
    exact .parametersStart (.other (not_mem_pair hclose hname))

lemma fails_signature (h : (signature blocks tokens).Fails failure) :
    Fails .signature blocks tokens failure := by
  cases tokens with
  | nil =>
    obtain rfl := fails_failAt.mp h
    exact .signatureStart .out
  | cons token tokens =>
    rw [signature] at h
    split at h
    · next hopen =>
      rw [Reply.fails_widen, Reply.fails_map] at h
      exact .signatureNameless hopen (fails_parameters h)
    · next hname =>
      simp only [Reply.fails_widen, Reply.fails_andThen, fails_paren, gives_paren,
        Reply.fails_map] at h
      obtain hopen | ⟨_, _, _, ⟨next, rfl, hopen⟩, h⟩ := h
      · exact .signatureOpen hname hopen
      · exact .signatureNamed hname hopen (fails_parameters h)
    · next hopen hname =>
      obtain rfl := fails_failAt.mp h
      exact .signatureStart (.other (not_mem_pair hopen hname))

end

mutual

lemma fails_statement (blocks : Nat) (tokens : List Token) {failure : Failure}
    (h : (statement blocks tokens).Fails failure) : Fails .statement blocks tokens failure := by
  match tokens with
  | [] =>
    rw [statement, Reply.fails_map] at h
    exact .statementExpression ahead_nil (fails_expression blocks [] h)
  | token :: tokens =>
    rw [statement] at h
    split at h
    · next hdo =>
      rw [Reply.fails_widen, block, Reply.fails_map] at h
      exact .statementBlock hdo (fails_statements _ tokens h)
    · next hdo =>
      rw [Reply.fails_map] at h
      exact .statementExpression (ahead_cons.mpr hdo) (fails_expression blocks (token :: tokens) h)
termination_by (tokens.length, 9)

lemma fails_statements (blocks : Nat) (tokens : List Token) {failure : Failure}
    (h : (statements blocks tokens).Fails failure) : Fails .statements blocks tokens failure := by
  match tokens with
  | [] =>
    rw [statements, fails_failAt] at h
    subst h
    exact .statementsOut
  | token :: tokens =>
    rw [statements] at h
    split at h
    · exact absurd h Reply.not_fails_done
    · next hend =>
      simp only [Reply.fails_andThen, Reply.fails_widen, Reply.fails_map] at h
      obtain hfirst | ⟨first, middle, hlen, hfirst, h⟩ := h
      · exact .statementsFirst hend (fails_statement blocks (token :: tokens) hfirst)
      · exact .statementsRest (ahead_cons.mpr hend) (reads_statement blocks _ hfirst)
          (fails_statements blocks middle h)
termination_by (tokens.length, 10)

lemma fails_expression (blocks : Nat) (tokens : List Token) {failure : Failure}
    (h : (expression blocks tokens).Fails failure) : Fails .expression blocks tokens failure := by
  match tokens with
  | [] =>
    rw [expression] at h
    exact .expressionAssignment ahead_nil (fails_assignment blocks [] h)
  | token :: tokens =>
    rw [expression] at h
    split at h
    · next hopen =>
      rw [Reply.fails_widen, Reply.fails_map] at h
      exact .expressionArray hopen (fails_slots blocks tokens h)
    · next hkeyword =>
      simp only [Reply.fails_widen, Reply.fails_andThen, Reply.fails_map, block] at h
      obtain hsignature | ⟨⟨name, params⟩, middle, hlen, hsignature, h⟩ := h
      · exact .expressionSignature hkeyword (fails_signature hsignature)
      · exact .expressionBody hkeyword (reads_signature hsignature) (fails_statements _ middle h)
    · next hbracket hkeyword =>
      exact .expressionAssignment (ahead_cons.mpr ⟨hbracket, hkeyword⟩)
        (fails_assignment blocks (token :: tokens) h)
termination_by (tokens.length, 8)

lemma fails_slots (blocks : Nat) (tokens : List Token) {failure : Failure}
    (h : (slots blocks tokens).Fails failure) : Fails .slots blocks tokens failure := by
  match tokens with
  | [] =>
    rw [slots, fails_failAt] at h
    subst h
    exact .slotsOut
  | token :: tokens =>
    rw [slots] at h
    split at h
    · exact absurd h Reply.not_fails_done
    · next hcomma =>
      rw [Reply.fails_widen, Reply.fails_map] at h
      exact .slotsEmpty hcomma (fails_slots blocks tokens h)
    · next hbracket hcomma =>
      rw [Reply.fails_andThen] at h
      obtain hfirst | ⟨first, middle, hlen, hfirst, h⟩ := h
      · exact .slotsFirst ⟨hbracket, hcomma⟩ (fails_expression blocks (token :: tokens) hfirst)
      · have hfirst' := reads_expression blocks _ hfirst
        have hstart : Ahead (fun token => token.kind ≠ .rightBracket ∧ token.kind ≠ .comma)
            (token :: tokens) := ahead_cons.mpr ⟨hbracket, hcomma⟩
        cases middle with
        | nil =>
          obtain rfl := Reply.fails_fail.mp h
          exact .slotsNext hstart hfirst' .out
        | cons next middle =>
          have hshorter := Nat.lt_of_succ_lt hlen
          dsimp only at h
          split at h
          · next hnext =>
            rw [Reply.fails_widen, Reply.fails_map] at h
            exact .slotsRest hstart hfirst' hnext (fails_slots blocks middle h)
          · exact absurd h Reply.not_fails_done
          · next hnext hclose =>
            obtain rfl := Reply.fails_fail.mp h
            exact .slotsNext hstart hfirst' (.other (not_mem_pair hnext hclose))
termination_by (tokens.length, 9)

lemma fails_assignment (blocks : Nat) (tokens : List Token) {failure : Failure}
    (h : (assignment blocks tokens).Fails failure) : Fails .assignment blocks tokens failure := by
  rw [assignment, Reply.fails_andThen] at h
  obtain hleft | ⟨left, middle, hlen, hleft, h⟩ := h
  · exact .assignmentLeft (fails_binary blocks .sum tokens hleft)
  · have hleft' := reads_binary blocks .sum tokens hleft
    cases middle with
    | nil => exact absurd h Reply.not_fails_done
    | cons token middle =>
      have hshorter := Nat.lt_of_succ_lt hlen
      dsimp only at h
      split at h
      · next hshape =>
        split at h
        · next hop =>
          obtain rfl := Reply.fails_fail.mp h
          exact .assignmentOperator hleft' hshape hop
        · next op hop =>
          split at h
          · next htarget =>
            rw [Reply.fails_widen, Reply.fails_map] at h
            exact .assignmentRight hleft' hshape hop htarget (fails_expression blocks middle h)
          · next htarget =>
            obtain rfl := Reply.fails_fail.mp h
            exact .assignmentTarget hleft' hshape hop (by simpa using htarget)
      · exact absurd h Reply.not_fails_done
termination_by (tokens.length, 7)

lemma fails_binary (blocks : Nat) (level : Level) (tokens : List Token) {failure : Failure}
    (h : (binary blocks level tokens).Fails failure) :
    Fails (.binary level) blocks tokens failure := by
  rw [binary, Reply.fails_andThen] at h
  obtain hleft | ⟨left, middle, hlen, hleft, h⟩ := h
  · exact .binaryFirst (fails_operand blocks level tokens hleft)
  · rw [Reply.fails_widen] at h
    exact .binaryChain (reads_operand blocks level tokens hleft) (fails_chain blocks level left middle h)
termination_by (tokens.length, level.rank + 1)

lemma fails_chain (blocks : Nat) (level : Level) (left : Node) (tokens : List Token)
    {failure : Failure} (h : (binaryRest blocks level left tokens).Fails failure) :
    Fails (.chain level) blocks tokens failure := by
  match tokens with
  | [] =>
    rw [binaryRest] at h
    exact absurd h Reply.not_fails_done
  | token :: tokens =>
    rw [binaryRest] at h
    split at h
    · exact absurd h Reply.not_fails_done
    · next op hop =>
      simp only [Reply.fails_widen, Reply.fails_andThen] at h
      obtain hright | ⟨right, middle, hlen, hright, h⟩ := h
      · exact .chainRight hop (fails_operand blocks level tokens hright)
      · exact .chainRest hop (reads_operand blocks level tokens hright)
          (fails_chain blocks level _ middle h)
termination_by (tokens.length, 0)

lemma fails_operand (blocks : Nat) (level : Level) (tokens : List Token) {failure : Failure}
    (h : (operand blocks level tokens).Fails failure) :
    Fails (.operand level) blocks tokens failure := by
  match level with
  | .sum =>
    rw [operand] at h
    exact .operandSum (fails_binary blocks .product tokens h)
  | .product =>
    rw [operand] at h
    exact .operandProduct (fails_unary blocks tokens h)
termination_by (tokens.length, level.rank)

lemma fails_unary (blocks : Nat) (tokens : List Token) {failure : Failure}
    (h : (unary blocks tokens).Fails failure) : Fails .unary blocks tokens failure := by
  match tokens with
  | [] =>
    rw [unary] at h
    exact .unaryPrimary ahead_nil (fails_primary blocks [] h)
  | token :: tokens =>
    rw [unary] at h
    split at h
    · next op hop =>
      rw [Reply.fails_widen, Reply.fails_map] at h
      exact .unarySign hop (fails_unary blocks tokens h)
    · next hsign => exact .unaryPrimary (ahead_cons.mpr hsign) (fails_primary blocks (token :: tokens) h)
termination_by (tokens.length, 2)

lemma fails_primary (blocks : Nat) (tokens : List Token) {failure : Failure}
    (h : (primary blocks tokens).Fails failure) : Fails .primary blocks tokens failure := by
  match tokens with
  | [] =>
    rw [primary, fails_failAt] at h
    subst h
    exact .primaryStart .out
  | token :: tokens =>
    rw [primary.eq_def] at h
    dsimp only at h
    split at h
    · next hkind =>
      split at h
      · exact absurd h Reply.not_fails_done
      · next hvalue =>
        obtain rfl := Reply.fails_fail.mp h
        exact .primaryNumber hkind hvalue
    · exact absurd h Reply.not_fails_done
    · exact absurd h Reply.not_fails_done
    · exact absurd h Reply.not_fails_done
    · next hopen =>
      simp only [Reply.fails_widen, Reply.fails_andThen, Reply.fails_map, fails_paren] at h
      obtain hinner | ⟨inner, middle, hlen, hinner, hclose⟩ := h
      · exact .primaryGroup hopen (fails_expression blocks tokens hinner)
      · exact .primaryClose hopen (reads_expression blocks tokens hinner) hclose
    · next hdo =>
      rw [Reply.fails_widen, block, Reply.fails_map] at h
      exact .primaryBlock hdo (fails_statements _ tokens h)
    · next hname =>
      cases tokens with
      | nil => exact absurd h Reply.not_fails_done
      | cons next tokens =>
        dsimp only at h
        split at h
        · next hopen =>
          rw [Reply.fails_widen, Reply.fails_map] at h
          exact .primaryCall hname hopen (fails_arguments blocks tokens h)
        · exact absurd h Reply.not_fails_done
    · next hnumber hstring htrue hfalse hopen hdo hname =>
      obtain rfl := fails_failAt.mp h
      refine .primaryStart (.other fun hmem => ?_)
      simp only [primaryKinds, List.mem_cons, List.not_mem_nil, or_false] at hmem
      rcases hmem with hkind | hkind | hkind | hkind | hkind | hkind | hkind
      · exact hnumber hkind
      · exact hstring hkind
      · exact htrue hkind
      · exact hfalse hkind
      · exact hopen hkind
      · exact hdo hkind
      · exact hname hkind
termination_by (tokens.length, 1)

lemma fails_arguments (blocks : Nat) (tokens : List Token) {failure : Failure}
    (h : (arguments blocks tokens).Fails failure) : Fails .arguments blocks tokens failure := by
  match tokens with
  | [] =>
    rw [arguments, fails_failAt] at h
    subst h
    exact .argumentsOut
  | token :: tokens =>
    rw [arguments] at h
    split at h
    · exact absurd h Reply.not_fails_done
    · next hclose =>
      simp only [Reply.fails_widen, Reply.fails_andThen, fails_goesOn, gives_goesOn] at h
      obtain hfirst | ⟨first, middle, hlen, hfirst, h⟩ := h
      · exact .argumentsFirst hclose (fails_expression blocks (token :: tokens) hfirst)
      · have hfirst' := reads_expression blocks _ hfirst
        obtain hnext | ⟨more, middle', hlen', ⟨next, rfl, hnext⟩, h⟩ := h
        · exact .argumentsNext (ahead_cons.mpr hclose) hfirst' hnext
        · have hshorter := Nat.lt_trans hlen' hlen
          cases more with
          | false => exact absurd h Reply.not_fails_done
          | true =>
            simp only [if_true, Reply.fails_widen, Reply.fails_map] at h
            exact .argumentsRest (ahead_cons.mpr hclose) hfirst' hnext
              (fails_arguments blocks middle' h)
termination_by (tokens.length, 9)

end

/-- The parser's own rule fails this way. -/
def Goal.Failed (blocks : Nat) (tokens : List Token) (failure : Failure) : Goal → Prop
  | .statement => (Parser.statement blocks tokens).Fails failure
  | .statements => (Parser.statements blocks tokens).Fails failure
  | .expression => (Parser.expression blocks tokens).Fails failure
  | .slots => (Parser.slots blocks tokens).Fails failure
  | .signature => (Parser.signature blocks tokens).Fails failure
  | .parameters => (Parser.parameters blocks tokens).Fails failure
  | .assignment => (Parser.assignment blocks tokens).Fails failure
  | .binary level => (Parser.binary blocks level tokens).Fails failure
  | .chain level => ∀ left, (Parser.binaryRest blocks level left tokens).Fails failure
  | .operand level => (Parser.operand blocks level tokens).Fails failure
  | .unary => (Parser.unary blocks tokens).Fails failure
  | .primary => (Parser.primary blocks tokens).Fails failure
  | .arguments => (Parser.arguments blocks tokens).Fails failure

/-- Every derivation of a failure is found by the parser. -/
theorem failed_of_fails {goal : Goal} {blocks : Nat} {tokens : List Token} {failure : Failure}
    (h : Fails goal blocks tokens failure) : goal.Failed blocks tokens failure := by
  induction h with
  | statementBlock hdo _ ih =>
    rw [Goal.Failed, statement]
    simp only [hdo, block, Reply.fails_widen, Reply.fails_map]
    exact ih
  | @statementExpression blocks tokens _ hdo _ ih =>
    cases tokens with
    | nil =>
      rw [Goal.Failed, statement, Reply.fails_map]
      exact ih
    | cons token tokens =>
      rw [Goal.Failed, statement]
      split
      · next h => exact absurd h (ahead_cons.mp hdo)
      · rw [Reply.fails_map]
        exact ih
  | statementsOut =>
    rw [Goal.Failed, statements]
    simp
  | statementsFirst hend _ ih =>
    rw [Goal.Failed, statements]
    split
    · next h => exact absurd h hend
    · rw [Reply.fails_andThen]
      exact .inl ih
  | @statementsRest blocks tokens _ _ _ hend hfirst _ ih =>
    have hgiven := given_of_reads hfirst blocks
    cases tokens with
    | nil => exact absurd hgiven.length_lt (Nat.not_lt_zero _)
    | cons token tokens =>
      rw [Goal.Failed, statements]
      split
      · next h => exact absurd h (ahead_cons.mp hend)
      · simp only [Reply.fails_andThen, Reply.fails_widen, Reply.fails_map]
        exact .inr ⟨_, _, hgiven.length_lt, hgiven, ih⟩
  | expressionArray hopen _ ih =>
    rw [Goal.Failed, expression]
    simp only [hopen, Reply.fails_widen, Reply.fails_map]
    exact ih
  | expressionSignature hkeyword _ ih =>
    rw [Goal.Failed, expression]
    simp only [hkeyword, Reply.fails_widen, Reply.fails_andThen]
    exact .inl ih
  | @expressionBody blocks _ _ _ _ _ _ hkeyword hsignature _ ih =>
    have hgiven := given_of_reads hsignature blocks
    rw [Goal.Failed, expression]
    simp only [hkeyword, block, Reply.fails_widen, Reply.fails_andThen, Reply.fails_map]
    exact .inr ⟨_, _, hgiven.length_lt, hgiven, ih⟩
  | @expressionAssignment blocks tokens _ hstart _ ih =>
    cases tokens with
    | nil =>
      rw [Goal.Failed, expression]
      exact ih
    | cons token tokens =>
      rw [Goal.Failed, expression]
      split
      · next h => exact absurd h (ahead_cons.mp hstart).1
      · next h => exact absurd h (ahead_cons.mp hstart).2
      · exact ih
  | slotsOut =>
    rw [Goal.Failed, slots]
    simp
  | slotsEmpty hcomma _ ih =>
    rw [Goal.Failed, slots]
    simp only [hcomma, Reply.fails_widen, Reply.fails_map]
    exact ih
  | slotsFirst hstart _ ih =>
    rw [Goal.Failed, slots]
    split
    · next h => exact absurd h hstart.1
    · next h => exact absurd h hstart.2
    · rw [Reply.fails_andThen]
      exact .inl ih
  | @slotsNext blocks tokens middle _ _ hstart hfirst hnext =>
    have hgiven := given_of_reads hfirst blocks
    cases tokens with
    | nil => exact absurd hgiven.length_lt (Nat.not_lt_zero _)
    | cons token tokens =>
      rw [Goal.Failed, slots]
      split
      · next h => exact absurd h (ahead_cons.mp hstart).1
      · next h => exact absurd h (ahead_cons.mp hstart).2
      · rw [Reply.fails_andThen]
        refine .inr ⟨_, _, hgiven.length_lt, hgiven, ?_⟩
        cases hnext with
        | out => simp
        | other hkind =>
          dsimp only
          split
          · next h => exact absurd (by simp [h]) hkind
          · next h => exact absurd (by simp [h]) hkind
          · simp
  | @slotsRest blocks tokens _ _ _ _ hstart hfirst hcomma _ ih =>
    have hgiven := given_of_reads hfirst blocks
    cases tokens with
    | nil => exact absurd hgiven.length_lt (Nat.not_lt_zero _)
    | cons token tokens =>
      rw [Goal.Failed, slots]
      split
      · next h => exact absurd h (ahead_cons.mp hstart).1
      · next h => exact absurd h (ahead_cons.mp hstart).2
      · rw [Reply.fails_andThen]
        refine .inr ⟨_, _, hgiven.length_lt, hgiven, ?_⟩
        simp only [hcomma, Reply.fails_widen, Reply.fails_map]
        exact ih
  | signatureStart hstart =>
    cases hstart with
    | out =>
      rw [Goal.Failed, signature]
      simp
    | other hkind =>
      rw [Goal.Failed, signature]
      split
      · next h => exact absurd (by simp [h]) hkind
      · next h => exact absurd (by simp [h]) hkind
      · simp [noName]
  | signatureNameless hopen _ ih =>
    rw [Goal.Failed, signature]
    simp only [hopen, Reply.fails_widen, Reply.fails_map]
    exact ih
  | signatureOpen hname hopen =>
    rw [Goal.Failed, signature]
    simp only [hname, Reply.fails_widen, Reply.fails_andThen, fails_paren]
    exact .inl hopen
  | signatureNamed hname hopen _ ih =>
    rw [Goal.Failed, signature]
    simp only [hname, Reply.fails_widen, Reply.fails_andThen, gives_paren, Reply.fails_map]
    exact .inr ⟨(), _, Nat.lt_succ_self _, ⟨_, rfl, hopen⟩, ih⟩
  | parametersStart hstart =>
    cases hstart with
    | out =>
      rw [Goal.Failed, parameters]
      simp
    | other hkind =>
      rw [Goal.Failed, parameters]
      split
      · next h => exact absurd (by simp [h]) hkind
      · next h => exact absurd (by simp [h]) hkind
      · simp [noName]
  | parametersNext hname hnext =>
    rw [Goal.Failed, parameters]
    simp only [hname, Reply.fails_widen, Reply.fails_andThen, fails_goesOn]
    exact .inl hnext
  | parametersRest hname hcomma _ ih =>
    rw [Goal.Failed, parameters]
    simp only [hname, Reply.fails_widen, Reply.fails_andThen, gives_goesOn]
    refine .inr ⟨true, _, Nat.lt_succ_self _, ⟨_, rfl, hcomma⟩, ?_⟩
    simp only [if_true, Reply.fails_widen, Reply.fails_map]
    exact ih
  | assignmentLeft _ ih =>
    rw [Goal.Failed, assignment, Reply.fails_andThen]
    exact .inl ih
  | @assignmentOperator blocks _ _ _ _ hleft hshape hop =>
    have hgiven := given_of_reads hleft blocks
    rw [Goal.Failed, assignment, Reply.fails_andThen]
    refine .inr ⟨_, _, hgiven.length_lt, hgiven, ?_⟩
    simp [hshape, hop]
  | @assignmentTarget blocks _ _ _ _ _ hleft hshape hop htarget =>
    have hgiven := given_of_reads hleft blocks
    rw [Goal.Failed, assignment, Reply.fails_andThen]
    refine .inr ⟨_, _, hgiven.length_lt, hgiven, ?_⟩
    simp [hshape, hop, htarget]
  | @assignmentRight blocks _ _ _ _ _ _ hleft hshape hop htarget _ ih =>
    have hgiven := given_of_reads hleft blocks
    rw [Goal.Failed, assignment, Reply.fails_andThen]
    refine .inr ⟨_, _, hgiven.length_lt, hgiven, ?_⟩
    simp only [hshape, hop, htarget, if_true, Reply.fails_widen, Reply.fails_map]
    exact ih
  | binaryFirst _ ih =>
    rw [Goal.Failed, binary, Reply.fails_andThen]
    exact .inl ih
  | @binaryChain blocks _ _ _ _ _ hleft _ ih =>
    have hgiven := given_of_reads hleft blocks
    rw [Goal.Failed, binary, Reply.fails_andThen]
    refine .inr ⟨_, _, hgiven.length_lt, hgiven, ?_⟩
    rw [Reply.fails_widen]
    exact ih _
  | chainRight hop _ ih =>
    intro left
    rw [binaryRest]
    simp only [hop, Reply.fails_widen, Reply.fails_andThen]
    exact .inl ih
  | @chainRest blocks _ _ _ _ _ _ _ hop hright _ ih =>
    intro left
    have hgiven := given_of_reads hright blocks
    rw [binaryRest]
    simp only [hop, Reply.fails_widen, Reply.fails_andThen]
    exact .inr ⟨_, _, hgiven.length_lt, hgiven, ih _⟩
  | operandSum _ ih =>
    rw [Goal.Failed, operand]
    exact ih
  | operandProduct _ ih =>
    rw [Goal.Failed, operand]
    exact ih
  | unarySign hop _ ih =>
    rw [Goal.Failed, unary]
    simp only [hop, Reply.fails_widen, Reply.fails_map]
    exact ih
  | @unaryPrimary blocks tokens _ hsign _ ih =>
    cases tokens with
    | nil =>
      rw [Goal.Failed, unary]
      exact ih
    | cons token tokens =>
      rw [Goal.Failed, unary]
      simp only [ahead_cons.mp hsign]
      exact ih
  | primaryStart hstart =>
    cases hstart with
    | out =>
      rw [Goal.Failed, primary]
      simp
    | other hkind =>
      rw [Goal.Failed, primary.eq_def]
      dsimp only
      simp only [primaryKinds, List.mem_cons, List.not_mem_nil, or_false, not_or] at hkind
      obtain ⟨hnumber, hstring, htrue, hfalse, hopen, hdo, hname⟩ := hkind
      split <;> first | contradiction | simp [noName]
  | primaryNumber hkind hvalue =>
    rw [Goal.Failed, primary.eq_def]
    simp [hkind, hvalue]
  | primaryGroup hopen _ ih =>
    rw [Goal.Failed, primary.eq_def]
    simp only [hopen, Reply.fails_widen, Reply.fails_andThen]
    exact .inl ih
  | @primaryClose blocks _ _ _ _ _ hopen hinner hclose =>
    have hgiven := given_of_reads hinner blocks
    rw [Goal.Failed, primary.eq_def]
    simp only [hopen, Reply.fails_widen, Reply.fails_andThen, Reply.fails_map, fails_paren]
    exact .inr ⟨_, _, hgiven.length_lt, hgiven, hclose⟩
  | primaryBlock hdo _ ih =>
    rw [Goal.Failed, primary.eq_def]
    simp only [hdo, block, Reply.fails_widen, Reply.fails_map]
    exact ih
  | primaryCall hname hopen _ ih =>
    rw [Goal.Failed, primary.eq_def]
    simp only [hname, hopen, Reply.fails_widen, Reply.fails_map]
    exact ih
  | argumentsOut =>
    rw [Goal.Failed, arguments]
    simp
  | argumentsFirst hstart _ ih =>
    rw [Goal.Failed, arguments]
    split
    · next h => exact absurd h hstart
    · rw [Reply.fails_andThen]
      exact .inl ih
  | @argumentsNext blocks tokens _ _ _ hstart hfirst hnext =>
    have hgiven := given_of_reads hfirst blocks
    cases tokens with
    | nil => exact absurd hgiven.length_lt (Nat.not_lt_zero _)
    | cons token tokens =>
      rw [Goal.Failed, arguments]
      split
      · next h => exact absurd h (ahead_cons.mp hstart)
      · simp only [Reply.fails_widen, Reply.fails_andThen, fails_goesOn]
        exact .inr ⟨_, _, hgiven.length_lt, hgiven, .inl hnext⟩
  | @argumentsRest blocks tokens _ _ _ _ hstart hfirst hcomma _ ih =>
    have hgiven := given_of_reads hfirst blocks
    cases tokens with
    | nil => exact absurd hgiven.length_lt (Nat.not_lt_zero _)
    | cons token tokens =>
      rw [Goal.Failed, arguments]
      split
      · next h => exact absurd h (ahead_cons.mp hstart)
      · simp only [Reply.fails_widen, Reply.fails_andThen, gives_goesOn]
        refine .inr ⟨_, _, hgiven.length_lt, hgiven, .inr ⟨true, _, Nat.lt_succ_self _,
          ⟨_, rfl, hcomma⟩, ?_⟩⟩
        simp only [if_true, Reply.fails_widen, Reply.fails_map]
        exact ih

lemma parse_of_fails {source : String} {failure : Failure} (hne : Token.scan source ≠ [])
    (h : Fails .statement 0 (Token.scan source) failure) : parse source = .error failure.error := by
  obtain ⟨within, hfailed⟩ := failed_of_fails h
  rw [parse, parseTokens.eq_def]
  split
  · next hnil => exact absurd hnil hne
  · rw [hfailed]

/-- A text is not parsed if its statement fails or a token follows the statement. -/
lemma fails_of_parse {source : String} {error : Error} (h : parse source = .error error) :
    Token.scan source ≠ [] ∧ ((∃ failure, failure.error = error ∧
        Fails .statement 0 (Token.scan source) failure) ∨
      ∃ lexeme, error = .malformed (.leftover lexeme)) := by
  rw [parse, parseTokens.eq_def] at h
  split at h
  · cases h
  · next hne =>
    refine ⟨hne, ?_⟩
    split at h
    · next error' blocks rest within hfailed =>
      injection h with herror
      exact .inl ⟨⟨error', blocks, rest⟩, herror, fails_statement 0 _ ⟨within, hfailed⟩⟩
    · cases h
    · next extra _ _ _ =>
      cases h
      exact .inr ⟨extra.lexeme, rfl⟩

end Parser

end ScriptConsole
