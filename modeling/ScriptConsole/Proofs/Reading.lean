import Mathlib.Tactic.Common
import ScriptConsole.Tree.Parser

/-!
# What the rules of the parser read

`Reads phrase tokens rest` says in one derivation rule for each branch of the parser what a
successful rule makes of the tokens in front of it, with the tokens it looks at and leaves alone.
`parse_eq_some_iff` ties the derivations to the parser: a text is parsed as a tree exactly if the
tree is read off its tokens with nothing left.
-/

namespace ScriptConsole

namespace Reply

variable {α β : Type} {size larger : Nat}

/-- The reply is a success with this value in front of these tokens. -/
def Gives (reply : Reply α size) (value : α) (rest : List Token) : Prop :=
  ∃ shorter, reply = .done value rest shorter

@[simp]
lemma gives_done {value value' : α} {rest rest' : List Token} {shorter : rest.length < size} :
    (Reply.done value rest shorter).Gives value' rest' ↔ value = value' ∧ rest = rest' := by
  constructor
  · rintro ⟨_, h⟩
    injection h with hv hr
    exact ⟨hv, hr⟩
  · rintro ⟨rfl, rfl⟩
    exact ⟨shorter, rfl⟩

@[simp]
lemma not_gives_fail {error : Error} {blocks : Nat} {rest rest' : List Token}
    {within : rest.length ≤ size} {value : α} :
    ¬(Reply.fail error blocks rest within).Gives value rest' := by
  rintro ⟨_, h⟩
  cases h

@[simp]
lemma gives_widen {h : size ≤ larger} {reply : Reply α size} {value : α} {rest : List Token} :
    (reply.widen h).Gives value rest ↔ reply.Gives value rest := by
  cases reply <;> simp [widen]

@[simp]
lemma gives_map {f : α → β} {reply : Reply α size} {value : β} {rest : List Token} :
    (reply.map f).Gives value rest ↔ ∃ inner, reply.Gives inner rest ∧ f inner = value := by
  cases reply with
  | done => simp [map, and_comm]
  | fail => simp [map]

@[simp]
lemma gives_andThen {reply : Reply α size}
    {next : α → (rest : List Token) → rest.length < size → Reply β size} {value : β}
    {rest : List Token} :
    (reply.andThen next).Gives value rest ↔
      ∃ first middle shorter, reply.Gives first middle ∧
        (next first middle shorter).Gives value rest := by
  cases reply with
  | done first middle shorter =>
    constructor
    · intro h
      exact ⟨first, middle, shorter, by simp, h⟩
    · rintro ⟨_, _, _, h, hnext⟩
      obtain ⟨rfl, rfl⟩ := gives_done.mp h
      exact hnext
  | fail => simp [andThen]

/-- A success has used a token. -/
lemma Gives.length_lt {reply : Reply α size} {value : α} {rest : List Token}
    (h : reply.Gives value rest) : rest.length < size := by
  obtain ⟨shorter, -⟩ := h
  exact shorter

end Reply

/-- The next token, if there is one, has a property. -/
def Ahead (p : Token → Prop) (tokens : List Token) : Prop :=
  ∀ token ∈ tokens.head?, p token

@[simp]
lemma ahead_nil {p : Token → Prop} : Ahead p [] := by
  simp [Ahead]

@[simp]
lemma ahead_cons {p : Token → Prop} {token : Token} {tokens : List Token} :
    Ahead p (token :: tokens) ↔ p token := by
  simp [Ahead]

lemma Ahead.imp {p q : Token → Prop} {tokens : List Token} (h : Ahead p tokens)
    (hpq : ∀ token, p token → q token) : Ahead q tokens :=
  fun token ht => hpq token (h token ht)

lemma Ahead.and {p q : Token → Prop} {tokens : List Token} (hp : Ahead p tokens)
    (hq : Ahead q tokens) : Ahead (fun token => p token ∧ q token) tokens :=
  fun token ht => ⟨hp token ht, hq token ht⟩

namespace Parser

/-- What a rule can read: the rule together with the value it gives. -/
inductive Phrase
  | statement (node : Node)
  | statements (body : List Node)
  | expression (node : Node)
  | slots (slots : List (Option Node))
  | signature (name : Option String) (params : List String)
  | parameters (names : List String)
  | assignment (node : Node)
  | binary (level : Level) (node : Node)
  | chain (level : Level) (left node : Node)
  | operand (level : Level) (node : Node)
  | unary (node : Node)
  | primary (node : Node)
  | arguments (nodes : List Node)

/-- `Reads phrase tokens rest`: the phrase is read off the front of `tokens`, and `rest` is left. A
condition on the tokens behind a phrase says where the rule stops. -/
inductive Reads : Phrase → List Token → List Token → Prop
  | statementBlock {token tokens rest body} (hdo : token.kind = .keywordDo)
      (hbody : Reads (.statements body) tokens rest) :
      Reads (.statement (.block body)) (token :: tokens) rest
  | statementExpression {tokens rest inner} (hdo : Ahead (·.kind ≠ .keywordDo) tokens)
      (hinner : Reads (.expression inner) tokens rest) :
      Reads (.statement (.statement inner)) tokens rest
  | statementsEnd {token rest} (hend : token.kind = .keywordEnd) :
      Reads (.statements []) (token :: rest) rest
  | statementsCons {tokens middle rest first body} (hend : Ahead (·.kind ≠ .keywordEnd) tokens)
      (hfirst : Reads (.statement first) tokens middle)
      (hbody : Reads (.statements body) middle rest) :
      Reads (.statements (first :: body)) tokens rest
  | expressionArray {token tokens rest slots} (hopen : token.kind = .leftBracket)
      (hslots : Reads (.slots slots) tokens rest) :
      Reads (.expression (.array slots)) (token :: tokens) rest
  | expressionFunction {token tokens middle rest name params body}
      (hkeyword : token.kind = .keywordFunction)
      (hsignature : Reads (.signature name params) tokens middle)
      (hbody : Reads (.statements body) middle rest) :
      Reads (.expression (.function name params (.block body))) (token :: tokens) rest
  | expressionAssignment {tokens rest node}
      (hstart : Ahead (fun token => token.kind ≠ .leftBracket ∧ token.kind ≠ .keywordFunction) tokens)
      (hnode : Reads (.assignment node) tokens rest) : Reads (.expression node) tokens rest
  | slotsEnd {token rest} (hclose : token.kind = .rightBracket) :
      Reads (.slots []) (token :: rest) rest
  | slotsEmpty {token tokens rest slots} (hcomma : token.kind = .comma)
      (hslots : Reads (.slots slots) tokens rest) :
      Reads (.slots (none :: slots)) (token :: tokens) rest
  | slotsComma {tokens token middle rest first slots}
      (hstart : Ahead (fun token => token.kind ≠ .rightBracket ∧ token.kind ≠ .comma) tokens)
      (hfirst : Reads (.expression first) tokens (token :: middle)) (hcomma : token.kind = .comma)
      (hslots : Reads (.slots slots) middle rest) :
      Reads (.slots (some first :: slots)) tokens rest
  | slotsLast {tokens token rest first}
      (hstart : Ahead (fun token => token.kind ≠ .rightBracket ∧ token.kind ≠ .comma) tokens)
      (hfirst : Reads (.expression first) tokens (token :: rest))
      (hclose : token.kind = .rightBracket) : Reads (.slots [some first]) tokens rest
  | signatureNameless {token tokens rest params} (hopen : token.kind = .leftParen)
      (hparams : Reads (.parameters params) tokens rest) :
      Reads (.signature none params) (token :: tokens) rest
  | signatureNamed {token next tokens rest params} (hname : token.kind = .identifier)
      (hopen : next.kind = .leftParen) (hparams : Reads (.parameters params) tokens rest) :
      Reads (.signature (some token.lexeme) params) (token :: next :: tokens) rest
  | parametersEnd {token rest} (hclose : token.kind = .rightParen) :
      Reads (.parameters []) (token :: rest) rest
  | parametersComma {token next tokens rest names} (hname : token.kind = .identifier)
      (hcomma : next.kind = .comma) (hnames : Reads (.parameters names) tokens rest) :
      Reads (.parameters (token.lexeme :: names)) (token :: next :: tokens) rest
  | parametersLast {token next rest} (hname : token.kind = .identifier)
      (hclose : next.kind = .rightParen) :
      Reads (.parameters [token.lexeme]) (token :: next :: rest) rest
  | assignmentValue {tokens rest node} (hnode : Reads (.binary .sum node) tokens rest)
      (hstop : Ahead (looksLikeAssignment · = false) rest) : Reads (.assignment node) tokens rest
  | assignmentTo {tokens token middle rest op left right}
      (hleft : Reads (.binary .sum left) tokens (token :: middle))
      (hshape : looksLikeAssignment token = true) (hop : AssignOp.ofLexeme? token.lexeme = some op)
      (htarget : isTarget left = true) (hright : Reads (.expression right) middle rest) :
      Reads (.assignment (.assignment op left right)) tokens rest
  | binary {level tokens middle rest left node} (hleft : Reads (.operand level left) tokens middle)
      (hchain : Reads (.chain level left node) middle rest) :
      Reads (.binary level node) tokens rest
  | chainEnd {level left rest} (hstop : Ahead (operator? level · = none) rest) :
      Reads (.chain level left left) rest rest
  | chainCons {level left right node token tokens middle rest op}
      (hop : operator? level token = some op) (hright : Reads (.operand level right) tokens middle)
      (hchain : Reads (.chain level (.binary op left right) node) middle rest) :
      Reads (.chain level left node) (token :: tokens) rest
  | operandSum {tokens rest node} (hnode : Reads (.binary .product node) tokens rest) :
      Reads (.operand .sum node) tokens rest
  | operandProduct {tokens rest node} (hnode : Reads (.unary node) tokens rest) :
      Reads (.operand .product node) tokens rest
  | unarySign {token tokens rest op operand} (hop : sign? token = some op)
      (hoperand : Reads (.unary operand) tokens rest) :
      Reads (.unary (.unary op operand)) (token :: tokens) rest
  | unaryPrimary {tokens rest node} (hsign : Ahead (sign? · = none) tokens)
      (hnode : Reads (.primary node) tokens rest) : Reads (.unary node) tokens rest
  | primaryNumber {token rest n} (hkind : token.kind = .number)
      (hvalue : Number.ofDecimal? token.lexeme.toList = some n) :
      Reads (.primary (.literal (.number n))) (token :: rest) rest
  | primaryString {token rest} (hkind : token.kind = .string) :
      Reads (.primary (.literal (.string token.stringValue))) (token :: rest) rest
  | primaryTrue {token rest} (hkind : token.kind = .keywordTrue) :
      Reads (.primary (.literal (.bool true))) (token :: rest) rest
  | primaryFalse {token rest} (hkind : token.kind = .keywordFalse) :
      Reads (.primary (.literal (.bool false))) (token :: rest) rest
  | primaryGroup {token tokens close rest inner} (hopen : token.kind = .leftParen)
      (hinner : Reads (.expression inner) tokens (close :: rest))
      (hclose : close.kind = .rightParen) :
      Reads (.primary (inner.withGrouped true)) (token :: tokens) rest
  | primaryBlock {token tokens rest body} (hdo : token.kind = .keywordDo)
      (hbody : Reads (.statements body) tokens rest) :
      Reads (.primary (.block body)) (token :: tokens) rest
  | primaryCall {token next tokens rest arguments} (hname : token.kind = .identifier)
      (hopen : next.kind = .leftParen) (harguments : Reads (.arguments arguments) tokens rest) :
      Reads (.primary (.call token.lexeme arguments)) (token :: next :: tokens) rest
  | primaryName {token rest} (hname : token.kind = .identifier)
      (hstop : Ahead (·.kind ≠ .leftParen) rest) :
      Reads (.primary (.identifier token.lexeme)) (token :: rest) rest
  | argumentsEnd {token rest} (hclose : token.kind = .rightParen) :
      Reads (.arguments []) (token :: rest) rest
  | argumentsComma {tokens token middle rest first arguments}
      (hstart : Ahead (·.kind ≠ .rightParen) tokens)
      (hfirst : Reads (.expression first) tokens (token :: middle)) (hcomma : token.kind = .comma)
      (harguments : Reads (.arguments arguments) middle rest) :
      Reads (.arguments (first :: arguments)) tokens rest
  | argumentsLast {tokens token rest first} (hstart : Ahead (·.kind ≠ .rightParen) tokens)
      (hfirst : Reads (.expression first) tokens (token :: rest))
      (hclose : token.kind = .rightParen) : Reads (.arguments [first]) tokens rest

section

variable {blocks : Nat} {tokens rest : List Token}

@[simp]
lemma not_gives_failAt {α : Type} {error : Error} {value : α} :
    ¬(failAt error blocks tokens : Reply α tokens.length).Gives value rest := by
  simp [failAt]

@[simp]
lemma gives_paren {kind : Token.Kind} {what : String} {value : Unit} :
    (paren blocks kind what tokens).Gives value rest ↔
      ∃ token, tokens = token :: rest ∧ token.kind = kind := by
  cases tokens with
  | nil => simp [paren]
  | cons token tokens =>
    rw [paren]
    split <;> simp_all

@[simp]
lemma gives_goesOn {more : Bool} :
    (goesOn blocks tokens).Gives more rest ↔
      ∃ token, tokens = token :: rest ∧ token.kind = if more then .comma else .rightParen := by
  cases tokens with
  | nil => simp [goesOn]
  | cons token tokens =>
    rw [goesOn]
    split <;> cases more <;> simp_all

lemma reads_parameters {names : List String} (h : (parameters blocks tokens).Gives names rest) :
    Reads (.parameters names) tokens rest := by
  fun_induction parameters blocks tokens generalizing names with
  | case1 => simp at h
  | case2 token tokens hclose =>
    obtain ⟨rfl, rfl⟩ := Reply.gives_done.mp h
    exact .parametersEnd hclose
  | case3 token tokens hname ih =>
    rw [Reply.gives_widen, Reply.gives_andThen] at h
    obtain ⟨more, middle, hlen, hmore, h⟩ := h
    obtain ⟨next, rfl, hnext⟩ := gives_goesOn.mp hmore
    cases more with
    | false =>
      obtain ⟨rfl, rfl⟩ := Reply.gives_done.mp h
      exact .parametersLast hname hnext
    | true =>
      simp only [if_true, Reply.gives_widen, Reply.gives_map] at h
      obtain ⟨others, hothers, rfl⟩ := h
      exact .parametersComma hname hnext (ih middle hlen hothers)
  | case4 => simp at h

lemma reads_signature {name : Option String} {params : List String}
    (h : (signature blocks tokens).Gives (name, params) rest) :
    Reads (.signature name params) tokens rest := by
  cases tokens with
  | nil => simp [signature] at h
  | cons token tokens =>
    rw [signature] at h
    split at h
    · next hopen =>
      simp only [Reply.gives_widen, Reply.gives_map] at h
      obtain ⟨_, hparams, heq⟩ := h
      cases heq
      exact .signatureNameless hopen (reads_parameters hparams)
    · next hname =>
      simp only [Reply.gives_widen, Reply.gives_andThen, gives_paren, Reply.gives_map] at h
      obtain ⟨_, _, _, ⟨next, rfl, hopen⟩, _, hparams, heq⟩ := h
      cases heq
      exact .signatureNamed hname hopen (reads_parameters hparams)
    · simp at h

end

mutual

lemma reads_statement (blocks : Nat) (tokens : List Token) {node : Node} {rest : List Token}
    (h : (statement blocks tokens).Gives node rest) : Reads (.statement node) tokens rest := by
  match tokens with
  | [] =>
    rw [statement, Reply.gives_map] at h
    obtain ⟨inner, hinner, rfl⟩ := h
    exact .statementExpression ahead_nil (reads_expression blocks [] hinner)
  | token :: tokens =>
    rw [statement] at h
    split at h
    · next hdo =>
      rw [Reply.gives_widen, block, Reply.gives_map] at h
      obtain ⟨body, hbody, rfl⟩ := h
      exact .statementBlock hdo (reads_statements _ tokens hbody)
    · next hdo =>
      rw [Reply.gives_map] at h
      obtain ⟨inner, hinner, rfl⟩ := h
      exact .statementExpression (ahead_cons.mpr hdo)
        (reads_expression blocks (token :: tokens) hinner)
termination_by (tokens.length, 9)

lemma reads_statements (blocks : Nat) (tokens : List Token) {body : List Node} {rest : List Token}
    (h : (statements blocks tokens).Gives body rest) : Reads (.statements body) tokens rest := by
  match tokens with
  | [] => simp [statements] at h
  | token :: tokens =>
    rw [statements] at h
    split at h
    · next hend =>
      obtain ⟨rfl, rfl⟩ := Reply.gives_done.mp h
      exact .statementsEnd hend
    · next hend =>
      simp only [Reply.gives_andThen, Reply.gives_widen, Reply.gives_map] at h
      obtain ⟨first, middle, hlen, hfirst, body, hbody, rfl⟩ := h
      exact .statementsCons (ahead_cons.mpr hend) (reads_statement blocks (token :: tokens) hfirst)
        (reads_statements blocks middle hbody)
termination_by (tokens.length, 10)

lemma reads_expression (blocks : Nat) (tokens : List Token) {node : Node} {rest : List Token}
    (h : (expression blocks tokens).Gives node rest) : Reads (.expression node) tokens rest := by
  match tokens with
  | [] =>
    rw [expression] at h
    exact .expressionAssignment ahead_nil (reads_assignment blocks [] h)
  | token :: tokens =>
    rw [expression] at h
    split at h
    · next hopen =>
      rw [Reply.gives_widen, Reply.gives_map] at h
      obtain ⟨slots, hslots, rfl⟩ := h
      exact .expressionArray hopen (reads_slots blocks tokens hslots)
    · next hkeyword =>
      simp only [Reply.gives_widen, Reply.gives_andThen, Reply.gives_map, block] at h
      obtain ⟨⟨name, params⟩, middle, hlen, hsignature, _, ⟨body, hbody, rfl⟩, rfl⟩ := h
      exact .expressionFunction hkeyword (reads_signature hsignature)
        (reads_statements _ middle hbody)
    · next hbracket hkeyword =>
      exact .expressionAssignment (ahead_cons.mpr ⟨hbracket, hkeyword⟩)
        (reads_assignment blocks (token :: tokens) h)
termination_by (tokens.length, 8)

lemma reads_slots (blocks : Nat) (tokens : List Token) {slots : List (Option Node)}
    {rest : List Token} (h : (Parser.slots blocks tokens).Gives slots rest) :
    Reads (.slots slots) tokens rest := by
  match tokens with
  | [] => simp [Parser.slots] at h
  | token :: tokens =>
    rw [Parser.slots] at h
    split at h
    · next hclose =>
      obtain ⟨rfl, rfl⟩ := Reply.gives_done.mp h
      exact .slotsEnd hclose
    · next hcomma =>
      rw [Reply.gives_widen, Reply.gives_map] at h
      obtain ⟨slots, hslots, rfl⟩ := h
      exact .slotsEmpty hcomma (reads_slots blocks tokens hslots)
    · next hbracket hcomma =>
      rw [Reply.gives_andThen] at h
      obtain ⟨first, middle, hlen, hfirst, h⟩ := h
      have hfirst' := reads_expression blocks (token :: tokens) hfirst
      have hstart : Ahead (fun token => token.kind ≠ .rightBracket ∧ token.kind ≠ .comma)
          (token :: tokens) := ahead_cons.mpr ⟨hbracket, hcomma⟩
      cases middle with
      | nil => simp at h
      | cons next middle =>
        have hshorter := Nat.lt_of_succ_lt hlen
        dsimp only at h
        split at h
        · next hcomma =>
          rw [Reply.gives_widen, Reply.gives_map] at h
          obtain ⟨slots, hslots, rfl⟩ := h
          exact .slotsComma hstart hfirst' hcomma (reads_slots blocks middle hslots)
        · next hclose =>
          obtain ⟨rfl, rfl⟩ := Reply.gives_done.mp h
          exact .slotsLast hstart hfirst' hclose
        · simp at h
termination_by (tokens.length, 9)

lemma reads_assignment (blocks : Nat) (tokens : List Token) {node : Node} {rest : List Token}
    (h : (assignment blocks tokens).Gives node rest) : Reads (.assignment node) tokens rest := by
  rw [assignment, Reply.gives_andThen] at h
  obtain ⟨left, middle, hlen, hleft, h⟩ := h
  have hleft' := reads_binary blocks .sum tokens hleft
  cases middle with
  | nil =>
    obtain ⟨rfl, rfl⟩ := Reply.gives_done.mp h
    exact .assignmentValue hleft' ahead_nil
  | cons token middle =>
    have hshorter := Nat.lt_of_succ_lt hlen
    dsimp only at h
    split at h
    · next hshape =>
      split at h
      · simp at h
      · next op hop =>
        split at h
        · next htarget =>
          rw [Reply.gives_widen, Reply.gives_map] at h
          obtain ⟨right, hright, rfl⟩ := h
          exact .assignmentTo hleft' hshape hop htarget (reads_expression blocks middle hright)
        · simp at h
    · next hshape =>
      obtain ⟨rfl, rfl⟩ := Reply.gives_done.mp h
      exact .assignmentValue hleft' (ahead_cons.mpr (by simpa using hshape))
termination_by (tokens.length, 7)

lemma reads_binary (blocks : Nat) (level : Level) (tokens : List Token) {node : Node}
    {rest : List Token} (h : (binary blocks level tokens).Gives node rest) :
    Reads (.binary level node) tokens rest := by
  rw [binary, Reply.gives_andThen] at h
  obtain ⟨left, middle, hlen, hleft, h⟩ := h
  rw [Reply.gives_widen] at h
  exact .binary (reads_operand blocks level tokens hleft) (reads_chain blocks level left middle h)
termination_by (tokens.length, level.rank + 1)

lemma reads_chain (blocks : Nat) (level : Level) (left : Node) (tokens : List Token) {node : Node}
    {rest : List Token} (h : (binaryRest blocks level left tokens).Gives node rest) :
    Reads (.chain level left node) tokens rest := by
  match tokens with
  | [] =>
    rw [binaryRest] at h
    obtain ⟨rfl, rfl⟩ := Reply.gives_done.mp h
    exact .chainEnd ahead_nil
  | token :: tokens =>
    rw [binaryRest] at h
    split at h
    · next hop =>
      obtain ⟨rfl, rfl⟩ := Reply.gives_done.mp h
      exact .chainEnd (ahead_cons.mpr hop)
    · next op hop =>
      simp only [Reply.gives_widen, Reply.gives_andThen] at h
      obtain ⟨right, middle, hlen, hright, h⟩ := h
      exact .chainCons hop (reads_operand blocks level tokens hright)
        (reads_chain blocks level _ middle h)
termination_by (tokens.length, 0)

lemma reads_operand (blocks : Nat) (level : Level) (tokens : List Token) {node : Node}
    {rest : List Token} (h : (operand blocks level tokens).Gives node rest) :
    Reads (.operand level node) tokens rest := by
  match level with
  | .sum =>
    rw [operand] at h
    exact .operandSum (reads_binary blocks .product tokens h)
  | .product =>
    rw [operand] at h
    exact .operandProduct (reads_unary blocks tokens h)
termination_by (tokens.length, level.rank)

lemma reads_unary (blocks : Nat) (tokens : List Token) {node : Node} {rest : List Token}
    (h : (unary blocks tokens).Gives node rest) : Reads (.unary node) tokens rest := by
  match tokens with
  | [] =>
    rw [unary] at h
    exact .unaryPrimary ahead_nil (reads_primary blocks [] h)
  | token :: tokens =>
    rw [unary] at h
    split at h
    · next op hop =>
      rw [Reply.gives_widen, Reply.gives_map] at h
      obtain ⟨inner, hinner, rfl⟩ := h
      exact .unarySign hop (reads_unary blocks tokens hinner)
    · next hsign => exact .unaryPrimary (ahead_cons.mpr hsign) (reads_primary blocks (token :: tokens) h)
termination_by (tokens.length, 2)

lemma reads_primary (blocks : Nat) (tokens : List Token) {node : Node} {rest : List Token}
    (h : (primary blocks tokens).Gives node rest) : Reads (.primary node) tokens rest := by
  match tokens with
  | [] => simp [primary] at h
  | token :: tokens =>
    rw [primary.eq_def] at h
    dsimp only at h
    split at h
    · next hkind =>
      split at h
      · next n hn =>
        obtain ⟨rfl, rfl⟩ := Reply.gives_done.mp h
        exact .primaryNumber hkind hn
      · simp at h
    · next hkind =>
      obtain ⟨rfl, rfl⟩ := Reply.gives_done.mp h
      exact .primaryString hkind
    · next hkind =>
      obtain ⟨rfl, rfl⟩ := Reply.gives_done.mp h
      exact .primaryTrue hkind
    · next hkind =>
      obtain ⟨rfl, rfl⟩ := Reply.gives_done.mp h
      exact .primaryFalse hkind
    · next hopen =>
      simp only [Reply.gives_widen, Reply.gives_andThen, Reply.gives_map, gives_paren] at h
      obtain ⟨inner, middle, hlen, hinner, _, ⟨close, rfl, hclose⟩, rfl⟩ := h
      exact .primaryGroup hopen (reads_expression blocks tokens hinner) hclose
    · next hdo =>
      rw [Reply.gives_widen, block, Reply.gives_map] at h
      obtain ⟨body, hbody, rfl⟩ := h
      exact .primaryBlock hdo (reads_statements _ tokens hbody)
    · next hname =>
      cases tokens with
      | nil =>
        obtain ⟨rfl, rfl⟩ := Reply.gives_done.mp h
        exact .primaryName hname ahead_nil
      | cons next tokens =>
        dsimp only at h
        split at h
        · next hopen =>
          rw [Reply.gives_widen, Reply.gives_map] at h
          obtain ⟨inner, hinner, rfl⟩ := h
          exact .primaryCall hname hopen (reads_arguments blocks tokens hinner)
        · next hopen =>
          obtain ⟨rfl, rfl⟩ := Reply.gives_done.mp h
          exact .primaryName hname (ahead_cons.mpr hopen)
    · simp at h
termination_by (tokens.length, 1)

lemma reads_arguments (blocks : Nat) (tokens : List Token) {nodes : List Node} {rest : List Token}
    (h : (arguments blocks tokens).Gives nodes rest) : Reads (.arguments nodes) tokens rest := by
  match tokens with
  | [] => simp [arguments] at h
  | token :: tokens =>
    rw [arguments] at h
    split at h
    · next hclose =>
      obtain ⟨rfl, rfl⟩ := Reply.gives_done.mp h
      exact .argumentsEnd hclose
    · next hclose =>
      simp only [Reply.gives_widen, Reply.gives_andThen, gives_goesOn] at h
      obtain ⟨first, _, hlen, hfirst, more, middle, hlen', ⟨next, rfl, hnext⟩, h⟩ := h
      have hfirst' := reads_expression blocks (token :: tokens) hfirst
      have hshorter := Nat.lt_trans hlen' hlen
      cases more with
      | false =>
        obtain ⟨rfl, rfl⟩ := Reply.gives_done.mp h
        exact .argumentsLast (ahead_cons.mpr hclose) hfirst' hnext
      | true =>
        simp only [if_true, Reply.gives_widen, Reply.gives_map] at h
        obtain ⟨others, hothers, rfl⟩ := h
        exact .argumentsComma (ahead_cons.mpr hclose) hfirst' hnext
          (reads_arguments blocks middle hothers)
termination_by (tokens.length, 9)

end

/-- The parser's own rule gives the value of the phrase. -/
def Phrase.Given (blocks : Nat) (tokens rest : List Token) : Phrase → Prop
  | .statement node => (Parser.statement blocks tokens).Gives node rest
  | .statements body => (Parser.statements blocks tokens).Gives body rest
  | .expression node => (Parser.expression blocks tokens).Gives node rest
  | .slots list => (Parser.slots blocks tokens).Gives list rest
  | .signature name params => (Parser.signature blocks tokens).Gives (name, params) rest
  | .parameters names => (Parser.parameters blocks tokens).Gives names rest
  | .assignment node => (Parser.assignment blocks tokens).Gives node rest
  | .binary level node => (Parser.binary blocks level tokens).Gives node rest
  | .chain level left node => (Parser.binaryRest blocks level left tokens).Gives node rest
  | .operand level node => (Parser.operand blocks level tokens).Gives node rest
  | .unary node => (Parser.unary blocks tokens).Gives node rest
  | .primary node => (Parser.primary blocks tokens).Gives node rest
  | .arguments nodes => (Parser.arguments blocks tokens).Gives nodes rest

/-- Every derivation is found by the parser, whatever the number of open blocks. -/
theorem given_of_reads {phrase : Phrase} {tokens rest : List Token}
    (h : Reads phrase tokens rest) : ∀ blocks, phrase.Given blocks tokens rest := by
  induction h with
  | statementBlock hdo _ ih =>
    intro blocks
    rw [Phrase.Given, statement]
    simp only [hdo, block, Reply.gives_widen, Reply.gives_map]
    exact ⟨_, ih _, rfl⟩
  | @statementExpression tokens _ _ hdo _ ih =>
    intro blocks
    cases tokens with
    | nil =>
      rw [Phrase.Given, statement, Reply.gives_map]
      exact ⟨_, ih _, rfl⟩
    | cons token tokens =>
      rw [Phrase.Given, statement]
      split
      · next h => exact absurd h (ahead_cons.mp hdo)
      · rw [Reply.gives_map]
        exact ⟨_, ih _, rfl⟩
  | statementsEnd hend =>
    intro blocks
    rw [Phrase.Given, statements]
    simp [hend]
  | @statementsCons tokens _ _ _ _ hend _ _ ihfirst ihbody =>
    intro blocks
    have hfirst := ihfirst blocks
    cases tokens with
    | nil => exact absurd hfirst.length_lt (Nat.not_lt_zero _)
    | cons token tokens =>
      rw [Phrase.Given, statements]
      split
      · next h => exact absurd h (ahead_cons.mp hend)
      · simp only [Reply.gives_andThen, Reply.gives_widen, Reply.gives_map]
        exact ⟨_, _, hfirst.length_lt, hfirst, _, ihbody _, rfl⟩
  | expressionArray hopen _ ih =>
    intro blocks
    rw [Phrase.Given, expression]
    simp only [hopen, Reply.gives_widen, Reply.gives_map]
    exact ⟨_, ih _, rfl⟩
  | expressionFunction hkeyword _ _ ihsignature ihbody =>
    intro blocks
    have hsignature := ihsignature blocks
    rw [Phrase.Given, expression]
    simp only [hkeyword, block, Reply.gives_widen, Reply.gives_andThen, Reply.gives_map]
    exact ⟨_, _, hsignature.length_lt, hsignature, _, ⟨_, ihbody _, rfl⟩, rfl⟩
  | @expressionAssignment tokens _ _ hstart _ ih =>
    intro blocks
    cases tokens with
    | nil =>
      rw [Phrase.Given, expression]
      exact ih _
    | cons token tokens =>
      rw [Phrase.Given, expression]
      split
      · next h => exact absurd h (ahead_cons.mp hstart).1
      · next h => exact absurd h (ahead_cons.mp hstart).2
      · exact ih _
  | slotsEnd hclose =>
    intro blocks
    rw [Phrase.Given, Parser.slots]
    simp [hclose]
  | slotsEmpty hcomma _ ih =>
    intro blocks
    rw [Phrase.Given, Parser.slots]
    simp only [hcomma, Reply.gives_widen, Reply.gives_map]
    exact ⟨_, ih _, rfl⟩
  | @slotsComma tokens _ _ _ _ _ hstart _ hcomma _ ihfirst ihslots =>
    intro blocks
    have hfirst := ihfirst blocks
    cases tokens with
    | nil => exact absurd hfirst.length_lt (Nat.not_lt_zero _)
    | cons token tokens =>
      rw [Phrase.Given, Parser.slots]
      split
      · next h => exact absurd h (ahead_cons.mp hstart).1
      · next h => exact absurd h (ahead_cons.mp hstart).2
      · rw [Reply.gives_andThen]
        refine ⟨_, _, hfirst.length_lt, hfirst, ?_⟩
        simp only [hcomma, Reply.gives_widen, Reply.gives_map]
        exact ⟨_, ihslots _, rfl⟩
  | @slotsLast tokens _ _ _ hstart _ hclose ihfirst =>
    intro blocks
    have hfirst := ihfirst blocks
    cases tokens with
    | nil => exact absurd hfirst.length_lt (Nat.not_lt_zero _)
    | cons token tokens =>
      rw [Phrase.Given, Parser.slots]
      split
      · next h => exact absurd h (ahead_cons.mp hstart).1
      · next h => exact absurd h (ahead_cons.mp hstart).2
      · rw [Reply.gives_andThen]
        refine ⟨_, _, hfirst.length_lt, hfirst, ?_⟩
        simp [hclose]
  | signatureNameless hopen _ ih =>
    intro blocks
    rw [Phrase.Given, signature]
    simp only [hopen, Reply.gives_widen, Reply.gives_map]
    exact ⟨_, ih _, rfl⟩
  | signatureNamed hname hopen _ ih =>
    intro blocks
    rw [Phrase.Given, signature]
    simp only [hname, Reply.gives_widen, Reply.gives_andThen, gives_paren, Reply.gives_map]
    exact ⟨(), _, Nat.lt_succ_self _, ⟨_, rfl, hopen⟩, _, ih _, rfl⟩
  | parametersEnd hclose =>
    intro blocks
    rw [Phrase.Given, parameters]
    simp [hclose]
  | parametersComma hname hcomma _ ih =>
    intro blocks
    rw [Phrase.Given, parameters]
    simp only [hname, Reply.gives_widen, Reply.gives_andThen, gives_goesOn]
    refine ⟨true, _, Nat.lt_succ_self _, ⟨_, rfl, hcomma⟩, ?_⟩
    simp only [if_true, Reply.gives_widen, Reply.gives_map]
    exact ⟨_, ih _, rfl⟩
  | parametersLast hname hclose =>
    intro blocks
    rw [Phrase.Given, parameters]
    simp only [hname, Reply.gives_widen, Reply.gives_andThen, gives_goesOn]
    exact ⟨false, _, Nat.lt_succ_self _, ⟨_, rfl, hclose⟩, by simp⟩
  | @assignmentValue _ rest _ _ hstop ih =>
    intro blocks
    have hnode := ih blocks
    rw [Phrase.Given, assignment, Reply.gives_andThen]
    refine ⟨_, _, hnode.length_lt, hnode, ?_⟩
    cases rest with
    | nil => simp
    | cons token rest => simp [ahead_cons.mp hstop]
  | assignmentTo _ hshape hop htarget _ ihleft ihright =>
    intro blocks
    have hleft := ihleft blocks
    rw [Phrase.Given, assignment, Reply.gives_andThen]
    refine ⟨_, _, hleft.length_lt, hleft, ?_⟩
    simp only [hshape, hop, htarget, if_true, Reply.gives_widen, Reply.gives_map]
    exact ⟨_, ihright _, rfl⟩
  | binary _ _ ihleft ihchain =>
    intro blocks
    have hleft := ihleft blocks
    rw [Phrase.Given, Parser.binary, Reply.gives_andThen]
    refine ⟨_, _, hleft.length_lt, hleft, ?_⟩
    rw [Reply.gives_widen]
    exact ihchain _
  | @chainEnd _ _ rest hstop =>
    intro blocks
    cases rest with
    | nil =>
      rw [Phrase.Given, binaryRest]
      simp
    | cons token rest =>
      rw [Phrase.Given, binaryRest]
      simp [ahead_cons.mp hstop]
  | chainCons hop _ _ ihright ihchain =>
    intro blocks
    have hright := ihright blocks
    rw [Phrase.Given, binaryRest]
    simp only [hop, Reply.gives_widen, Reply.gives_andThen]
    exact ⟨_, _, hright.length_lt, hright, ihchain _⟩
  | operandSum _ ih =>
    intro blocks
    rw [Phrase.Given, operand]
    exact ih _
  | operandProduct _ ih =>
    intro blocks
    rw [Phrase.Given, operand]
    exact ih _
  | unarySign hop _ ih =>
    intro blocks
    rw [Phrase.Given, unary]
    simp only [hop, Reply.gives_widen, Reply.gives_map]
    exact ⟨_, ih _, rfl⟩
  | @unaryPrimary tokens _ _ hsign _ ih =>
    intro blocks
    cases tokens with
    | nil =>
      rw [Phrase.Given, unary]
      exact ih _
    | cons token tokens =>
      rw [Phrase.Given, unary]
      simp only [ahead_cons.mp hsign]
      exact ih _
  | primaryNumber hkind hvalue =>
    intro blocks
    rw [Phrase.Given, primary.eq_def]
    simp [hkind, hvalue]
  | primaryString hkind | primaryTrue hkind | primaryFalse hkind =>
    intro blocks
    rw [Phrase.Given, primary.eq_def]
    simp [hkind]
  | primaryGroup hopen _ hclose ih =>
    intro blocks
    have hinner := ih blocks
    rw [Phrase.Given, primary.eq_def]
    simp only [hopen, Reply.gives_widen, Reply.gives_andThen, Reply.gives_map, gives_paren]
    exact ⟨_, _, hinner.length_lt, hinner, (), ⟨_, rfl, hclose⟩, rfl⟩
  | primaryBlock hdo _ ih =>
    intro blocks
    rw [Phrase.Given, primary.eq_def]
    simp only [hdo, block, Reply.gives_widen, Reply.gives_map]
    exact ⟨_, ih _, rfl⟩
  | primaryCall hname hopen _ ih =>
    intro blocks
    rw [Phrase.Given, primary.eq_def]
    simp only [hname, hopen, Reply.gives_widen, Reply.gives_map]
    exact ⟨_, ih _, rfl⟩
  | @primaryName token rest hname hstop =>
    intro blocks
    rw [Phrase.Given, primary.eq_def]
    cases rest with
    | nil => simp [hname]
    | cons next rest =>
      have hopen := ahead_cons.mp hstop
      simp [hname]
  | argumentsEnd hclose =>
    intro blocks
    rw [Phrase.Given, arguments]
    simp [hclose]
  | @argumentsComma tokens _ _ _ _ _ hstart _ hcomma _ ihfirst iharguments =>
    intro blocks
    have hfirst := ihfirst blocks
    cases tokens with
    | nil => exact absurd hfirst.length_lt (Nat.not_lt_zero _)
    | cons token tokens =>
      rw [Phrase.Given, arguments]
      split
      · next h => exact absurd h (ahead_cons.mp hstart)
      · simp only [Reply.gives_widen, Reply.gives_andThen, gives_goesOn]
        refine ⟨_, _, hfirst.length_lt, hfirst, true, _, Nat.lt_succ_self _, ⟨_, rfl, hcomma⟩, ?_⟩
        simp only [if_true, Reply.gives_widen, Reply.gives_map]
        exact ⟨_, iharguments _, rfl⟩
  | @argumentsLast tokens _ _ _ hstart _ hclose ihfirst =>
    intro blocks
    have hfirst := ihfirst blocks
    cases tokens with
    | nil => exact absurd hfirst.length_lt (Nat.not_lt_zero _)
    | cons token tokens =>
      rw [Phrase.Given, arguments]
      split
      · next h => exact absurd h (ahead_cons.mp hstart)
      · simp only [Reply.gives_widen, Reply.gives_andThen, gives_goesOn]
        exact ⟨_, _, hfirst.length_lt, hfirst, false, _, Nat.lt_succ_self _, ⟨_, rfl, hclose⟩, by simp⟩

/-- A text is parsed as a tree exactly if the tree is read off all of its tokens. -/
theorem parse_eq_some_iff {source : String} {node : Node} :
    parse source = .ok (some node) ↔ Reads (.statement node) (Token.scan source) [] := by
  rw [parse, parseTokens.eq_def]
  constructor
  · intro h
    split at h
    · cases h
    · split at h
      · cases h
      · next hdone =>
        cases h
        exact reads_statement 0 _ ⟨_, hdone⟩
      · cases h
  · intro h
    obtain ⟨shorter, hgiven⟩ := given_of_reads h 0
    split
    · next hnil =>
      rw [hnil] at shorter
      exact absurd shorter (Nat.not_lt_zero _)
    · rw [hgiven]

end Parser

end ScriptConsole
