import ScriptConsole.Proofs.Reading

/-!
# The grammar

`Derives phrase tokens` is the grammar of statements as a relation between trees and token
sequences: one rule for each alternative, with no order among the alternatives and no look at the
tokens behind a phrase. `Reads.derives` shows that the parser only builds trees of this grammar, out
of all the tokens it has used.
-/

namespace ScriptConsole

lemma UnaryOp.eq_text_of_ofLexeme? {lexeme : String} {op : UnaryOp}
    (h : ofLexeme? lexeme = some op) : lexeme = op.text := by
  unfold ofLexeme? at h
  split at h <;> cases h <;> rfl

lemma BinaryOp.eq_text_of_ofLexeme? {lexeme : String} {op : BinaryOp}
    (h : ofLexeme? lexeme = some op) : lexeme = op.text := by
  unfold ofLexeme? at h
  split at h <;> cases h <;> rfl

lemma AssignOp.eq_text_of_ofLexeme? {lexeme : String} {op : AssignOp}
    (h : ofLexeme? lexeme = some op) : lexeme = op.text := by
  unfold ofLexeme? at h
  split at h <;> cases h <;> rfl

namespace Parser

/-- The token is an operator with the given text. -/
def IsOperator (text : String) (token : Token) : Prop :=
  token.kind = .operator ∧ token.lexeme = text

lemma operator?_eq_some_iff {level : Level} {token : Token} {op : BinaryOp} :
    operator? level token = some op ↔ IsOperator op.text token ∧ levelOf op = level := by
  unfold operator? IsOperator
  split
  · next hkind =>
    rw [Option.filter_eq_some_iff, decide_eq_true_eq]
    constructor
    · rintro ⟨hop, hlevel⟩
      exact ⟨⟨hkind, BinaryOp.eq_text_of_ofLexeme? hop⟩, hlevel⟩
    · rintro ⟨⟨-, hlexeme⟩, hlevel⟩
      exact ⟨by rw [hlexeme, BinaryOp.ofLexeme?_text], hlevel⟩
  · next hkind => simp [hkind]

lemma sign?_eq_some_iff {token : Token} {op : UnaryOp} :
    sign? token = some op ↔ IsOperator op.text token := by
  unfold sign? IsOperator
  split
  · next hkind =>
    constructor
    · intro hop
      exact ⟨hkind, UnaryOp.eq_text_of_ofLexeme? hop⟩
    · rintro ⟨-, hlexeme⟩
      rw [hlexeme, UnaryOp.ofLexeme?_text]
  · next hkind => simp [hkind]

/-- A token looks like an assignment and has a meaning exactly if it is an assignment operator. -/
lemma looksLikeAssignment_and_iff {token : Token} {op : AssignOp} :
    looksLikeAssignment token = true ∧ AssignOp.ofLexeme? token.lexeme = some op ↔
      IsOperator op.text token := by
  constructor
  · rintro ⟨hshape, hop⟩
    simp only [looksLikeAssignment, Bool.and_eq_true, beq_iff_eq] at hshape
    exact ⟨hshape.1, AssignOp.eq_text_of_ofLexeme? hop⟩
  · rintro ⟨hkind, hlexeme⟩
    refine ⟨?_, by rw [hlexeme, AssignOp.ofLexeme?_text]⟩
    rw [looksLikeAssignment, hkind, hlexeme]
    cases op with
    | assign => decide
    | compound op => cases op <;> decide

/-- The trees of the grammar with the token sequences they are written as. The statements of a block
end with `end`, the slots of an array with the closing bracket, parameters and arguments with the
closing parenthesis. A comma stands behind each item but may be left out behind the last one, and a
comma where a slot could start is an empty slot. -/
inductive Derives : Phrase → List Token → Prop
  | statementBlock {token tokens body} (hdo : token.kind = .keywordDo)
      (hbody : Derives (.statements body) tokens) :
      Derives (.statement (.block body)) (token :: tokens)
  | statementExpression {tokens inner} (hinner : Derives (.expression inner) tokens) :
      Derives (.statement (.statement inner)) tokens
  | statementsEnd {token} (hend : token.kind = .keywordEnd) : Derives (.statements []) [token]
  | statementsCons {tokens tokens' first body} (hfirst : Derives (.statement first) tokens)
      (hbody : Derives (.statements body) tokens') :
      Derives (.statements (first :: body)) (tokens ++ tokens')
  | expressionArray {token tokens slots} (hopen : token.kind = .leftBracket)
      (hslots : Derives (.slots slots) tokens) :
      Derives (.expression (.array slots)) (token :: tokens)
  | expressionFunction {token tokens tokens' name params body}
      (hkeyword : token.kind = .keywordFunction) (hsignature : Derives (.signature name params) tokens)
      (hbody : Derives (.statements body) tokens') :
      Derives (.expression (.function name params (.block body))) (token :: tokens ++ tokens')
  | expressionAssignment {tokens node} (hnode : Derives (.assignment node) tokens) :
      Derives (.expression node) tokens
  | slotsEnd {token} (hclose : token.kind = .rightBracket) : Derives (.slots []) [token]
  | slotsEmpty {token tokens slots} (hcomma : token.kind = .comma)
      (hslots : Derives (.slots slots) tokens) : Derives (.slots (none :: slots)) (token :: tokens)
  | slotsComma {tokens token tokens' first slots} (hfirst : Derives (.expression first) tokens)
      (hcomma : token.kind = .comma) (hslots : Derives (.slots slots) tokens') :
      Derives (.slots (some first :: slots)) (tokens ++ token :: tokens')
  | slotsLast {tokens token first} (hfirst : Derives (.expression first) tokens)
      (hclose : token.kind = .rightBracket) : Derives (.slots [some first]) (tokens ++ [token])
  | signatureNameless {token tokens params} (hopen : token.kind = .leftParen)
      (hparams : Derives (.parameters params) tokens) :
      Derives (.signature none params) (token :: tokens)
  | signatureNamed {token next tokens params} (hname : token.kind = .identifier)
      (hopen : next.kind = .leftParen) (hparams : Derives (.parameters params) tokens) :
      Derives (.signature (some token.lexeme) params) (token :: next :: tokens)
  | parametersEnd {token} (hclose : token.kind = .rightParen) : Derives (.parameters []) [token]
  | parametersComma {token next tokens names} (hname : token.kind = .identifier)
      (hcomma : next.kind = .comma) (hnames : Derives (.parameters names) tokens) :
      Derives (.parameters (token.lexeme :: names)) (token :: next :: tokens)
  | parametersLast {token next} (hname : token.kind = .identifier)
      (hclose : next.kind = .rightParen) : Derives (.parameters [token.lexeme]) [token, next]
  | assignmentValue {tokens node} (hnode : Derives (.binary .sum node) tokens) :
      Derives (.assignment node) tokens
  | assignmentTo {tokens token tokens' op left right} (hleft : Derives (.binary .sum left) tokens)
      (hop : IsOperator (AssignOp.text op) token) (htarget : isTarget left = true)
      (hright : Derives (.expression right) tokens') :
      Derives (.assignment (.assignment op left right)) (tokens ++ token :: tokens')
  | binaryOperand {level tokens node} (hnode : Derives (.operand level node) tokens) :
      Derives (.binary level node) tokens
  | binaryOperator {level tokens token tokens' op left right}
      (hleft : Derives (.binary level left) tokens) (hop : IsOperator (BinaryOp.text op) token)
      (hlevel : levelOf op = level) (hright : Derives (.operand level right) tokens') :
      Derives (.binary level (.binary op left right)) (tokens ++ token :: tokens')
  | operandSum {tokens node} (hnode : Derives (.binary .product node) tokens) :
      Derives (.operand .sum node) tokens
  | operandProduct {tokens node} (hnode : Derives (.unary node) tokens) :
      Derives (.operand .product node) tokens
  | unarySign {token tokens op operand} (hop : IsOperator (UnaryOp.text op) token)
      (hoperand : Derives (.unary operand) tokens) :
      Derives (.unary (.unary op operand)) (token :: tokens)
  | unaryPrimary {tokens node} (hnode : Derives (.primary node) tokens) :
      Derives (.unary node) tokens
  | primaryNumber {token n} (hkind : token.kind = .number)
      (hvalue : Number.ofDecimal? token.lexeme.toList = some n) :
      Derives (.primary (.literal (.number n))) [token]
  | primaryString {token} (hkind : token.kind = .string) :
      Derives (.primary (.literal (.string token.stringValue))) [token]
  | primaryTrue {token} (hkind : token.kind = .keywordTrue) :
      Derives (.primary (.literal (.bool true))) [token]
  | primaryFalse {token} (hkind : token.kind = .keywordFalse) :
      Derives (.primary (.literal (.bool false))) [token]
  | primaryGroup {token tokens close inner} (hopen : token.kind = .leftParen)
      (hinner : Derives (.expression inner) tokens) (hclose : close.kind = .rightParen) :
      Derives (.primary (inner.withGrouped true)) (token :: tokens ++ [close])
  | primaryBlock {token tokens body} (hdo : token.kind = .keywordDo)
      (hbody : Derives (.statements body) tokens) :
      Derives (.primary (.block body)) (token :: tokens)
  | primaryCall {token next tokens arguments} (hname : token.kind = .identifier)
      (hopen : next.kind = .leftParen) (harguments : Derives (.arguments arguments) tokens) :
      Derives (.primary (.call token.lexeme arguments)) (token :: next :: tokens)
  | primaryName {token} (hname : token.kind = .identifier) :
      Derives (.primary (.identifier token.lexeme)) [token]
  | argumentsEnd {token} (hclose : token.kind = .rightParen) : Derives (.arguments []) [token]
  | argumentsComma {tokens token tokens' first arguments}
      (hfirst : Derives (.expression first) tokens) (hcomma : token.kind = .comma)
      (harguments : Derives (.arguments arguments) tokens') :
      Derives (.arguments (first :: arguments)) (tokens ++ token :: tokens')
  | argumentsLast {tokens token first} (hfirst : Derives (.expression first) tokens)
      (hclose : token.kind = .rightParen) : Derives (.arguments [first]) (tokens ++ [token])

/-- What the tokens a rule has used are in the grammar. The operators and operands that follow a
first operand are derived together with the operand in front of them. -/
def Phrase.DerivedFrom (used : List Token) : Phrase → Prop
  | .chain level left node =>
    ∀ before, Derives (.binary level left) before → Derives (.binary level node) (before ++ used)
  | phrase => Derives phrase used

/-- A rule that succeeds has derived its value from exactly the tokens it has used. -/
theorem Reads.derives {phrase : Phrase} {tokens rest : List Token} (h : Reads phrase tokens rest) :
    ∃ used, tokens = used ++ rest ∧ phrase.DerivedFrom used := by
  induction h with
  | @statementBlock token _ _ _ hdo _ ih =>
    obtain ⟨used, rfl, hbody⟩ := ih
    exact ⟨token :: used, rfl, .statementBlock hdo hbody⟩
  | statementExpression _ _ ih =>
    obtain ⟨used, rfl, hinner⟩ := ih
    exact ⟨used, rfl, .statementExpression hinner⟩
  | @statementsEnd token _ hend => exact ⟨[token], rfl, .statementsEnd hend⟩
  | statementsCons _ _ _ ihfirst ihbody =>
    obtain ⟨used, rfl, hfirst⟩ := ihfirst
    obtain ⟨used', rfl, hbody⟩ := ihbody
    exact ⟨used ++ used', by simp, .statementsCons hfirst hbody⟩
  | @expressionArray token _ _ _ hopen _ ih =>
    obtain ⟨used, rfl, hslots⟩ := ih
    exact ⟨token :: used, rfl, .expressionArray hopen hslots⟩
  | @expressionFunction token _ _ _ _ _ _ hkeyword _ _ ihsignature ihbody =>
    obtain ⟨used, rfl, hsignature⟩ := ihsignature
    obtain ⟨used', rfl, hbody⟩ := ihbody
    exact ⟨token :: used ++ used', by simp, .expressionFunction hkeyword hsignature hbody⟩
  | expressionAssignment _ _ ih =>
    obtain ⟨used, rfl, hnode⟩ := ih
    exact ⟨used, rfl, .expressionAssignment hnode⟩
  | @slotsEnd token _ hclose => exact ⟨[token], rfl, .slotsEnd hclose⟩
  | @slotsEmpty token _ _ _ hcomma _ ih =>
    obtain ⟨used, rfl, hslots⟩ := ih
    exact ⟨token :: used, rfl, .slotsEmpty hcomma hslots⟩
  | @slotsComma _ token _ _ _ _ _ _ hcomma _ ihfirst ihslots =>
    obtain ⟨used, rfl, hfirst⟩ := ihfirst
    obtain ⟨used', rfl, hslots⟩ := ihslots
    exact ⟨used ++ token :: used', by simp, .slotsComma hfirst hcomma hslots⟩
  | @slotsLast _ token _ _ _ _ hclose ihfirst =>
    obtain ⟨used, rfl, hfirst⟩ := ihfirst
    exact ⟨used ++ [token], by simp, .slotsLast hfirst hclose⟩
  | @signatureNameless token _ _ _ hopen _ ih =>
    obtain ⟨used, rfl, hparams⟩ := ih
    exact ⟨token :: used, rfl, .signatureNameless hopen hparams⟩
  | @signatureNamed token next _ _ _ hname hopen _ ih =>
    obtain ⟨used, rfl, hparams⟩ := ih
    exact ⟨token :: next :: used, rfl, .signatureNamed hname hopen hparams⟩
  | @parametersEnd token _ hclose => exact ⟨[token], rfl, .parametersEnd hclose⟩
  | @parametersComma token next _ _ _ hname hcomma _ ih =>
    obtain ⟨used, rfl, hnames⟩ := ih
    exact ⟨token :: next :: used, rfl, .parametersComma hname hcomma hnames⟩
  | @parametersLast token next _ hname hclose =>
    exact ⟨[token, next], rfl, .parametersLast hname hclose⟩
  | assignmentValue _ _ ih =>
    obtain ⟨used, rfl, hnode⟩ := ih
    exact ⟨used, rfl, .assignmentValue hnode⟩
  | @assignmentTo _ token _ _ _ _ _ _ hshape hop htarget _ ihleft ihright =>
    obtain ⟨used, rfl, hleft⟩ := ihleft
    obtain ⟨used', rfl, hright⟩ := ihright
    have hoperator := looksLikeAssignment_and_iff.mp ⟨hshape, hop⟩
    exact ⟨used ++ token :: used', by simp, .assignmentTo hleft hoperator htarget hright⟩
  | binary _ _ ihleft ihchain =>
    obtain ⟨used, rfl, hleft⟩ := ihleft
    obtain ⟨used', rfl, hchain⟩ := ihchain
    exact ⟨used ++ used', by simp, hchain used (.binaryOperand hleft)⟩
  | chainEnd _ => exact ⟨[], rfl, fun before hleft => by simpa using hleft⟩
  | @chainCons _ _ _ _ token _ _ _ _ hop _ _ ihright ihchain =>
    obtain ⟨used, rfl, hright⟩ := ihright
    obtain ⟨used', rfl, hchain⟩ := ihchain
    obtain ⟨hoperator, hlevel⟩ := operator?_eq_some_iff.mp hop
    refine ⟨token :: used ++ used', by simp, fun before hleft => ?_⟩
    simpa using hchain _ (.binaryOperator hleft hoperator hlevel hright)
  | operandSum _ ih =>
    obtain ⟨used, rfl, hnode⟩ := ih
    exact ⟨used, rfl, .operandSum hnode⟩
  | operandProduct _ ih =>
    obtain ⟨used, rfl, hnode⟩ := ih
    exact ⟨used, rfl, .operandProduct hnode⟩
  | @unarySign token _ _ _ _ hop _ ih =>
    obtain ⟨used, rfl, hoperand⟩ := ih
    exact ⟨token :: used, rfl, .unarySign (sign?_eq_some_iff.mp hop) hoperand⟩
  | unaryPrimary _ _ ih =>
    obtain ⟨used, rfl, hnode⟩ := ih
    exact ⟨used, rfl, .unaryPrimary hnode⟩
  | @primaryNumber token _ _ hkind hvalue => exact ⟨[token], rfl, .primaryNumber hkind hvalue⟩
  | @primaryString token _ hkind => exact ⟨[token], rfl, .primaryString hkind⟩
  | @primaryTrue token _ hkind => exact ⟨[token], rfl, .primaryTrue hkind⟩
  | @primaryFalse token _ hkind => exact ⟨[token], rfl, .primaryFalse hkind⟩
  | @primaryGroup token _ close _ _ hopen _ hclose ih =>
    obtain ⟨used, rfl, hinner⟩ := ih
    exact ⟨token :: used ++ [close], by simp, .primaryGroup hopen hinner hclose⟩
  | @primaryBlock token _ _ _ hdo _ ih =>
    obtain ⟨used, rfl, hbody⟩ := ih
    exact ⟨token :: used, rfl, .primaryBlock hdo hbody⟩
  | @primaryCall token next _ _ _ hname hopen _ ih =>
    obtain ⟨used, rfl, harguments⟩ := ih
    exact ⟨token :: next :: used, rfl, .primaryCall hname hopen harguments⟩
  | @primaryName token _ hname _ => exact ⟨[token], rfl, .primaryName hname⟩
  | @argumentsEnd token _ hclose => exact ⟨[token], rfl, .argumentsEnd hclose⟩
  | @argumentsComma _ token _ _ _ _ _ _ hcomma _ ihfirst iharguments =>
    obtain ⟨used, rfl, hfirst⟩ := ihfirst
    obtain ⟨used', rfl, harguments⟩ := iharguments
    exact ⟨used ++ token :: used', by simp, .argumentsComma hfirst hcomma harguments⟩
  | @argumentsLast _ token _ _ _ _ hclose ihfirst =>
    obtain ⟨used, rfl, hfirst⟩ := ihfirst
    exact ⟨used ++ [token], by simp, .argumentsLast hfirst hclose⟩

end Parser

end ScriptConsole
