import ScriptConsole.Error
import ScriptConsole.Token.Scanner
import ScriptConsole.Tree.Node

/-!
# Parsing

The grammar, loosest binding first:

```text
statement   = "do" block | expression
block       = statement* "end"
expression  = array | function | assignment
array       = "[" ( expression ( "," | before "]" ) | "," )* "]"
function    = "function" name? "(" ( name ( "," | before ")" ) )* ")" block
assignment  = sum ( assignment-operator expression )?
sum         = product ( ( "+" | "-" ) product )*
product     = unary ( ( "*" | "/" | "%" ) unary )*
unary       = ( "+" | "-" | "!" ) unary | primary
primary     = number | string | "true" | "false" | "(" expression ")" | "do" block
            | name "(" ( expression ( "," | before ")" ) )* ")" | name
```

A rule reads tokens from the front and answers with a `Reply`. The reply of a rule that succeeds
carries the proof that the rule has used a token, and this is why the rules, which call each other,
come to an end. Every rule is told how many blocks are open around it: where the tokens run out
inside a block, more lines may complete it, and the error says so.
-/

namespace ScriptConsole

/-- The answer of a rule that was given `size` tokens. -/
inductive Reply (α : Type) (size : Nat)
  /-- The rule has read a value, and fewer tokens remain. -/
  | done (value : α) (rest : List Token) (shorter : rest.length < size)
  /-- The rule has failed in front of the tokens that remain, with so many blocks open. -/
  | fail (error : Error) (blocks : Nat) (rest : List Token) (within : rest.length ≤ size)

namespace Reply

variable {α β : Type} {size larger : Nat}

/-- The same answer, about more tokens. -/
def widen (h : size ≤ larger) : Reply α size → Reply α larger
  | .done value rest shorter => .done value rest (Nat.lt_of_lt_of_le shorter h)
  | .fail error blocks rest within => .fail error blocks rest (Nat.le_trans within h)

/-- The same answer with a function applied to the value. -/
def map (f : α → β) : Reply α size → Reply β size
  | .done value rest shorter => .done (f value) rest shorter
  | .fail error blocks rest within => .fail error blocks rest within

/-- Goes on after a success; a failure stays. -/
def andThen (reply : Reply α size)
    (next : α → (rest : List Token) → rest.length < size → Reply β size) : Reply β size :=
  match reply with
  | .done value rest shorter => next value rest shorter
  | .fail error blocks rest within => .fail error blocks rest within

end Reply

namespace Parser

/-- The levels of binary operators: those of a product bind tighter than those of a sum. -/
inductive Level
  | sum
  | product
deriving DecidableEq, Repr

/-- Among the rules that call each other in front of the same tokens, an operand comes at this
place, counted from the primary expressions on. -/
@[simp]
def Level.rank : Level → Nat
  | .sum => 5
  | .product => 3

/-- The level of an operator. -/
def levelOf : BinaryOp → Level
  | .add | .subtract => .sum
  | .multiply | .divide | .remainder => .product

/-- The binary operator of a level that a token is, if it is one. -/
def operator? (level : Level) (token : Token) : Option BinaryOp :=
  if token.kind = .operator then
    (BinaryOp.ofLexeme? token.lexeme).filter fun op => levelOf op = level
  else
    none

/-- The operator in front of an operand that a token is, if it is one. -/
def sign? (token : Token) : Option UnaryOp :=
  if token.kind = .operator then UnaryOp.ofLexeme? token.lexeme else none

/-- Whether a token looks like an assignment operator. -/
def looksLikeAssignment (token : Token) : Bool :=
  token.kind == .operator && AssignOp.hasShape token.lexeme

/-- Whether a node can stand on the left of an assignment. -/
def isTarget : Node → Bool
  | .identifier .. | .call .. => true
  | _ => false

/-- The error for tokens that run out: inside a block, more may follow. -/
def missing (blocks : Nat) (fault : Fault) : Error :=
  if 0 < blocks then .incomplete fault else .malformed fault

/-- Fails in front of the given tokens. -/
def failAt {α : Type} (error : Error) (blocks : Nat) (tokens : List Token) :
    Reply α tokens.length :=
  .fail error blocks tokens (Nat.le_refl _)

/-- Reads a parenthesis that has to stand here. -/
def paren (blocks : Nat) (kind : Token.Kind) (what : String) :
    (tokens : List Token) → Reply Unit tokens.length
  | [] => failAt (missing blocks (.expected what)) blocks []
  | token :: rest =>
    if token.kind = kind then
      .done () rest (Nat.lt_succ_self _)
    else
      failAt (.malformed (.expected what)) blocks (token :: rest)

/-- Reads what has to stand behind an item of a list in parentheses: a comma, and then the list goes
on (`true`), or the closing parenthesis (`false`). -/
def goesOn (blocks : Nat) : (tokens : List Token) → Reply Bool tokens.length
  | [] => failAt (missing blocks (.expected ",")) blocks []
  | token :: rest =>
    match token.kind with
    | .comma => .done true rest (Nat.lt_succ_self _)
    | .rightParen => .done false rest (Nat.lt_succ_self _)
    | _ => failAt (.malformed (.expected ",")) blocks (token :: rest)

/-- Reads the names of parameters up to the closing parenthesis and this too. -/
def parameters (blocks : Nat) (tokens : List Token) : Reply (List String) tokens.length :=
  match tokens with
  | [] => failAt (missing blocks .endOfInput) blocks []
  | token :: rest =>
    match token.kind with
    | .rightParen => .done [] rest (Nat.lt_succ_self _)
    | .identifier =>
      ((goesOn blocks rest).andThen fun more rest' shorter =>
        if more then
          ((parameters blocks rest').map (token.lexeme :: ·)).widen (Nat.le_of_lt shorter)
        else
          .done [token.lexeme] rest' shorter).widen (Nat.le_succ _)
    | _ => failAt (.invalidIdentifier token.lexeme) blocks (token :: rest)
termination_by tokens.length
decreasing_by simp only [List.length_cons]; omega

/-- Reads what stands between the keyword of a function and its block: maybe a name, and the
parameters. -/
def signature (blocks : Nat) :
    (tokens : List Token) → Reply (Option String × List String) tokens.length
  | [] => failAt (missing blocks .endOfInput) blocks []
  | token :: rest =>
    match token.kind with
    | .leftParen => ((parameters blocks rest).map fun params => (none, params)).widen (Nat.le_succ _)
    | .identifier =>
      ((paren blocks .leftParen "(" rest).andThen fun _ rest' shorter =>
        ((parameters blocks rest').map fun params => (some token.lexeme, params)).widen
          (Nat.le_of_lt shorter)).widen (Nat.le_succ _)
    | _ => failAt (.invalidIdentifier token.lexeme) blocks (token :: rest)

mutual

/-- Reads a statement. -/
def statement (blocks : Nat) (tokens : List Token) : Reply Node tokens.length :=
  match tokens with
  | [] => (expression blocks []).map fun inner => .statement inner
  | token :: rest =>
    match token.kind with
    | .keywordDo => (block blocks rest).widen (Nat.le_succ _)
    | _ => (expression blocks (token :: rest)).map fun inner => .statement inner
termination_by (tokens.length, 9)

/-- Reads a block behind the keyword that opens it. -/
def block (blocks : Nat) (tokens : List Token) : Reply Node tokens.length :=
  (statements (blocks + 1) tokens).map fun body => .block body
termination_by (tokens.length, 11)

/-- Reads statements up to the `end` of their block and this too. -/
def statements (blocks : Nat) (tokens : List Token) : Reply (List Node) tokens.length :=
  match tokens with
  | [] => failAt (.incomplete (.expected "end")) blocks []
  | token :: rest =>
    match token.kind with
    | .keywordEnd => .done [] rest (Nat.lt_succ_self _)
    | _ =>
      (statement blocks (token :: rest)).andThen fun first rest' shorter =>
        ((statements blocks rest').map (first :: ·)).widen (Nat.le_of_lt shorter)
termination_by (tokens.length, 10)

/-- Reads an expression. -/
def expression (blocks : Nat) (tokens : List Token) : Reply Node tokens.length :=
  match tokens with
  | [] => assignment blocks []
  | token :: rest =>
    match token.kind with
    | .leftBracket => ((slots blocks rest).map fun slots => .array slots).widen (Nat.le_succ _)
    | .keywordFunction =>
      ((signature blocks rest).andThen fun (name, params) rest' shorter =>
        ((block blocks rest').map fun body => .function name params body).widen
          (Nat.le_of_lt shorter)).widen (Nat.le_succ _)
    | _ => assignment blocks (token :: rest)
termination_by (tokens.length, 8)

/-- Reads the slots of an array up to the closing bracket and this too. A comma where an expression
could stand makes an empty slot. -/
def slots (blocks : Nat) (tokens : List Token) : Reply (List (Option Node)) tokens.length :=
  match tokens with
  | [] => failAt (missing blocks .unclosedArray) blocks []
  | token :: rest =>
    match token.kind with
    | .rightBracket => .done [] rest (Nat.lt_succ_self _)
    | .comma => ((slots blocks rest).map (none :: ·)).widen (Nat.le_succ _)
    | _ =>
      (expression blocks (token :: rest)).andThen fun first rest' shorter =>
        match rest', shorter with
        | [], shorter => .fail (missing blocks .unclosedArray) blocks [] (Nat.le_of_lt shorter)
        | next :: rest'', shorter =>
          have shorter' := Nat.lt_of_succ_lt shorter
          match next.kind with
          | .comma => ((slots blocks rest'').map (some first :: ·)).widen (Nat.le_of_lt shorter')
          | .rightBracket => .done [some first] rest'' shorter'
          | _ => .fail (.malformed .arraySeparator) blocks (next :: rest'') (Nat.le_of_lt shorter)
termination_by (tokens.length, 9)

/-- Reads a sum, and behind a name or a call maybe an assignment operator and its right side. -/
def assignment (blocks : Nat) (tokens : List Token) : Reply Node tokens.length :=
  (binary blocks .sum tokens).andThen fun left rest shorter =>
    match rest, shorter with
    | [], shorter => .done left [] shorter
    | token :: rest', shorter =>
      have shorter' := Nat.lt_of_succ_lt shorter
      if looksLikeAssignment token then
        match AssignOp.ofLexeme? token.lexeme with
        | none =>
          .fail (.unimplementedOperator token.lexeme) blocks (token :: rest') (Nat.le_of_lt shorter)
        | some op =>
          if isTarget left then
            ((expression blocks rest').map fun right => .assignment op left right).widen
              (Nat.le_of_lt shorter')
          else
            .fail (.invalidAssignment left.kindName) blocks rest' (Nat.le_of_lt shorter')
      else
        .done left (token :: rest') shorter
termination_by (tokens.length, 7)

/-- Reads operands of a level with the operators of that level between them. -/
def binary (blocks : Nat) (level : Level) (tokens : List Token) : Reply Node tokens.length :=
  (operand blocks level tokens).andThen fun left rest shorter =>
    (binaryRest blocks level left rest).widen shorter
termination_by (tokens.length, level.rank + 1)

/-- Reads the operators of a level and their right operands behind the first operand; operators
group to the left. -/
def binaryRest (blocks : Nat) (level : Level) (left : Node) (tokens : List Token) :
    Reply Node (tokens.length + 1) :=
  match tokens with
  | [] => .done left [] (Nat.lt_succ_self _)
  | token :: rest =>
    match operator? level token with
    | none => .done left (token :: rest) (Nat.lt_succ_self _)
    | some op =>
      ((operand blocks level rest).andThen fun right rest' shorter =>
        (binaryRest blocks level (.binary op left right) rest').widen shorter).widen
          (Nat.le_add_right _ 2)
termination_by (tokens.length, 0)

/-- Reads an operand of a level: a product in a sum, a unary expression in a product. -/
def operand (blocks : Nat) (level : Level) (tokens : List Token) : Reply Node tokens.length :=
  match level with
  | .sum => binary blocks .product tokens
  | .product => unary blocks tokens
termination_by (tokens.length, level.rank)

/-- Reads a primary expression with any number of operators in front of it. -/
def unary (blocks : Nat) (tokens : List Token) : Reply Node tokens.length :=
  match tokens with
  | [] => primary blocks []
  | token :: rest =>
    match sign? token with
    | some op => ((unary blocks rest).map fun operand => .unary op operand).widen (Nat.le_succ _)
    | none => primary blocks (token :: rest)
termination_by (tokens.length, 2)

/-- Reads a constant, an expression in parentheses, a block, a call or a name. -/
def primary (blocks : Nat) (tokens : List Token) : Reply Node tokens.length :=
  match tokens with
  | [] => failAt (missing blocks .endOfInput) blocks []
  | token :: rest =>
    match token.kind with
    | .number =>
      match Number.ofDecimal? token.lexeme.toList with
      | some n => .done (.literal (.number n)) rest (Nat.lt_succ_self _)
      | none => .fail (.malformed (.badNumber token.lexeme)) blocks rest (Nat.le_succ _)
    | .string => .done (.literal (.string token.stringValue)) rest (Nat.lt_succ_self _)
    | .keywordTrue => .done (.literal (.bool true)) rest (Nat.lt_succ_self _)
    | .keywordFalse => .done (.literal (.bool false)) rest (Nat.lt_succ_self _)
    | .leftParen =>
      ((expression blocks rest).andThen fun inner rest' shorter =>
        ((paren blocks .rightParen ")" rest').map fun _ => inner.withGrouped true).widen
          (Nat.le_of_lt shorter)).widen (Nat.le_succ _)
    | .keywordDo => (block blocks rest).widen (Nat.le_succ _)
    | .identifier =>
      match rest with
      | [] => .done (.identifier token.lexeme) [] (Nat.lt_succ_self _)
      | next :: rest' =>
        match next.kind with
        | .leftParen =>
          ((arguments blocks rest').map fun arguments => .call token.lexeme arguments).widen
            (Nat.le_add_right _ 2)
        | _ => .done (.identifier token.lexeme) (next :: rest') (Nat.lt_succ_self _)
    | _ => failAt (.invalidIdentifier token.lexeme) blocks (token :: rest)
termination_by (tokens.length, 1)

/-- Reads the arguments of a call up to the closing parenthesis and this too. -/
def arguments (blocks : Nat) (tokens : List Token) : Reply (List Node) tokens.length :=
  match tokens with
  | [] => failAt (missing blocks .endOfInput) blocks []
  | token :: rest =>
    match token.kind with
    | .rightParen => .done [] rest (Nat.lt_succ_self _)
    | _ =>
      (expression blocks (token :: rest)).andThen fun first rest' shorter =>
        ((goesOn blocks rest').andThen fun more rest'' shorter' =>
          have := Nat.lt_trans shorter' shorter
          if more then
            ((arguments blocks rest'').map (first :: ·)).widen (Nat.le_of_lt shorter')
          else
            .done [first] rest'' shorter').widen (Nat.le_of_lt shorter)
termination_by (tokens.length, 9)

end

end Parser

/-- The rules that can be asked for on their own. -/
inductive Rule
  | statement
  | expression
deriving DecidableEq, Repr

/-- A place in a sequence of tokens: those still to be read and the number of blocks left open. -/
structure Cursor where
  tokens : List Token
  blocks : Nat := 0
deriving Repr

namespace Cursor

/-- In front of all tokens of a text. -/
def ofSource (source : String) : Cursor :=
  ⟨Token.scan source, 0⟩

/-- Applies a rule and moves on. After an error the cursor stands where the error arose and keeps the
blocks that were open there. -/
def read (rule : Rule) (cursor : Cursor) : Except Error Node × Cursor :=
  let reply := match rule with
    | .statement => Parser.statement cursor.blocks cursor.tokens
    | .expression => Parser.expression cursor.blocks cursor.tokens
  match reply with
  | .done node rest _ => (.ok node, ⟨rest, cursor.blocks⟩)
  | .fail error blocks rest _ => (.error error, ⟨rest, blocks⟩)

end Cursor

/-- Parses tokens as one statement; there is none if there are no tokens. -/
def parseTokens (tokens : List Token) : Except Error (Option Node) :=
  match tokens with
  | [] => .ok none
  | tokens =>
    match Parser.statement 0 tokens with
    | .fail error _ _ _ => .error error
    | .done node [] _ => .ok (some node)
    | .done _ (extra :: _) _ => .error (.malformed (.leftover extra.lexeme))

/-- Parses a text as one statement; there is none in a text without tokens. -/
def parse (source : String) : Except Error (Option Node) :=
  parseTokens (Token.scan source)

end ScriptConsole
