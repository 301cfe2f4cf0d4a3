import ScriptConsole.Text.Quoted

/-!
# Tokens

A token is a piece of source text together with the kind that its shape gives it.
-/

namespace ScriptConsole

namespace Token

/-- The kinds of tokens. All operators share one kind and are told apart by their text. -/
inductive Kind
  | number
  | string
  | identifier
  | operator
  | dot
  | dotDot
  | leftParen
  | rightParen
  | leftBracket
  | rightBracket
  | comma
  | keywordDo
  | keywordEnd
  | keywordFunction
  | keywordTrue
  | keywordFalse
deriving DecidableEq, Repr, Inhabited

/-- The name under which a kind is listed. -/
def Kind.name : Kind → String
  | .number => "NUMBER"
  | .string => "STRING"
  | .identifier => "IDENTIFIER"
  | .operator => "OPERATOR"
  | .dot => "DOT"
  | .dotDot => "DOT_DOT"
  | .leftParen => "LEFT_PAREN"
  | .rightParen => "RIGHT_PAREN"
  | .leftBracket => "LEFT_BRACKET"
  | .rightBracket => "RIGHT_BRACKET"
  | .comma => "COMMA"
  | .keywordDo => "DO"
  | .keywordEnd => "END"
  | .keywordFunction => "FUNCTION"
  | .keywordTrue => "TRUE"
  | .keywordFalse => "FALSE"

/-- Every kind once. -/
def Kind.all : List Kind :=
  [.number, .string, .identifier, .operator, .dot, .dotDot, .leftParen, .rightParen, .leftBracket,
    .rightBracket, .comma, .keywordDo, .keywordEnd, .keywordFunction, .keywordTrue, .keywordFalse]

/-- The kind listed under a name. -/
def Kind.ofName? (name : String) : Option Kind :=
  Kind.all.find? fun kind => kind.name == name

/-- The list of kinds is complete. -/
theorem Kind.mem_all (kind : Kind) : kind ∈ Kind.all := by
  cases kind <;> decide

end Token

/-- A piece of source text and its kind. -/
structure Token where
  /-- The kind that the shape of the text gives the token. -/
  kind : Token.Kind
  /-- The text itself, quotes included. -/
  lexeme : String
deriving DecidableEq, Repr, Inhabited

namespace Token

/-- The text that a string token stands for. -/
def stringValue (token : Token) : String :=
  String.ofList (Text.Quoted.content token.lexeme.toList)

/-- One line for a listing of tokens: the kind, the text, and what the text stands for, which is
`null` for all but strings and numbers. -/
def listing (token : Token) : String :=
  let meaning := match token.kind with
    | .string => token.stringValue
    | .number => token.lexeme
    | _ => "null"
  token.kind.name ++ " " ++ token.lexeme ++ " " ++ meaning

end Token

end ScriptConsole
