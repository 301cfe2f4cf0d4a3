import ScriptConsole.Token

/-!
# Scanning

`Token.scan` splits a source text into its tokens from left to right. Scanning never fails: blanks,
comments, characters that start no token and a quote that opens no complete string are passed over.
Each step takes the first character and as much of the rest as belongs to it, so the rest only gets
shorter (`length_step_le`).
-/

namespace ScriptConsole.Token

/-- The characters an operator starts with. -/
def isOperatorChar (c : Char) : Bool :=
  c ∈ ['-', '+', '*', '/', '%', '=', '!']

/-- The characters a word starts with: ASCII letters and the underscore. -/
def isWordStart (c : Char) : Bool :=
  c.isAlpha || c == '_'

/-- The characters a word goes on with: ASCII letters, digits and the underscore. -/
def isWordChar (c : Char) : Bool :=
  c.isAlphanum || c == '_'

/-- The words that are not identifiers. -/
def keywords : List (String × Kind) :=
  [("do", .keywordDo), ("end", .keywordEnd), ("false", .keywordFalse),
    ("function", .keywordFunction), ("true", .keywordTrue)]

/-- A word is a keyword token or an identifier. -/
def ofWord (word : List Char) : Token :=
  let lexeme := String.ofList word
  ⟨(keywords.lookup lexeme).getD .identifier, lexeme⟩

/-- The kind of a token that is always one character long. -/
def punctuation? : Char → Option Kind
  | '(' => some .leftParen
  | ')' => some .rightParen
  | '[' => some .leftBracket
  | ']' => some .rightBracket
  | ',' => some .comma
  | _ => none

/-- An operator takes one equals sign that follows it. -/
def operatorStep (c : Char) : List Char → Option Token × List Char
  | '=' :: cs => (some ⟨.operator, String.ofList [c, '=']⟩, cs)
  | cs => (some ⟨.operator, String.ofList [c]⟩, cs)

/-- A dot takes one dot that follows it. -/
def dotStep : List Char → Option Token × List Char
  | '.' :: cs => (some ⟨.dotDot, ".."⟩, cs)
  | cs => (some ⟨.dot, "."⟩, cs)

/-- One step: what the character `c`, with `cs` after it, starts, and where scanning goes on. There
is no token for a comment, for a quote that opens no complete string, and for a character that
starts nothing. -/
def step (c : Char) (cs : List Char) : Option Token × List Char :=
  if c = '#' then
    (none, cs.dropWhile (· != '\n'))
  else if isOperatorChar c then
    operatorStep c cs
  else if c = '.' then
    dotStep cs
  else if c = '"' then
    match Text.Quoted.close? cs with
    | some (inside, rest) => (some ⟨.string, String.ofList ('"' :: inside)⟩, rest)
    | none => (none, cs)
  else if c.isDigit then
    (some ⟨.number, String.ofList (c :: cs.takeWhile Char.isDigit)⟩, cs.dropWhile Char.isDigit)
  else if isWordStart c then
    (some (ofWord (c :: cs.takeWhile isWordChar)), cs.dropWhile isWordChar)
  else
    ((punctuation? c).map fun kind => ⟨kind, String.ofList [c]⟩, cs)

/-- A step leaves at most what followed its first character. -/
theorem length_step_le (c : Char) (cs : List Char) : (step c cs).2.length ≤ cs.length := by
  have hdrop (p : Char → Bool) : (cs.dropWhile p).length ≤ cs.length :=
    (List.dropWhile_sublist p).length_le
  unfold step
  split
  · exact hdrop _
  split
  · unfold operatorStep
    split <;> simp
  split
  · unfold dotStep
    split <;> simp
  split
  · split
    · next h => exact Nat.le_of_lt (Text.Quoted.length_lt_of_close? h)
    · exact Nat.le_refl _
  split
  · exact hdrop _
  split
  · exact hdrop _
  · exact Nat.le_refl _

/-- The tokens of a list of characters, in order. -/
def scanChars : List Char → List Token
  | [] => []
  | c :: cs =>
    have := length_step_le c cs
    match (step c cs).1 with
    | some token => token :: scanChars (step c cs).2
    | none => scanChars (step c cs).2
termination_by cs => cs.length
decreasing_by all_goals (simp only [List.length_cons]; omega)

/-- The tokens of a source text, in order. -/
def scan (source : String) : List Token :=
  scanChars source.toList

end ScriptConsole.Token
