import ScriptConsole.Proofs.RegularTrees
import ScriptConsole.Tree.Printer

/-!
# The tokens of a printed tree

`Node.tokens` writes a tree as tokens the way `Node.print` writes it as text, with the same
parentheses around the statements of a block. `scan_print` says that the printed text of a regular
tree is scanned as these tokens: what is printed next to each other does not run together.
-/

namespace ScriptConsole

namespace Token

def opening : Token := ⟨.leftParen, "("⟩

def closing : Token := ⟨.rightParen, ")"⟩

def comma : Token := ⟨.comma, ","⟩

def blockEnd : Token := ⟨.keywordEnd, "end"⟩

def parenthesise (tokens : List Token) : List Token :=
  opening :: tokens ++ [closing]

def isSign (token : Token) : Bool :=
  token.kind == .operator && (token.lexeme == "+" || token.lexeme == "-")

def startsWithSign (tokens : List Token) : Bool :=
  tokens.head?.any isSign

def startsWithParen (tokens : List Token) : Bool :=
  tokens.head?.any fun token => token.kind == .leftParen

def endsInName (tokens : List Token) : Bool :=
  tokens.getLast?.any fun token => token.kind == .identifier

/-- Sets the tokens of statements apart, given those of the statement before them. -/
def separateAfter (previous : List Token) : List (List Token) → List (List Token)
  | [] => [previous]
  | next :: rest =>
    let next := if startsWithSign next then parenthesise next else next
    let previous :=
      if startsWithParen next && endsInName previous then parenthesise previous else previous
    previous :: separateAfter next rest

def separate : List (List Token) → List (List Token)
  | [] => []
  | first :: rest => separateAfter first rest

end Token

def Literal.token : Literal → Token
  | .number n => ⟨.number, n.text⟩
  | .string s => ⟨.string, String.ofList (Text.Quoted.enclose s.toList)⟩
  | .bool true => ⟨.keywordTrue, "true"⟩
  | .bool false => ⟨.keywordFalse, "false"⟩
  | .null => ⟨.identifier, "null"⟩

namespace Node

open Token (opening closing comma blockEnd)

def wrapTokens (g : Bool) (tokens : List Token) : List Token :=
  if g then Token.parenthesise tokens else tokens

def headTokens (name : Option String) (params : List String) : List Token :=
  ⟨.keywordFunction, "function"⟩ :: name.toList.map (⟨.identifier, ·⟩) ++
    opening :: [comma].intercalate (params.map fun param => [⟨.identifier, param⟩]) ++ [closing]

mutual

/-- The tokens that a tree is printed with. -/
def tokens : Node → List Token
  | .identifier name g => wrapTokens g [⟨.identifier, name⟩]
  | .literal value g => wrapTokens g [value.token]
  | .array slots g =>
    wrapTokens g (⟨.leftBracket, "["⟩ :: [comma].intercalate (tokensSlots slots) ++
      [⟨.rightBracket, "]"⟩])
  | .function name params (.block body _) g =>
    wrapTokens g (headTokens name params ++ (Token.separate (tokensAll body)).flatten ++ [blockEnd])
  | .function name params body g => wrapTokens g (headTokens name params ++ body.tokens ++ [blockEnd])
  | .block body g =>
    wrapTokens g (⟨.keywordDo, "do"⟩ :: (Token.separate (tokensAll body)).flatten ++ [blockEnd])
  | .statement inner g => wrapTokens g inner.tokens
  | .assignment op left right g => wrapTokens g (left.tokens ++ ⟨.operator, op.text⟩ :: right.tokens)
  | .binary op left right g => wrapTokens g (left.tokens ++ ⟨.operator, op.text⟩ :: right.tokens)
  | .unary op operand g => wrapTokens g (⟨.operator, op.text⟩ :: operand.tokens)
  | .call callee arguments g =>
    wrapTokens g (⟨.identifier, callee⟩ :: opening :: [comma].intercalate (tokensAll arguments) ++
      [closing])

def tokensAll : List Node → List (List Token)
  | [] => []
  | node :: rest => node.tokens :: tokensAll rest

def tokensSlots : List (Option Node) → List (List Token)
  | [] => []
  | none :: rest => [] :: tokensSlots rest
  | some node :: rest => node.tokens :: tokensSlots rest

end

end Node

namespace Token

/-- The characters that stand behind a printed tree. -/
def separators : List Char := [' ', '(', ')', ']', ',']

/-- A separator or the end of the text comes next. -/
def Breaks (rest : List Char) : Prop :=
  ∀ c ∈ rest.head?, c ∈ separators

@[simp]
lemma breaks_nil : Breaks [] := by
  simp [Breaks]

@[simp]
lemma breaks_cons {c : Char} {cs : List Char} : Breaks (c :: cs) ↔ c ∈ separators := by
  simp [Breaks]

/-- No token is extended by a separator. -/
lemma extendedBy_separator (token : Token) {c : Char} (hc : c ∈ separators) :
    token.extendedBy c = false := by
  unfold extendedBy
  simp only [separators, List.mem_cons, List.not_mem_nil, or_false] at hc
  split <;> rcases hc with rfl | rfl | rfl | rfl | rfl <;> decide

/-- The text is scanned as these tokens in front of any separator. -/
def Scans (text : String) (tokens : List Token) : Prop :=
  ∀ rest, Breaks rest → scanChars (text.toList ++ rest) = tokens ++ scanChars rest

/-- A scanned token that an expression can start with: its only operators are signs. -/
def Starts (token : Token) : Prop :=
  token.Fits ∧ (token.kind = .operator → ∃ op : UnaryOp, token.lexeme = op.text)

/-- The text is scanned as these tokens and starts with the first of them. -/
structure Written (text : String) (tokens : List Token) : Prop where
  scans : Scans text tokens
  starts : ∃ token c, tokens.head? = some token ∧ token.Starts ∧
    token.lexeme.toList.head? = some c ∧ text.toList.head? = some c

lemma scanChars_space (rest : List Char) : scanChars (' ' :: rest) = scanChars rest :=
  scanChars_of_step_none rfl

lemma scanChars_punctuation {c : Char} {kind : Kind} (hc : punctuation? c = some kind)
    (rest : List Char) : scanChars (c :: rest) = ⟨kind, String.ofList [c]⟩ :: scanChars rest :=
  scanChars_of_step (step_punctuation hc rest)

lemma Scans.scan_eq {text : String} {tokens : List Token} (h : Scans text tokens) :
    scan text = tokens := by
  have hnil := h [] breaks_nil
  have hempty : scanChars [] = [] := by rw [scanChars]
  rwa [List.append_nil, hempty, List.append_nil] at hnil

lemma scans_token {token : Token} (h : token.Fits) : Scans token.lexeme [token] :=
  fun _ hrest => scanChars_lexeme h fun c hc => token.extendedBy_separator (hrest c hc)

section

variable {text text' : String} {tokens tokens' : List Token}

lemma breaks_space (cs : List Char) : Breaks (' ' :: cs) := by
  rw [breaks_cons]
  decide

/-- A space sets what stands before it apart from whatever stands behind it. -/
lemma Scans.scanChars_space (h : Scans text tokens) (cs : List Char) :
    scanChars (text.toList ++ ' ' :: cs) = tokens ++ scanChars cs := by
  rw [h _ (breaks_space cs), Token.scanChars_space]

lemma Scans.join (h : Scans text tokens) (h' : Scans text' tokens') :
    Scans (text ++ " " ++ text') (tokens ++ tokens') := by
  intro rest hrest
  simp only [String.toList_append, List.append_assoc]
  change scanChars (text.toList ++ ' ' :: (text'.toList ++ rest)) = _
  rw [h.scanChars_space, h' rest hrest]

lemma Scans.scan_space (h : Scans text tokens) (source : String) :
    scan (text ++ " " ++ source) = tokens ++ scan source := by
  rw [scan, String.toList_append, String.toList_append, List.append_assoc]
  exact h.scanChars_space source.toList

end

/-- What the first character says about a token that is no operator. -/
lemma Fits.firstChar {token : Token} (h : token.Fits) (hkind : token.kind ≠ .operator) :
    ∃ c, token.lexeme.toList.head? = some c ∧ isOperatorChar c = false ∧
      (c = '(' ↔ token.kind = .leftParen) := by
  cases h with
  | number hc _ =>
    refine ⟨_, by rw [String.toList_ofList]; rfl, isOperatorChar_eq_false hc (by decide), ?_⟩
    simp [ne_of_class hc (d := '(') (by decide)]
  | string => exact ⟨'"', by rw [String.toList_ofList]; rfl, by decide, by simp⟩
  | @word c cs hc _ =>
    have hword := kind_ofWord (c :: cs)
    refine ⟨c, by rw [ofWord, String.toList_ofList]; rfl, isOperatorChar_eq_false hc (by decide), ?_⟩
    constructor
    · rintro rfl
      exact absurd hc (by decide)
    · intro hparen
      rw [hparen] at hword
      exact absurd hword (by decide)
  | operator | operatorEquals => exact absurd rfl hkind
  | dot => exact ⟨'.', rfl, by decide, by decide⟩
  | dotDot => exact ⟨'.', rfl, by decide, by decide⟩
  | @punctuation c kind hc =>
    refine ⟨c, by rw [String.toList_ofList]; rfl, ?_⟩
    unfold punctuation? at hc
    split at hc <;> cases hc <;> decide

lemma Starts.isSign_eq {token : Token} (h : token.Starts) :
    (token.lexeme.toList.head? == some '+' || token.lexeme.toList.head? == some '-') =
      token.isSign := by
  by_cases hkind : token.kind = .operator
  · obtain ⟨op, hop⟩ := h.2 hkind
    rw [isSign, hkind, hop]
    cases op <;> rfl
  · obtain ⟨c, hc, hoperator, -⟩ := h.1.firstChar hkind
    have hne {d : Char} (hd : isOperatorChar d = true) : c ≠ d := by
      rintro rfl
      rw [hoperator] at hd
      cases hd
    have hplus := hne (d := '+') (by decide)
    have hminus := hne (d := '-') (by decide)
    rw [isSign, hc, beq_false_of_ne hkind]
    simp [hplus, hminus]

lemma Starts.isParen_eq {token : Token} (h : token.Starts) :
    (token.lexeme.toList.head? == some '(') = (token.kind == .leftParen) := by
  by_cases hkind : token.kind = .operator
  · obtain ⟨op, hop⟩ := h.2 hkind
    rw [hkind, hop]
    cases op <;> rfl
  · obtain ⟨c, hc, -, hparen⟩ := h.1.firstChar hkind
    rw [hc, Bool.eq_iff_iff]
    simpa using hparen

/-- An operator does not run into the token behind it. -/
lemma Starts.head?_ne {token : Token} (h : token.Starts) :
    token.lexeme.toList.head? ≠ some '=' := by
  by_cases hkind : token.kind = .operator
  · obtain ⟨op, hop⟩ := h.2 hkind
    rw [hop]
    cases op <;> decide
  · obtain ⟨c, hc, hoperator, -⟩ := h.1.firstChar hkind
    rw [hc]
    rintro ⟨⟩
    exact absurd hoperator (by decide)

lemma starts_of_fits {token : Token} (h : token.Fits) (hkind : token.kind ≠ .operator) :
    token.Starts :=
  ⟨h, fun hop => absurd hop hkind⟩

lemma written_token {token : Token} (h : token.Fits) (hkind : token.kind ≠ .operator) :
    Written token.lexeme [token] := by
  obtain ⟨c, hc, -⟩ := h.firstChar hkind
  exact ⟨scans_token h, token, c, rfl, starts_of_fits h hkind, hc, hc⟩

lemma toList_parenthesise (text : String) :
    (Node.parenthesise text).toList = '(' :: (text.toList ++ [')']) := by
  simp [Node.parenthesise]

lemma written_parenthesise {text : String} {tokens : List Token} (h : Scans text tokens) :
    Written (Node.parenthesise text) (parenthesise tokens) := by
  refine ⟨fun rest _ => ?_, opening, '(', rfl, starts_of_fits (.punctuation (c := '(') rfl) (by decide),
    rfl, by rw [toList_parenthesise]; rfl⟩
  have hinner := h (')' :: rest) (by simp [separators])
  rw [toList_parenthesise, List.cons_append, List.append_assoc,
    scanChars_punctuation (c := '(') rfl]
  change _ :: scanChars (text.toList ++ ')' :: rest) = _
  rw [hinner, scanChars_punctuation (c := ')') rfl]
  simp [parenthesise, opening, closing]

lemma written_wrap {text : String} {tokens : List Token} (h : Written text tokens) (g : Bool) :
    Written (Node.wrap g text) (Node.wrapTokens g tokens) := by
  cases g with
  | false => exact h
  | true => exact written_parenthesise h.scans

/-- An operator between two spaces joins two texts. -/
lemma written_infix {left right op : String} {tokens tokens' : List Token}
    (hleft : Written left tokens) (hop : Fits ⟨.operator, op⟩) (hright : Written right tokens') :
    Written (left ++ " " ++ op ++ " " ++ right) (tokens ++ ⟨.operator, op⟩ :: tokens') := by
  constructor
  · intro rest hrest
    have hspace (cs : List Char) : Breaks (' ' :: cs) := by simp [separators]
    have hop' := scans_token hop (' ' :: (right.toList ++ rest)) (hspace _)
    simp only [String.toList_append, List.append_assoc]
    change scanChars (left.toList ++ ' ' :: (op.toList ++ ' ' :: (right.toList ++ rest))) = _
    rw [hleft.scans _ (hspace _), scanChars_space]
    simp only at hop'
    rw [hop', scanChars_space, hright.scans rest hrest]
    simp
  · obtain ⟨token, c, hfirst, hstarts, hc, hhead⟩ := hleft.starts
    exact ⟨token, c, by rw [List.head?_append, hfirst]; rfl, hstarts, hc,
      by simp [List.head?_append, hhead]⟩

/-- A sign in front of a text does not run into it. -/
lemma written_sign {text : String} {tokens : List Token} (h : Written text tokens) (op : UnaryOp) :
    Written (op.text ++ text) (⟨.operator, op.text⟩ :: tokens) := by
  obtain ⟨c, htext, hc⟩ : ∃ c, op.text = String.ofList [c] ∧ isOperatorChar c = true := by
    cases op with
    | plus => exact ⟨'+', rfl, by decide⟩
    | minus => exact ⟨'-', rfl, by decide⟩
    | not => exact ⟨'!', rfl, by decide⟩
  have hfits : Fits ⟨.operator, op.text⟩ := by
    rw [htext]
    exact .operator hc
  refine ⟨fun rest hrest => ?_, _, c, rfl, ⟨hfits, fun _ => ⟨op, rfl⟩⟩, by simp [htext],
    by simp [htext]⟩
  obtain ⟨token, d, -, hstarts, hd, hhead⟩ := h.starts
  have hnext : (text.toList ++ rest).head? ≠ some '=' := by
    rw [List.head?_append, hhead, Option.some_or, ← hd]
    exact hstarts.head?_ne
  have hstep := (step_operator hc _).trans (operatorStep_of_head? (c := c) hnext)
  rw [String.toList_append, htext, String.toList_ofList, List.append_assoc]
  change scanChars (c :: (text.toList ++ rest)) = _
  rw [scanChars_of_step hstep, h.scans rest hrest]
  rfl

/-- Texts with commas between them are scanned one after the other. -/
lemma scans_intercalate {texts : List String} {tokens : List (List Token)}
    (h : List.Forall₂ Scans texts tokens) :
    Scans (", ".intercalate texts) ([comma].intercalate tokens) := by
  induction h with
  | nil => 
    intro rest _
    simp
  | @cons text first texts others hfirst hothers ih =>
    cases hothers with
    | nil => simpa using hfirst
    | @cons text' first' texts others hfirst' hothers =>
      intro rest hrest
      rw [String.intercalate_cons_cons, List.intercalate_cons_cons]
      simp only [String.toList_append, List.append_assoc]
      change scanChars (text.toList ++ ',' :: ' ' :: (_ ++ rest)) = _
      rw [hfirst _ (by simp [separators]), scanChars_punctuation (c := ',') rfl, scanChars_space,
        ih rest hrest]
      rfl

lemma Written.startsWithSign_eq {text : String} {tokens : List Token} (h : Written text tokens) :
    Node.startsWithSign text = startsWithSign tokens := by
  obtain ⟨token, c, hfirst, hstarts, hc, hhead⟩ := h.starts
  rw [Node.startsWithSign, startsWithSign, hhead, hfirst, ← hc]
  exact hstarts.isSign_eq

lemma Written.startsWithParen_eq {text : String} {tokens : List Token} (h : Written text tokens) :
    Node.startsWithParen text = startsWithParen tokens := by
  obtain ⟨token, c, hfirst, hstarts, hc, hhead⟩ := h.starts
  rw [Node.startsWithParen, startsWithParen, hhead, hfirst, ← hc]
  exact hstarts.isParen_eq

lemma Written.endsInName_eq {text : String} {tokens : List Token} (h : Written text tokens) :
    Node.endsInName text = endsInName tokens := by
  rw [Node.endsInName, endsInName, h.scans.scan_eq]

lemma written_ite {text : String} {tokens : List Token} (h : Written text tokens) (b : Bool) :
    Written (if b then Node.parenthesise text else text)
      (if b then parenthesise tokens else tokens) :=
  written_wrap h b

/-- Texts and tokens are set apart by the same parentheses. -/
lemma written_separateAfter {texts : List String} {tokens : List (List Token)}
    (h : List.Forall₂ Written texts tokens) {previous : String} {previous' : List Token}
    (hprevious : Written previous previous') :
    List.Forall₂ Written (Node.separateAfter previous texts) (separateAfter previous' tokens) := by
  induction h generalizing previous previous' with
  | nil => exact .cons hprevious .nil
  | @cons text first texts others hfirst _ ih =>
    have hnext := written_ite hfirst (startsWithSign first)
    rw [Node.separateAfter, separateAfter, hfirst.startsWithSign_eq]
    rw [hnext.startsWithParen_eq, hprevious.endsInName_eq]
    exact .cons (written_ite hprevious _) (ih hnext)

/-- The statements of a block, set apart and each followed by a space, are scanned one after the
other. -/
lemma scanChars_joinStatements {texts : List String} {tokens : List (List Token)}
    (h : List.Forall₂ Written texts tokens) (rest : List Char) :
    scanChars ((Node.joinStatements texts).toList ++ rest) =
      (separate tokens).flatten ++ scanChars rest := by
  have hseparate : List.Forall₂ Written (Node.separate texts) (separate tokens) := by
    cases h with
    | nil => exact .nil
    | cons hfirst hothers => exact written_separateAfter hothers hfirst
  rw [Node.joinStatements, String.toList_join]
  generalize Node.separate texts = parts at hseparate
  generalize separate tokens = parts' at hseparate
  induction hseparate with
  | nil => rfl
  | @cons text first texts others hfirst _ ih =>
    have hspace (cs : List Char) : Breaks (' ' :: cs) := by simp [separators]
    simp only [List.map_cons, List.flatMap_cons, String.toList_append, List.append_assoc,
      List.flatten_cons]
    change scanChars (text.toList ++ ' ' :: (_ ++ rest)) = _
    rw [hfirst.scans _ (hspace _), scanChars_space, ih]

lemma fits_keywordDo : Fits ⟨.keywordDo, "do"⟩ :=
  @Fits.word 'd' ['o'] (by decide) (List.all_eq_true.mp (by decide))

lemma fits_keywordEnd : Fits ⟨.keywordEnd, "end"⟩ :=
  @Fits.word 'e' ['n', 'd'] (by decide) (List.all_eq_true.mp (by decide))

lemma fits_keywordFunction : Fits ⟨.keywordFunction, "function"⟩ :=
  @Fits.word 'f' "unction".toList (by decide) (List.all_eq_true.mp (by decide))

lemma fits_keywordTrue : Fits ⟨.keywordTrue, "true"⟩ :=
  @Fits.word 't' "rue".toList (by decide) (List.all_eq_true.mp (by decide))

lemma fits_keywordFalse : Fits ⟨.keywordFalse, "false"⟩ :=
  @Fits.word 'f' "alse".toList (by decide) (List.all_eq_true.mp (by decide))

end Token

lemma BinaryOp.fits_text (op : BinaryOp) : Token.Fits ⟨.operator, op.text⟩ := by
  cases op with
  | add => exact .operator (c := '+') (by decide)
  | subtract => exact .operator (c := '-') (by decide)
  | multiply => exact .operator (c := '*') (by decide)
  | divide => exact .operator (c := '/') (by decide)
  | remainder => exact .operator (c := '%') (by decide)

lemma AssignOp.fits_text (op : AssignOp) : Token.Fits ⟨.operator, op.text⟩ := by
  cases op with
  | assign => exact .operator (c := '=') (by decide)
  | compound op =>
    cases op with
    | add => exact .operatorEquals (c := '+') (by decide)
    | subtract => exact .operatorEquals (c := '-') (by decide)
    | multiply => exact .operatorEquals (c := '*') (by decide)
    | divide => exact .operatorEquals (c := '/') (by decide)
    | remainder => exact .operatorEquals (c := '%') (by decide)

namespace Number

lemma toList_text {n : Number} (h : 0 ≤ n.val) : n.text.toList = Nat.toDigits 10 n.val.toNat := by
  rw [text, Int.toString_eq_repr, Int.repr_eq_if, if_pos h, Nat.toList_repr]

lemma isDigit_of_mem_text {n : Number} (h : 0 ≤ n.val) {c : Char} (hc : c ∈ n.text.toList) :
    c.isDigit = true := by
  rw [toList_text h] at hc
  exact Nat.isDigit_of_mem_toDigits (by decide) (by decide) hc

lemma text_eq_cons {n : Number} (h : 0 ≤ n.val) : ∃ c cs, n.text.toList = c :: cs := by
  rw [toList_text h]
  exact List.exists_cons_of_ne_nil Nat.toDigits_ne_nil

/-- The decimal form of a number that is not negative is read back as the number. -/
theorem ofDecimal?_text {n : Number} (h : 0 ≤ n.val) : ofDecimal? n.text.toList = some n := by
  have hdigits : digits? n.text.toList = some n.val.toNat := by
    rw [digits?, if_pos, toList_text h, Nat.ofDigitChars_toDigits (by decide) (by decide)]
    refine ⟨?_, List.all_eq_true.mpr fun c hc => isDigit_of_mem_text h hc⟩
    rw [toList_text h]
    exact Nat.toDigits_ne_nil
  obtain ⟨c, cs, hcs⟩ := text_eq_cons h
  have hc := isDigit_of_mem_text h (c := c) (by rw [hcs]; exact List.mem_cons_self)
  rw [hcs] at hdigits ⊢
  rw [ofDecimal?_cons hc, hdigits, Option.bind_some, Int.toNat_of_nonneg h, ofInt?_val]

lemma fits_text {n : Number} (h : 0 ≤ n.val) : Token.Fits ⟨.number, n.text⟩ := by
  obtain ⟨c, cs, hcs⟩ := text_eq_cons h
  have hdigits := fun d => isDigit_of_mem_text h (c := d)
  rw [hcs] at hdigits
  rw [← String.ofList_toList (s := n.text), hcs]
  exact .number (hdigits c List.mem_cons_self) fun d hd => hdigits d (List.mem_cons_of_mem _ hd)

end Number

open Token (Scans Written)

lemma Literal.written_print {value : Literal} {g : Bool} (h : (Node.literal value g).Regular) :
    Written value.print [value.token] := by
  cases value with
  | number n => exact Token.written_token (Number.fits_text h.1) (by simp)
  | string s => exact Token.written_token (.string s.toList) (by simp)
  | bool b =>
    cases b with
    | false => exact Token.written_token Token.fits_keywordFalse (by simp)
    | true => exact Token.written_token Token.fits_keywordTrue (by simp)
  | null => exact h.elim

namespace Node

lemma written_name {name : String} (h : Token.IsName name) :
    Written name [⟨.identifier, name⟩] :=
  Token.written_token (Token.fits_identifier_iff.mpr h) (by simp)

lemma written_array {texts : List String} {list : List (List Token)}
    (h : List.Forall₂ Scans texts list) :
    Written ("[" ++ ", ".intercalate texts ++ "]")
      (⟨.leftBracket, "["⟩ :: [Token.comma].intercalate list ++ [⟨.rightBracket, "]"⟩]) := by
  refine ⟨fun rest _ => ?_, _, '[', rfl,
    Token.starts_of_fits (.punctuation (c := '[') rfl) (by decide), rfl, by simp⟩
  have hlist := Token.scans_intercalate h (']' :: rest) (by simp [Token.separators])
  simp only [String.toList_append, List.append_assoc]
  change Token.scanChars ('[' :: ((", ".intercalate texts).toList ++ ']' :: rest)) = _
  rw [Token.scanChars_punctuation (c := '[') rfl, hlist, Token.scanChars_punctuation (c := ']') rfl]
  simp

lemma written_call {callee : String} (hcallee : Token.IsName callee) {texts : List String}
    {list : List (List Token)} (h : List.Forall₂ Written texts list) :
    Written (callee ++ "(" ++ ", ".intercalate texts ++ ")")
      (⟨.identifier, callee⟩ :: Token.opening :: [Token.comma].intercalate list ++
        [Token.closing]) := by
  have hname := written_name hcallee
  constructor
  · intro rest _
    have hlist := Token.scans_intercalate (h.imp fun _ _ => Written.scans) (')' :: rest)
      (by simp [Token.separators])
    simp only [String.toList_append, List.append_assoc]
    change Token.scanChars (callee.toList ++ '(' :: ((", ".intercalate texts).toList ++ ')' :: rest)) = _
    rw [hname.scans _ (by simp [Token.separators]), Token.scanChars_punctuation (c := '(') rfl, hlist,
      Token.scanChars_punctuation (c := ')') rfl]
    simp [Token.opening, Token.closing]
  · obtain ⟨token, c, hfirst, hstarts, hc, hhead⟩ := hname.starts
    exact ⟨token, c, hfirst, hstarts, hc, by simp [List.head?_append, hhead]⟩

lemma written_block {texts : List String} {list : List (List Token)}
    (h : List.Forall₂ Written texts list) :
    Written ("do " ++ joinStatements texts ++ "end")
      (⟨.keywordDo, "do"⟩ :: (Token.separate list).flatten ++ [Token.blockEnd]) := by
  refine ⟨fun rest hrest => ?_, _, 'd', rfl, Token.starts_of_fits Token.fits_keywordDo (by decide),
    rfl, by simp⟩
  have hdo := Token.scans_token Token.fits_keywordDo
    (' ' :: ((joinStatements texts).toList ++ ("end".toList ++ rest))) (by simp [Token.separators])
  have hend := Token.scans_token Token.fits_keywordEnd rest hrest
  simp only [String.toList_append, List.append_assoc]
  refine hdo.trans ?_
  rw [Token.scanChars_space, Token.scanChars_joinStatements h, hend]
  simp [Token.blockEnd]

/-- The head of a function is followed by a space, so that anything can stand behind it. -/
lemma scanChars_functionHead {name : Option String} {params : List String}
    (hname : ∀ x ∈ name, Token.IsName x) (hparams : ∀ x ∈ params, Token.IsName x)
    (rest : List Char) :
    Token.scanChars ((functionHead name params).toList ++ rest) =
      headTokens name params ++ Token.scanChars rest := by
  have hlist : List.Forall₂ Scans params (params.map fun param => [⟨.identifier, param⟩]) := by
    rw [List.forall₂_map_right_iff, List.forall₂_same]
    exact fun param hparam => (written_name (hparams param hparam)).scans
  have hparams' := Token.scans_intercalate hlist (')' :: ' ' :: rest) (by simp [Token.separators])
  have hname' (cs : List Char) : Token.scanChars ((name.getD "").toList ++ '(' :: cs) =
      name.toList.map (⟨.identifier, ·⟩) ++ Token.opening :: Token.scanChars cs := by
    cases name with
    | none => exact Token.scanChars_punctuation rfl cs
    | some name =>
      have hscans := (written_name (hname name rfl)).scans ('(' :: cs) (by simp [Token.separators])
      rw [Token.scanChars_punctuation (c := '(') rfl] at hscans
      exact hscans
  have hkeyword := Token.scans_token Token.fits_keywordFunction
    (' ' :: ((name.getD "").toList ++ '(' :: ((", ".intercalate params).toList ++ ')' :: ' ' :: rest)))
    (by simp [Token.separators])
  simp only [functionHead, String.toList_append, List.append_assoc]
  refine hkeyword.trans ?_
  rw [Token.scanChars_space, hname', hparams', Token.scanChars_punctuation (c := ')') rfl,
    Token.scanChars_space]
  simp [headTokens, Token.closing]

lemma written_function {name : Option String} {params : List String}
    (hname : ∀ x ∈ name, Token.IsName x) (hparams : ∀ x ∈ params, Token.IsName x)
    {texts : List String} {list : List (List Token)} (h : List.Forall₂ Written texts list) :
    Written (functionHead name params ++ joinStatements texts ++ "end")
      (headTokens name params ++ (Token.separate list).flatten ++ [Token.blockEnd]) := by
  refine ⟨fun rest hrest => ?_, _, 'f', rfl,
    Token.starts_of_fits Token.fits_keywordFunction (by decide), rfl, by simp [functionHead]⟩
  have hend := Token.scans_token Token.fits_keywordEnd rest hrest
  simp only [String.toList_append, List.append_assoc]
  rw [scanChars_functionHead hname hparams, Token.scanChars_joinStatements h, hend]
  simp [Token.blockEnd]

mutual

/-- A regular tree is printed with its tokens. -/
lemma written_print (node : Node) (h : node.All Regular) : Written node.print node.tokens := by
  match node, h with
  | .identifier name g, h => exact Token.written_wrap (written_name h) g
  | .literal value g, h => exact Token.written_wrap (Literal.written_print h) g
  | .array slots g, h => exact Token.written_wrap (written_array (scans_printSlots slots h.2)) g
  | .function name params body g, h =>
    obtain ⟨⟨hname, hparams, inner, rfl⟩, hbody⟩ := h
    exact Token.written_wrap (written_function hname hparams (written_printAll inner hbody.2)) g
  | .block body g, h => exact Token.written_wrap (written_block (written_printAll body h.2)) g
  | .statement inner g, h => exact Token.written_wrap (written_print inner h.2) g
  | .assignment op left right g, h =>
    exact Token.written_wrap (Token.written_infix (written_print left h.2.1) op.fits_text
      (written_print right h.2.2)) g
  | .binary op left right g, h =>
    exact Token.written_wrap (Token.written_infix (written_print left h.2.1) op.fits_text
      (written_print right h.2.2)) g
  | .unary op operand g, h =>
    exact Token.written_wrap (Token.written_sign (written_print operand h.2) op) g
  | .call callee arguments g, h =>
    exact Token.written_wrap (written_call h.1.1 (written_printAll arguments h.2)) g

lemma written_printAll (nodes : List Node) (h : AllIn Regular nodes) :
    List.Forall₂ Written (printAll nodes) (tokensAll nodes) := by
  match nodes, h with
  | [], _ => exact .nil
  | node :: rest, h => exact .cons (written_print node h.1) (written_printAll rest h.2)

lemma scans_printSlots (slots : List (Option Node)) (h : AllSlots Regular slots) :
    List.Forall₂ Scans (printSlots slots) (tokensSlots slots) := by
  match slots, h with
  | [], _ => exact .nil
  | none :: rest, h => exact .cons (fun _ _ => rfl) (scans_printSlots rest h)
  | some node :: rest, h => exact .cons (written_print node h.1).scans (scans_printSlots rest h.2)

end

/-- The printed text of a regular tree is scanned as the tokens of the tree. -/
theorem scan_print {node : Node} (h : node.All Regular) : Token.scan node.print = node.tokens :=
  (written_print node h).scans.scan_eq

end Node

end ScriptConsole
