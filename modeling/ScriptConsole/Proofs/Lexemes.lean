import Mathlib.Data.List.TakeWhile
import Mathlib.Tactic.Common
import ScriptConsole.Token.Scanner

/-!
# The texts of tokens

`Token.Fits` lists the tokens that scanning can produce: the text of each has the shape of its kind.
Conversely `scanChars_lexeme` says that the text of such a token is scanned as this token, wherever
the character behind it does not extend it.
-/

namespace ScriptConsole

namespace Text.Quoted

lemma double_cons (c : Char) (cs : List Char) :
    double (c :: cs) = (if c = '"' then ['"', '"'] else [c]) ++ double cs := by
  by_cases hc : c = '"'
  · simp [hc, double]
  · rw [double.eq_3 c cs hc]
    simp [hc]

lemma close?_cons {c : Char} (hc : c ≠ '"') (cs : List Char) :
    close? (c :: cs) = (close? cs).map fun (inside, rest) => (c :: inside, rest) :=
  close?.eq_4 c cs (fun _ h => absurd h hc) hc

lemma collapse_cons {c : Char} (hc : c ≠ '"') (cs : List Char) :
    collapse (c :: cs) = c :: collapse cs :=
  collapse.eq_3 c cs fun _ h => absurd h hc

/-- Doubled quotes are read back as the quotes they stand for. -/
lemma collapse_double (cs : List Char) : collapse (double cs) = cs := by
  induction cs with
  | nil => rfl
  | cons c cs ih =>
    rw [double_cons]
    by_cases hc : c = '"'
    · simp [hc, collapse, ih]
    · simp [hc, collapse_cons hc, ih]

/-- The content of a quoted form is the text that was quoted. -/
theorem content_enclose (cs : List Char) : content (enclose cs) = cs := by
  have hsize : '"'.utf8Size = 1 := by decide
  simp [content, enclose, hsize, collapse_double]

/-- A quoted form ends at its last quote if no quote follows. -/
theorem close?_double {rest : List Char} (hrest : rest.head? ≠ some '"') (cs : List Char) :
    close? (double cs ++ '"' :: rest) = some (double cs ++ ['"'], rest) := by
  induction cs with
  | nil =>
    cases rest with
    | nil => rfl
    | cons c rest =>
      have hc : c ≠ '"' := by simpa using hrest
      simp [double, close?, hc]
  | cons c cs ih =>
    rw [double_cons]
    by_cases hc : c = '"'
    · simp [hc, close?, ih]
    · simp [hc, close?_cons hc, ih]

/-- What is split off behind an opening quote is the rest of a quoted form. -/
theorem eq_double_of_close? {cs inside rest : List Char} (h : close? cs = some (inside, rest)) :
    ∃ content, inside = double content ++ ['"'] := by
  fun_induction close? cs generalizing inside rest with
  | case1 => cases h
  | case2 cs i r hc ih =>
    cases h
    obtain ⟨content, rfl⟩ := ih hc
    exact ⟨'"' :: content, rfl⟩
  | case3 cs hc ih =>
    cases h
    exact ⟨[], rfl⟩
  | case4 cs _ =>
    cases h
    exact ⟨[], rfl⟩
  | case5 c cs _ hc ih =>
    simp only [Option.map_eq_some_iff] at h
    obtain ⟨⟨i, r⟩, hclose, he⟩ := h
    cases he
    obtain ⟨content, rfl⟩ := ih hclose
    refine ⟨c :: content, ?_⟩
    rw [double_cons, if_neg hc]
    rfl

end Text.Quoted

namespace Token

/-- The tokens that scanning produces. -/
inductive Fits : Token → Prop
  | number {c : Char} {cs : List Char} (hc : c.isDigit = true) (hcs : ∀ d ∈ cs, d.isDigit = true) :
      Fits ⟨.number, String.ofList (c :: cs)⟩
  | string (content : List Char) : Fits ⟨.string, String.ofList (Text.Quoted.enclose content)⟩
  | word {c : Char} {cs : List Char} (hc : isWordStart c = true)
      (hcs : ∀ d ∈ cs, isWordChar d = true) : Fits (ofWord (c :: cs))
  | operator {c : Char} (hc : isOperatorChar c = true) : Fits ⟨.operator, String.ofList [c]⟩
  | operatorEquals {c : Char} (hc : isOperatorChar c = true) :
      Fits ⟨.operator, String.ofList [c, '=']⟩
  | dot : Fits ⟨.dot, "."⟩
  | dotDot : Fits ⟨.dotDot, ".."⟩
  | punctuation {c : Char} {kind : Kind} (hc : punctuation? c = some kind) :
      Fits ⟨kind, String.ofList [c]⟩

/-- Whether a character right behind the text of a token may change what is scanned. -/
def extendedBy (token : Token) (c : Char) : Bool :=
  match token.kind with
  | .number => c.isDigit
  | .string => c == '"'
  | .operator => c == '='
  | .dot => c == '.'
  | .dotDot | .leftParen | .rightParen | .leftBracket | .rightBracket | .comma => false
  | .identifier | .keywordDo | .keywordEnd | .keywordFunction | .keywordTrue | .keywordFalse =>
    isWordChar c

lemma fits_of_step {c : Char} {cs : List Char} {token : Token} (h : (step c cs).1 = some token) :
    token.Fits := by
  have htake (p : Char → Bool) : ∀ d ∈ cs.takeWhile p, p d = true := 
    fun d hd => List.mem_takeWhile_imp hd
  unfold step at h
  split at h
  · cases h
  split at h
  · next hop =>
    unfold operatorStep at h
    split at h <;> cases h
    · exact .operatorEquals hop
    · exact .operator hop
  split at h
  · unfold dotStep at h
    split at h <;> cases h
    · exact .dotDot
    · exact .dot
  split at h
  · split at h
    · next hclose =>
      obtain ⟨content, rfl⟩ := Text.Quoted.eq_double_of_close? hclose
      cases h
      exact .string content
    · cases h
  split at h
  · next hdigit =>
    cases h
    exact .number hdigit (htake _)
  split at h
  · next hword =>
    cases h
    exact .word hword (htake _)
  · obtain ⟨kind, hkind, rfl⟩ := Option.map_eq_some_iff.mp h
    exact .punctuation hkind

/-- The text of every scanned token has the shape of its kind. -/
theorem fits_of_mem_scanChars {cs : List Char} {token : Token} (h : token ∈ scanChars cs) :
    token.Fits := by
  fun_induction scanChars cs with
  | case1 => cases h
  | case2 c cs _ first hfirst ih =>
    rcases List.mem_cons.mp h with rfl | h
    · exact fits_of_step hfirst
    · exact ih h
  | case3 c cs _ _ ih => exact ih h

lemma scanChars_of_step {c : Char} {cs rest : List Char} {token : Token}
    (h : step c cs = (some token, rest)) : scanChars (c :: cs) = token :: scanChars rest := by
  rw [scanChars]
  simp [h]

lemma scanChars_of_step_none {c : Char} {cs rest : List Char} (h : step c cs = (none, rest)) :
    scanChars (c :: cs) = scanChars rest := by
  rw [scanChars]
  simp [h]

/-- Characters of one class are told apart from single characters outside of it. -/
lemma ne_of_class {p : Char → Bool} {c d : Char} (hc : p c = true) (hd : p d = false) : c ≠ d := by
  rintro rfl
  rw [hc] at hd
  cases hd

lemma isOperatorChar_eq_false {p : Char → Bool} {c : Char} (hc : p c = true)
    (hp : ['-', '+', '*', '/', '%', '=', '!'].any p = false) : isOperatorChar c = false := by
  rw [isOperatorChar, decide_eq_false_iff_not]
  intro hmem
  exact List.any_eq_false.mp hp c hmem hc

lemma takeWhile_dropWhile_append {p : Char → Bool} {cs rest : List Char}
    (hcs : ∀ d ∈ cs, p d = true) (hrest : ∀ d ∈ rest.head?, p d = false) :
    (cs ++ rest).takeWhile p = cs ∧ (cs ++ rest).dropWhile p = rest := by
  rw [List.takeWhile_append_of_pos hcs, List.dropWhile_append_of_pos hcs]
  cases rest with
  | nil => simp
  | cons d rest =>
    have hd := hrest d rfl
    simp [hd]

lemma step_number {c : Char} {cs rest : List Char} (hc : c.isDigit = true)
    (hcs : ∀ d ∈ cs, d.isDigit = true) (hrest : ∀ d ∈ rest.head?, d.isDigit = false) :
    step c (cs ++ rest) = (some ⟨.number, String.ofList (c :: cs)⟩, rest) := by
  obtain ⟨htake, hdrop⟩ := takeWhile_dropWhile_append hcs hrest
  have hop : isOperatorChar c = false := isOperatorChar_eq_false hc (by decide)
  have hne {d : Char} (hd : d.isDigit = false) : c ≠ d := ne_of_class hc hd
  have hcomment := hne (show '#'.isDigit = false by decide)
  have hdot := hne (show '.'.isDigit = false by decide)
  have hquote := hne (show '"'.isDigit = false by decide)
  simp [step, hcomment, hop, hdot, hquote, hc, htake, hdrop]

lemma isDigit_eq_false_of_isWordStart {c : Char} (hc : isWordStart c = true) :
    c.isDigit = false := by
  by_contra hdigit
  rw [Bool.not_eq_false, Char.isDigit_iff_toNat] at hdigit
  rw [isWordStart, Bool.or_eq_true, beq_iff_eq] at hc
  change (decide (65 ≤ c.val ∧ c.val ≤ 90) || (decide (97 ≤ c.val) && decide (c.val ≤ 122))) = true ∨
    c = '_' at hc
  obtain ⟨hlow, hhigh⟩ : 48 ≤ c.val.toNat ∧ c.val.toNat ≤ 57 := hdigit
  simp only [Bool.or_eq_true, Bool.and_eq_true, decide_eq_true_eq, UInt32.le_iff_toNat_le] at hc
  obtain hletter | rfl := hc
  · simp only [UInt32.reduceToNat] at hletter
    omega
  · exact absurd hhigh (by decide)

lemma step_word {c : Char} {cs rest : List Char} (hc : isWordStart c = true)
    (hcs : ∀ d ∈ cs, isWordChar d = true) (hrest : ∀ d ∈ rest.head?, isWordChar d = false) :
    step c (cs ++ rest) = (some (ofWord (c :: cs)), rest) := by
  obtain ⟨htake, hdrop⟩ := takeWhile_dropWhile_append hcs hrest
  have hop : isOperatorChar c = false := isOperatorChar_eq_false hc (by decide)
  have hne {d : Char} (hd : isWordStart d = false) : c ≠ d := ne_of_class hc hd
  have hcomment := hne (show isWordStart '#' = false by decide)
  have hdot := hne (show isWordStart '.' = false by decide)
  have hquote := hne (show isWordStart '"' = false by decide)
  have hdigit := isDigit_eq_false_of_isWordStart hc
  simp [step, hcomment, hop, hdot, hquote, hdigit, hc, htake, hdrop]

lemma step_string (content : List Char) {rest : List Char} (hrest : rest.head? ≠ some '"') :
    step '"' (Text.Quoted.double content ++ '"' :: rest) =
      (some ⟨.string, String.ofList (Text.Quoted.enclose content)⟩, rest) := by
  have hop : isOperatorChar '"' = false := by decide
  simp [step, hop, Text.Quoted.close?_double hrest, Text.Quoted.enclose]

lemma step_operator {c : Char} (hc : isOperatorChar c = true) (cs : List Char) :
    step c cs = operatorStep c cs := by
  have hcomment : c ≠ '#' := by
    rintro rfl
    revert hc
    decide
  simp [step, hcomment, hc]

lemma operatorStep_of_head? {c : Char} {rest : List Char} (hrest : rest.head? ≠ some '=') :
    operatorStep c rest = (some ⟨.operator, String.ofList [c]⟩, rest) := by
  unfold operatorStep
  split
  · simp at hrest
  · rfl

lemma step_dot {rest : List Char} (hrest : rest.head? ≠ some '.') :
    step '.' rest = (some ⟨.dot, "."⟩, rest) := by
  have hstep : step '.' rest = dotStep rest := rfl
  rw [hstep]
  unfold dotStep
  split
  · simp at hrest
  · rfl

lemma step_punctuation {c : Char} {kind : Kind} (hc : punctuation? c = some kind) (rest : List Char) :
    step c rest = (some ⟨kind, String.ofList [c]⟩, rest) := by
  unfold punctuation? at hc
  split at hc <;> cases hc <;> rfl

/-- The kind of a word is that of a keyword or of an identifier. -/
lemma kind_ofWord (word : List Char) :
    (ofWord word).kind ∈ [Kind.identifier, .keywordDo, .keywordEnd, .keywordFalse,
      .keywordFunction, .keywordTrue] := by
  unfold ofWord keywords
  simp only [List.lookup_cons, List.lookup_nil]
  repeat' split
  all_goals decide

lemma extendedBy_ofWord (word : List Char) (c : Char) :
    (ofWord word).extendedBy c = isWordChar c := by
  have hkind := kind_ofWord word
  simp only [List.mem_cons, List.not_mem_nil, or_false] at hkind
  unfold extendedBy
  rcases hkind with h | h | h | h | h | h <;> rw [h]

/-- The text of a token is scanned as this token if nothing behind it extends it. -/
theorem scanChars_lexeme {token : Token} (h : token.Fits) {rest : List Char}
    (hrest : ∀ c ∈ rest.head?, token.extendedBy c = false) :
    scanChars (token.lexeme.toList ++ rest) = token :: scanChars rest := by
  have hne {c : Char} (hc : token.extendedBy c = true) : rest.head? ≠ some c := by
    intro hhead
    rw [hrest c hhead] at hc
    cases hc
  cases h with
  | number hc hcs =>
    rw [String.toList_ofList]
    exact scanChars_of_step (step_number hc hcs hrest)
  | string content =>
    rw [String.toList_ofList]
    have hstep := step_string content (hne (c := '"') rfl)
    simpa [Text.Quoted.enclose] using scanChars_of_step hstep
  | @word c cs hc hcs =>
    rw [ofWord, String.toList_ofList]
    refine scanChars_of_step (step_word hc hcs fun d hd => ?_)
    rw [← extendedBy_ofWord (c :: cs)]
    exact hrest d hd
  | operator hc =>
    rw [String.toList_ofList]
    exact scanChars_of_step ((step_operator hc _).trans (operatorStep_of_head? (hne (c := '=') rfl)))
  | operatorEquals hc =>
    rw [String.toList_ofList]
    exact scanChars_of_step (step_operator hc _)
  | dot =>
    exact scanChars_of_step (step_dot (hne (c := '.') rfl))
  | dotDot =>
    have hstep : step '.' ('.' :: rest) = (some ⟨.dotDot, ".."⟩, rest) := rfl
    exact scanChars_of_step hstep
  | punctuation hc =>
    rw [String.toList_ofList]
    exact scanChars_of_step (step_punctuation hc rest)

/-- A word that is no keyword. -/
def IsName (name : String) : Prop :=
  ∃ c cs, name.toList = c :: cs ∧ isWordStart c = true ∧ (∀ d ∈ cs, isWordChar d = true) ∧
    keywords.lookup name = none

lemma lookup_keywords_ne (name : String) : keywords.lookup name ≠ some .identifier := by
  unfold keywords
  simp only [List.lookup_cons, List.lookup_nil]
  repeat' split
  all_goals decide

/-- The identifiers are the tokens whose text is a name. -/
theorem fits_identifier_iff {name : String} : Fits ⟨.identifier, name⟩ ↔ IsName name := by
  constructor
  · generalize htoken : (⟨.identifier, name⟩ : Token) = token
    intro h
    cases h with
    | @word c cs hc hcs =>
      obtain ⟨hkind, hname⟩ := Token.mk.inj htoken
      rw [← hname] at hkind
      refine ⟨c, cs, by rw [hname, String.toList_ofList], hc, hcs, ?_⟩
      cases hlookup : keywords.lookup name with
      | none => rfl
      | some kind =>
        rw [hlookup, Option.getD_some] at hkind
        exact absurd (hkind ▸ hlookup) (lookup_keywords_ne name)
    | punctuation hc =>
      cases htoken
      unfold punctuation? at hc
      split at hc <;> cases hc
    | _ => cases htoken
  · rintro ⟨c, cs, hname, hc, hcs, hlookup⟩
    have hword : ofWord (c :: cs) = ⟨.identifier, name⟩ := by
      rw [ofWord, ← hname, String.ofList_toList, hlookup]
      rfl
    rw [← hword]
    exact .word hc hcs

end Token

end ScriptConsole
