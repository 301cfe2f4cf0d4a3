import Mathlib
import ScriptConsole.Proofs.Arithmetic

/-!
# Printed constants

A string is printed between quotes, and scanning finds its end again: quoting and scanning undo each
other (`quoting_and_scanning_inverse`). A printed constant is a statement with the constant as its
value, with one exception (`interpret_printed_literal`). The least number is printed with a minus in
front of digits that, read as a number of their own, are out of range.
-/

namespace ScriptConsole

namespace Token

lemma stringValue_enclose (content : List Char) :
    stringValue ⟨.string, String.ofList (Text.Quoted.enclose content)⟩ = String.ofList content := by
  rw [stringValue, String.toList_ofList, Text.Quoted.content_enclose]

lemma stringValue_print (value : String) :
    stringValue ⟨.string, (Literal.string value).print⟩ = value := by
  rw [Literal.print, stringValue_enclose, String.ofList_toList]

lemma fits_print_string (value : String) : Fits ⟨.string, (Literal.string value).print⟩ :=
  .string value.toList

/-- The text of a string token is the quoted form of what it stands for. -/
lemma Fits.print_stringValue {token : Token} (h : token.Fits) (hkind : token.kind = .string) :
    (Literal.string token.stringValue).print = token.lexeme := by
  cases h with
  | string content => rw [stringValue_enclose, Literal.print, String.toList_ofList]
  | @word c cs _ _ =>
    have hword := kind_ofWord (c :: cs)
    rw [hkind] at hword
    exact absurd hword (by decide)
  | punctuation hc =>
    unfold punctuation? at hc
    split at hc <;> cases hc <;> cases hkind
  | _ => cases hkind

end Token

/-- A quoted text in front of anything but a quote is scanned as one string token that stands for
the text. Every string token is the quoted form of the text that it stands for. -/
theorem quoting_and_scanning_inverse :
    (∀ value rest : String, rest.toList.head? ≠ some '"' →
      let token : Token := ⟨.string, (Literal.string value).print⟩
      Token.scan ((Literal.string value).print ++ rest) = token :: Token.scan rest ∧
        token.stringValue = value) ∧
    ∀ (source : String) (token : Token), token ∈ Token.scan source → token.kind = .string →
      (Literal.string token.stringValue).print = token.lexeme := by
  constructor
  · intro value rest hrest token
    refine ⟨?_, Token.stringValue_print value⟩
    rw [Token.scan, String.toList_append]
    refine Token.scanChars_lexeme (Token.fits_print_string value) fun c hc => ?_
    rw [Token.extendedBy, beq_eq_false_iff_ne]
    rintro rfl
    exact hrest hc
  · intro source token hmem hkind
    exact (Token.fits_of_mem_scanChars hmem).print_stringValue hkind

/-- A text with quotes, a comment sign and a line break in it, and a string that ends at the quote
before the last one. -/
theorem quoting_and_scanning_inverse_quotes :
    (Token.scan ((Literal.string "\"\"#\n\"").print ++ "+x") =
        ⟨.string, "\"\"\"\"\"#\n\"\"\""⟩ :: Token.scan "+x") ∧
      (Literal.string "ab").print = "\"ab\"" := by
  have hfirst := quoting_and_scanning_inverse.1 "\"\"#\n\"" "+x" (by decide)
  have hscan : Token.scan "\"ab\"\"" = [⟨.string, "\"ab\""⟩] := by cbv
  have hsecond := quoting_and_scanning_inverse.2 "\"ab\"\"" ⟨.string, "\"ab\""⟩
    (by rw [hscan]; exact List.mem_singleton_self _) rfl
  exact ⟨hfirst.1, hsecond⟩

/-- The least number. -/
def Number.least : Number := ⟨-9223372036854775808, by decide, by decide⟩

namespace Arith

/-- Every number but the least is written as an arithmetic expression that has it as its value. -/
lemma exists_text_eq {n : Number} (h : n ≠ Number.least) :
    ∃ t : Arith, t.text = n.text ∧ t.exact = n.val ∧ t.postorder.findSome? fault? = none := by
  obtain ⟨hlow, hhigh⟩ := n.inRange_val
  have hleast : n.val ≠ -9223372036854775808 := by
    intro hval
    apply h
    cases n
    simp only at hval
    subst hval
    rfl
  rw [Number.text, Int.toString_eq_repr, Int.repr_eq_if]
  split
  · next hsign =>
    refine ⟨.literal ⟨n.val.toNat, by omega⟩, Nat.toString_eq_repr, Int.toNat_of_nonneg hsign, rfl⟩
  · next hsign =>
    have hval : -((-n.val).toNat : Int) = n.val := by omega
    have hrange : Number.InRange (-((-n.val).toNat : Int)) := by
      rw [hval]
      exact n.inRange_val
    let digits : Arith := .literal ⟨(-n.val).toNat, by omega⟩
    have hfault : (Arith.signed .minus digits).fault? = none := if_pos hrange
    refine ⟨.signed .minus digits, rfl, hval, ?_⟩
    rw [postorder, List.findSome?_append, List.findSome?_singleton, hfault]
    rfl

end Arith

namespace Session

lemma interpret_text_of_ne_least {n : Number} (h : n ≠ Number.least) :
    interpret n.text new = .ok (some (.number n)) new := by
  obtain ⟨t, htext, hexact, hfault⟩ := Arith.exists_text_eq h
  obtain ⟨result, hsettles, heval⟩ := t.exists_evaluateWith_node Evaluation.call globals
  rw [hfault] at hsettles
  obtain ⟨m, hm, rfl⟩ := hsettles
  obtain rfl : m = n := Option.some.inj (by
    rw [← Number.ofInt?_val m, ← Number.ofInt?_val n, hm, hexact])
  rw [← htext, interpret_of_parse t.parse_text, Evaluation.evaluate, Evaluation.evaluateWith, heval]
  rfl

end Session

namespace Parser

/-- A text that is scanned as one token is a statement if the token is a primary expression. -/
lemma parse_token {kind : Token.Kind} {lexeme : String} {node : Node}
    (hfits : Token.Fits ⟨kind, lexeme⟩) (hop : kind ≠ .operator) (hdo : kind ≠ .keywordDo)
    (h : ∀ rest, Uncalled [⟨kind, lexeme⟩] rest →
      Reads (.primary node) (⟨kind, lexeme⟩ :: rest) rest) :
    parse lexeme = .ok (some (.statement node)) := by
  have hreads : ReadsAs [⟨kind, lexeme⟩] node 4 := readsAs_of_primary h
  have hscan : Token.scan lexeme = [⟨kind, lexeme⟩] :=
    (Token.written_token hfits hop).scans.scan_eq
  rw [parse_eq_some_iff, hscan]
  refine .statementExpression (ahead_cons.mpr hdo) ?_
  exact hreads.mono (Nat.zero_le _) [] (fun _ => ahead_nil) ahead_nil

lemma reads_string (value : String) (rest : List Token) :
    Reads (.primary (.literal (.string value))) (⟨.string, (Literal.string value).print⟩ :: rest)
      rest := by
  let token : Token := ⟨.string, (Literal.string value).print⟩
  have hreads : Reads (.primary (.literal (.string token.stringValue))) (token :: rest) rest :=
    .primaryString rfl
  rwa [Token.stringValue_print] at hreads

end Parser

namespace Literal

lemma parse_print_string (s : String) :
    parse (Literal.string s).print = .ok (some (.statement (.literal (.string s)))) :=
  Parser.parse_token (Token.fits_print_string s) (by decide) (by decide)
    fun rest _ => Parser.reads_string s rest

lemma parse_print_bool (b : Bool) :
    parse (Literal.bool b).print = .ok (some (.statement (.literal (.bool b)))) := by
  cases b with
  | false =>
    exact Parser.parse_token Token.fits_keywordFalse (by decide) (by decide)
      fun _ _ => .primaryFalse rfl
  | true =>
    exact Parser.parse_token Token.fits_keywordTrue (by decide) (by decide)
      fun _ _ => .primaryTrue rfl

/-- Null has no literal; it is printed as a name that nothing is bound to. -/
lemma parse_print_null :
    parse Literal.null.print = .ok (some (.statement (.identifier "null"))) := by
  have hfits : Token.Fits ⟨.identifier, "null"⟩ :=
    @Token.Fits.word 'n' "ull".toList (by decide) (List.all_eq_true.mp (by decide))
  let token : Token := ⟨.identifier, "null"⟩
  refine Parser.parse_token hfits (by decide) (by decide) fun rest hrest => ?_
  exact (.primaryName rfl (hrest rfl) :
    Parser.Reads (.primary (.identifier token.lexeme)) (token :: rest) rest)

end Literal

/-- In a new session a printed constant has the constant as its value, and nothing changes. Only the
least number is refused. -/
theorem interpret_printed_literal (value : Literal) :
    Session.interpret value.print Session.new =
      if value = .number Number.least then
        .error (.malformed (.badNumber "9223372036854775808")) Session.new
      else
        .ok (some (.ofLiteral value)) Session.new := by
  split
  · next hleast =>
    subst hleast
    cbv
  · next hleast =>
    cases value with
    | number n =>
      exact Session.interpret_text_of_ne_least fun hn => hleast (hn ▸ rfl)
    | string s => rw [Session.interpret_of_parse (Literal.parse_print_string s)]; rfl
    | bool b => rw [Session.interpret_of_parse (Literal.parse_print_bool b)]; rfl
    | null => rw [Session.interpret_of_parse Literal.parse_print_null]; rfl

/-- The least number is printed, but what is printed has no value. -/
theorem least_number_not_read_back :
    (Literal.number Number.least).print = "-9223372036854775808" ∧
      ∀ value session,
        Session.interpret "-9223372036854775808" Session.new ≠ .ok value session := by
  have hprint : (Literal.number Number.least).print = "-9223372036854775808" := by decide
  have hfails : Session.interpret "-9223372036854775808" Session.new =
      .error (.malformed (.badNumber "9223372036854775808")) Session.new := by cbv
  refine ⟨hprint, fun value session hok => ?_⟩
  rw [hfails] at hok
  cases hok

end ScriptConsole
