import Mathlib.Computability.Language
import ScriptConsole.Proofs.Covering
import ScriptConsole.Proofs.ScannedLines

/-!
# Strings as longest matches

The text of a string is a word of the regular language `closedForms`: between two quotes stand
characters that are no quotes, and quotes in pairs. Wherever scanning comes to a quote it takes the
longest such word that starts there, and it passes over the quote alone if there is none
(`string_is_longest_match`).
-/

namespace ScriptConsole

open scoped Computability

namespace Text.Quoted

def notQuote : Language Char :=
  {word | ∃ c, c ≠ '"' ∧ word = [c]}

/-- The texts between two quotes in which all other quotes come in pairs. -/
def closedForms : Language Char :=
  {['"']} * (notQuote + {['"', '"']})∗ * {['"']}

/-- The longest word of a language that a text starts with. -/
structure IsLongestPrefix (language : Language Char) (word text : List Char) : Prop where
  mem : word ∈ language
  starts : word <+: text
  longest : ∀ other ∈ language, other <+: text → other.length ≤ word.length

/-- What stands between the quotes is a text with its quotes doubled. -/
lemma mem_kstar_iff_double {word : List Char} :
    word ∈ (notQuote + {['"', '"']})∗ ↔ ∃ content, word = double content := by
  constructor
  · intro h
    obtain ⟨parts, rfl, hparts⟩ := Language.mem_kstar.mp h
    clear h
    induction parts with
    | nil => exact ⟨[], rfl⟩
    | cons part parts ih =>
      obtain ⟨hpart, hrest⟩ := List.forall_mem_cons.mp hparts
      obtain ⟨content, hcontent⟩ := ih hrest
      rw [List.flatten_cons, hcontent]
      obtain ⟨c, hc, rfl⟩ | rfl := (Language.mem_add _ _ _).mp hpart
      · exact ⟨c :: content, by rw [double_cons, if_neg hc]⟩
      · exact ⟨'"' :: content, rfl⟩
  · rintro ⟨content, rfl⟩
    induction content with
    | nil => exact Language.nil_mem_kstar _
    | cons c content ih =>
      obtain ⟨parts, hparts, hitems⟩ := Language.mem_kstar.mp ih
      rw [double_cons, hparts]
      refine Language.mem_kstar.mpr ⟨(if c = '"' then ['"', '"'] else [c]) :: parts, rfl, ?_⟩
      refine List.forall_mem_cons.mpr ⟨(Language.mem_add _ _ _).mpr ?_, hitems⟩
      split
      · exact .inr rfl
      · next hc => exact .inl ⟨c, hc, rfl⟩

/-- The words of the language are the quoted forms of texts. -/
theorem mem_closedForms_iff {word : List Char} :
    word ∈ closedForms ↔ ∃ content, word = enclose content := by
  rw [closedForms, Language.mem_mul]
  constructor
  · rintro ⟨front, hfront, last, rfl, rfl⟩
    obtain ⟨first, rfl, inside, hinside, rfl⟩ := Language.mem_mul.mp hfront
    obtain ⟨content, rfl⟩ := mem_kstar_iff_double.mp hinside
    exact ⟨content, rfl⟩
  · rintro ⟨content, rfl⟩
    have hinside := mem_kstar_iff_double.mpr ⟨content, rfl⟩
    exact ⟨_, Language.mem_mul.mpr ⟨['"'], rfl, _, hinside, rfl⟩, ['"'], rfl, rfl⟩

/-- A word of the language that a text starts with is no longer than what is split off. -/
lemma exists_close?_of_prefix {other cs : List Char} (hother : other ∈ closedForms)
    (hstarts : other <+: '"' :: cs) :
    ∃ inside rest, close? cs = some (inside, rest) ∧ other.length ≤ inside.length + 1 := by
  obtain ⟨content, rfl⟩ := mem_closedForms_iff.mp hother
  obtain ⟨more, hmore⟩ := hstarts
  have hcs : cs = double content ++ '"' :: more := by
    simpa [enclose] using (List.cons.inj hmore).2.symm
  obtain ⟨inside, rest, hclose, hlonger⟩ := close?_of_double content more
  refine ⟨inside, rest, by rw [hcs, hclose], ?_⟩
  have hlength : (enclose content).length = (double content).length + 2 := by simp [enclose]
  obtain rfl | hlonger := hlonger
  · simp [enclose]
  · omega

lemma isLongestPrefix_of_close? {cs inside rest : List Char}
    (h : close? cs = some (inside, rest)) :
    IsLongestPrefix closedForms ('"' :: inside) ('"' :: cs) := by
  refine ⟨?_, ⟨rest, congrArg ('"' :: ·) (append_of_close? h)⟩, fun other hother hstarts => ?_⟩
  · obtain ⟨content, rfl⟩ := eq_double_of_close? h
    exact mem_closedForms_iff.mpr ⟨content, rfl⟩
  · obtain ⟨inside', rest', hclose, hlength⟩ := exists_close?_of_prefix hother hstarts
    cases h.symm.trans hclose
    exact hlength

end Text.Quoted

namespace Token

open Text.Quoted (closedForms IsLongestPrefix close?)

/-- What scanning makes of a quote: a string token with the longest word that starts there, or, if
there is none, nothing, and scanning goes on behind the quote. -/
lemma Arrives.quote {text cs : List Char} {found : List Token} (h : Arrives text found ('"' :: cs)) :
    (∃ word rest, word ++ rest = '"' :: cs ∧ IsLongestPrefix closedForms word ('"' :: cs) ∧
      Arrives text (found ++ [⟨.string, String.ofList word⟩]) rest) ∨
    (∀ word ∈ closedForms, ¬word <+: '"' :: cs) ∧ Arrives text found cs := by
  have hnext := h.step
  rw [step_quote] at hnext
  cases hclose : close? cs with
  | some parts =>
    obtain ⟨inside, rest⟩ := parts
    rw [hclose] at hnext
    exact .inl ⟨'"' :: inside, rest, congrArg ('"' :: ·) (Text.Quoted.append_of_close? hclose),
      Text.Quoted.isLongestPrefix_of_close? hclose, hnext⟩
  | none =>
    rw [hclose, Option.toList_none, List.append_nil] at hnext
    refine .inr ⟨fun word hword hstarts => ?_, hnext⟩
    obtain ⟨inside, rest, hsome, -⟩ := Text.Quoted.exists_close?_of_prefix hword hstarts
    rw [hclose] at hsome
    cases hsome

/-- Wherever the scanning of a source text or of its bytes comes to a quote, it ends: either with the
longest string that starts there, as the next token, or, if no string starts there, behind the quote
with no token. -/
theorem string_is_longest_match (source : String) :
    let bytes := Text.spell source.toList
    scanChars bytes = (scan source).map spell ∧
    ∀ text ∈ [source.toList, bytes], ∀ found cs, Arrives text found ('"' :: cs) →
      (∃ word rest, word ++ rest = '"' :: cs ∧ IsLongestPrefix closedForms word ('"' :: cs) ∧
        scanChars text = found ++ ⟨.string, String.ofList word⟩ :: scanChars rest ∧
        Arrives text (found ++ [⟨.string, String.ofList word⟩]) rest) ∨
      (∀ word ∈ closedForms, ¬word <+: '"' :: cs) ∧
        scanChars text = found ++ scanChars cs ∧ Arrives text found cs := by
  refine ⟨scanChars_spell source.toList, fun text _ found cs h => ?_⟩
  obtain ⟨word, rest, hsplit, hlongest, hnext⟩ | ⟨hnone, hnext⟩ := h.quote
  · refine .inl ⟨word, rest, hsplit, hlongest, ?_, hnext⟩
    rw [hnext.scanChars_eq, List.append_assoc]
    rfl
  · exact .inr ⟨hnone, hnext.scanChars_eq, hnext⟩

/-- A string that ends in front of the last quote, because the last two quotes are no pair inside a
longer one; the last quote starts no string. -/
theorem string_is_longest_match_oddQuotes :
    let source := "\"a\"\"b\"\" c"
    let string : Token := ⟨.string, "\"a\"\"b\""⟩
    Arrives source.toList [] ('"' :: "a\"\"b\"\" c".toList) ∧
      IsLongestPrefix closedForms string.lexeme.toList source.toList ∧
      Arrives source.toList [string] ('"' :: " c".toList) ∧
      ∀ word ∈ closedForms, ¬word <+: '"' :: " c".toList := by
  intro source string
  have hsource : source.toList = '"' :: "a\"\"b\"\" c".toList := by decide
  have hstep : step '"' "a\"\"b\"\" c".toList = (some string, '"' :: " c".toList) := by cbv
  have hscan : scanChars source.toList = [string, ⟨.identifier, "c"⟩] := by cbv
  have hfirst : Arrives source.toList [] ('"' :: "a\"\"b\"\" c".toList) := hsource ▸ .start
  have hlast : Arrives source.toList [string] ('"' :: " c".toList) := by
    have hnext := hfirst.step
    rwa [hstep] at hnext
  have hquote := (string_is_longest_match source).2 source.toList List.mem_cons_self
  refine ⟨hfirst, ?_, hlast, ?_⟩
  · obtain ⟨word, rest, -, hlongest, htokens, -⟩ | ⟨-, htokens, -⟩ := hquote [] _ hfirst
    · have hword : string.lexeme = String.ofList word :=
        congrArg Token.lexeme (List.cons.inj (hscan.symm.trans htokens)).1
      rw [hword, String.toList_ofList, hsource]
      exact hlongest
    · have hother : scanChars "a\"\"b\"\" c".toList =
          [⟨.identifier, "a"⟩, ⟨.string, "\"\""⟩, ⟨.identifier, "b"⟩, ⟨.string, "\"\""⟩,
            ⟨.identifier, "c"⟩] := by cbv
      exact absurd (hscan.symm.trans (htokens.trans hother)) (by decide)
  · obtain ⟨word, rest, -, -, htokens, -⟩ | ⟨hnone, -, -⟩ := hquote [string] _ hlast
    · have hkind : Kind.identifier = .string :=
        congrArg Token.kind (List.cons.inj (List.cons.inj (hscan.symm.trans htokens)).2).1
      cases hkind
    · exact hnone

end Token

end ScriptConsole
