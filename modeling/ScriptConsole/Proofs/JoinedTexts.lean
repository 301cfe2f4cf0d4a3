import ScriptConsole.Proofs.Covering
import ScriptConsole.Proofs.PrintedTokens
import ScriptConsole.Proofs.ScannedLines

/-!
# Joining texts

Two texts with a line break between them are scanned one after the other, unless a quote that opens
no string in the first of them is closed in the second (`scan_joined_texts`). The texts of tokens
with spaces between them are scanned as these tokens again.
-/

namespace ScriptConsole

namespace Text.Quoted

/-- If a quote is left over behind a quoted text then no quote closes it. -/
lemma close?_eq_none_of_left {cs inside rest : List Char}
    (h : close? cs = some (inside, '"' :: rest)) : close? rest = none := by
  fun_induction close? cs generalizing inside rest with
  | case1 => cases h
  | case2 cs inside' rest' hclose ih =>
    cases h
    exact ih hclose
  | case3 cs hnone _ =>
    cases h
    exact hnone
  | case4 cs hdouble =>
    cases h
    exact absurd rfl (hdouble rest)
  | case5 c cs _ _ ih =>
    obtain ⟨⟨inside', rest'⟩, hclose, he⟩ := Option.map_eq_some_iff.mp h
    cases he
    exact ih hclose

/-- A quoted text that no quote follows ends there with any other text behind it. -/
lemma close?_append_stop {cs inside rest more : List Char} {stop : Char} (hstop : stop ≠ '"')
    (h : close? cs = some (inside, rest)) (hrest : rest.head? ≠ some '"') :
    close? (cs ++ stop :: more) = some (inside, rest ++ stop :: more) := by
  obtain ⟨content, rfl⟩ := eq_double_of_close? h
  have hcs : cs ++ stop :: more = double content ++ '"' :: (rest ++ stop :: more) := by
    rw [← append_of_close? h]
    simp
  rw [hcs]
  refine close?_double ?_ content
  cases rest with
  | nil => simpa using hstop
  | cons c rest => exact hrest

end Text.Quoted

namespace Token

/-- Every quote of the text is part of a token or of a comment. -/
def QuotesInside (text : List Char) : Prop :=
  ∀ piece ∈ Piece.split text, '"' ∈ piece.chars →
    (∃ found, piece = .token found) ∨ ∃ body, piece = .comment body

/-- The place that scanning gets to lies between two pieces. -/
lemma Arrives.split_eq {text rest : List Char} {found : List Token} (h : Arrives text found rest) :
    ∃ before, Piece.split text = before ++ Piece.split rest := by
  induction h with
  | start => exact ⟨[], rfl⟩
  | @step _ c cs _ ih =>
    obtain ⟨before, hbefore⟩ := ih
    exact ⟨before ++ [Piece.first c cs], by rw [hbefore, Piece.split_cons, List.append_assoc]; rfl⟩

section

variable {text cs : List Char} {found : List Token}

lemma QuotesInside.close?_ne_none (hquotes : QuotesInside text)
    (h : Arrives text found ('"' :: cs)) : Text.Quoted.close? cs ≠ none := by
  intro hnone
  obtain ⟨before, hsplit⟩ := h.split_eq
  have hfirst : Piece.first '"' cs = .quote := by
    rw [Piece.first, step_quote, hnone]
    rfl
  have hmem : .quote ∈ Piece.split text := by
    rw [hsplit, Piece.split_cons, hfirst]
    exact List.mem_append_right before List.mem_cons_self
  obtain ⟨_, hpiece⟩ | ⟨_, hpiece⟩ := hquotes .quote hmem List.mem_cons_self
  · cases hpiece
  · cases hpiece

/-- If no quote is passed over alone then strings are closed where they are for any other text behind
the line. -/
lemma QuotesInside.close?_append (hquotes : QuotesInside text)
    (h : Arrives text found ('"' :: cs)) (more : List Char) :
    Text.Quoted.close? (cs ++ '\n' :: more) =
      (Text.Quoted.close? cs).map fun (inside, rest) => (inside, rest ++ '\n' :: more) := by
  obtain ⟨⟨inside, rest⟩, hclose⟩ := Option.ne_none_iff_exists'.mp (hquotes.close?_ne_none h)
  rw [hclose, Option.map_some]
  refine Text.Quoted.close?_append_stop (by decide) hclose fun hhead => ?_
  -- the quote left over would be passed over alone
  obtain ⟨left, rfl⟩ := List.head?_eq_some_iff.mp hhead
  have hnext := h.step
  rw [step_quote, hclose] at hnext
  exact hquotes.close?_ne_none hnext (Text.Quoted.close?_eq_none_of_left hclose)

end

/-- The texts of tokens with a space between any two of them. -/
def spaced (tokens : List Token) : String :=
  " ".intercalate (tokens.map lexeme)

lemma scans_spaced {tokens : List Token} (h : ∀ token ∈ tokens, token.Fits) :
    Scans (spaced tokens) tokens := by
  induction tokens with
  | nil =>
    intro rest _
    rfl
  | cons token tokens ih =>
    obtain ⟨hfits, htokens⟩ := List.forall_mem_cons.mp h
    have hfirst := scans_token hfits
    cases tokens with
    | nil => simpa [spaced] using hfirst
    | cons next tokens =>
      have hjoined := hfirst.join (ih htokens)
      rwa [spaced, List.map_cons, List.map_cons, String.intercalate_cons_cons, ← List.map_cons]

/-- With a line break between them, two texts are scanned one after the other if there is no quote in
the second, or if every quote of the first is part of a token or a comment. The texts of the tokens
of a text, with spaces between them, are scanned as the same tokens. -/
theorem scan_joined_texts :
    (∀ s t : String, '"' ∉ t.toList ∨ QuotesInside s.toList →
      scan (s ++ "\n" ++ t) = scan s ++ scan t) ∧
    ∀ s : String, scan (spaced (scan s)) = scan s := by
  constructor
  · intro s t h
    obtain hline | hquotes := h
    · exact scan_append_line s hline
    · unfold scan
      rw [String.toList_append, String.toList_append, List.append_assoc]
      exact scanChars_append_of_arrives fun _ _ harrives => hquotes.close?_append harrives t.toList
  · intro s
    exact (scans_spaced fun _ => fits_of_mem_scanChars).scan_eq

/-- A line with a doubled quote in a string and a quote in a comment, in front of a line with a
string. -/
theorem scan_joined_texts_quotes :
    QuotesInside "\"a\"\"\" # \"".toList ∧
      scan ("\"a\"\"\" # \"" ++ "\n" ++ "\"b\" 1") =
        [⟨.string, "\"a\"\"\""⟩, ⟨.string, "\"b\""⟩, ⟨.number, "1"⟩] := by
  have hsplit : Piece.split "\"a\"\"\" # \"".toList =
      [.token ⟨.string, "\"a\"\"\""⟩, .stray ' ', .comment [' ', '"']] := by cbv
  have hquotes : QuotesInside "\"a\"\"\" # \"".toList := by
    unfold QuotesInside
    rw [hsplit]
    simp [Piece.chars]
  have hfirst : scan "\"a\"\"\" # \"" = [⟨.string, "\"a\"\"\""⟩] := by cbv
  have hsecond : scan "\"b\" 1" = [⟨.string, "\"b\""⟩, ⟨.number, "1"⟩] := by cbv
  refine ⟨hquotes, ?_⟩
  rw [scan_joined_texts.1 _ _ (.inr hquotes), hfirst, hsecond]
  rfl

/-- A quote that is passed over in a line of its own opens a string if the next line has a quote. -/
example : scan "\"" = [] ∧ scan "a\"" = [⟨.identifier, "a"⟩] ∧
    scan ("\"" ++ "\n" ++ "a\"") = [⟨.string, "\"\na\""⟩] :=
  ⟨by cbv, by cbv, by cbv⟩

end Token

end ScriptConsole
