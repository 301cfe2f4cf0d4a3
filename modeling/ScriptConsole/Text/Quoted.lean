/-!
# Quoted text

A text is quoted by writing a quote before and after it and every quote inside it twice. `enclose`
writes this form, `content` reads it back, and `close?` finds where a quoted text that has just been
opened ends.
-/

namespace ScriptConsole.Text.Quoted

/-- Writes every quote twice. -/
def double : List Char → List Char
  | [] => []
  | '"' :: cs => '"' :: '"' :: double cs
  | c :: cs => c :: double cs

/-- The quoted form of a text. -/
def enclose (cs : List Char) : List Char :=
  '"' :: double cs ++ ['"']

/-- Reads two quotes in a row as one, from left to right. -/
def collapse : List Char → List Char
  | [] => []
  | '"' :: '"' :: cs => '"' :: collapse cs
  | c :: cs => c :: collapse cs

/-- The text between the first and the last character of a quoted form, with doubled quotes
collapsed. Both of these characters must be one byte long; otherwise, and when there are fewer than
two characters, there is no text. -/
def content : List Char → List Char
  | [] => []
  | first :: rest =>
    match rest.getLast? with
    | none => []
    | some last =>
      if first.utf8Size = 1 ∧ last.utf8Size = 1 then collapse rest.dropLast else []

/-- Splits the characters after an opening quote behind the closing one. A quote followed by another
stands for a quote inside the text as long as the text can still be closed later on; if it cannot,
the first of the two closes it. -/
def close? : List Char → Option (List Char × List Char)
  | [] => none
  | '"' :: '"' :: cs =>
    match close? cs with
    | some (inside, rest) => some ('"' :: '"' :: inside, rest)
    | none => some (['"'], '"' :: cs)
  | '"' :: cs => some (['"'], cs)
  | c :: cs => (close? cs).map fun (inside, rest) => (c :: inside, rest)

/-- Nothing is lost when a quoted text is split off. -/
theorem append_of_close? {cs inside rest : List Char} (h : close? cs = some (inside, rest)) :
    inside ++ rest = cs := by
  fun_induction close? cs generalizing inside rest with
  | case1 => cases h
  | case2 cs i r hc ih =>
    cases h
    simp [ih hc]
  | case3 cs hc ih =>
    cases h
    rfl
  | case4 cs _ =>
    cases h
    rfl
  | case5 c cs _ _ ih =>
    simp only [Option.map_eq_some_iff] at h
    obtain ⟨⟨i, r⟩, hc, he⟩ := h
    cases he
    simp [ih hc]

/-- The closing quote is always part of what is split off. -/
theorem length_lt_of_close? {cs inside rest : List Char} (h : close? cs = some (inside, rest)) :
    rest.length < cs.length := by
  fun_induction close? cs generalizing inside rest with
  | case1 => cases h
  | case2 cs i r hc ih =>
    cases h
    have := ih hc
    simp only [List.length_cons]
    omega
  | case3 cs hc ih =>
    cases h
    simp
  | case4 cs _ =>
    cases h
    simp
  | case5 c cs _ _ ih =>
    simp only [Option.map_eq_some_iff] at h
    obtain ⟨⟨i, r⟩, hc, he⟩ := h
    cases he
    have := ih hc
    simp only [List.length_cons]
    omega

end ScriptConsole.Text.Quoted
