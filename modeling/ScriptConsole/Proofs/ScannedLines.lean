import ScriptConsole.Proofs.Lexemes

/-!
# Scanning line by line

A line break ends whatever token or comment stands before it, but for quoted texts, which may go on
behind it. So a line without quotes is scanned on its own (`scan_append_line`).
-/

namespace ScriptConsole

namespace Text.Quoted

lemma close?_eq_none {cs : List Char} (h : '"' ∉ cs) : close? cs = none := by
  induction cs with
  | nil => rfl
  | cons c cs ih =>
    obtain ⟨hc, hcs⟩ := not_or.mp (mt List.mem_cons.mpr h)
    rw [close?_cons (Ne.symm hc), ih hcs]
    rfl

/-- Where a quoted text ends does not depend on what follows, as long as no quote does. -/
lemma close?_append {more : List Char} (h : '"' ∉ more) (cs : List Char) :
    close? (cs ++ more) = (close? cs).map fun (inside, rest) => (inside, rest ++ more) := by
  fun_induction close? cs with
  | case1 => exact close?_eq_none h
  | case2 cs inside rest hclose ih =>
    rw [hclose] at ih
    simp only [List.cons_append, close?, ih]
    rfl
  | case3 cs hclose ih =>
    rw [hclose] at ih
    simp only [List.cons_append, close?, ih]
    rfl
  | case4 cs hquote =>
    cases cs with
    | nil =>
      cases more with
      | nil => rfl
      | cons c more =>
        have hc : c ≠ '"' := fun heq => h (heq ▸ List.mem_cons_self)
        simp [close?, hc]
    | cons c cs =>
      have hc : c ≠ '"' := fun heq => hquote cs (by rw [heq])
      simp [close?, hc]
  | case5 c cs hdouble hc ih =>
    rw [List.cons_append, close?_cons hc, ih, Option.map_map, Option.map_map]
    rfl

end Text.Quoted

namespace Token

variable {more : List Char}

lemma takeWhile_append_stop {p : Char → Bool} {stop : Char} (h : p stop = false) (cs : List Char) :
    (cs ++ stop :: more).takeWhile p = cs.takeWhile p := by
  induction cs with
  | nil => simp [h]
  | cons c cs ih =>
    by_cases hc : p c = true
    · simp [hc, ih]
    · simp [hc]

lemma dropWhile_append_stop {p : Char → Bool} {stop : Char} (h : p stop = false) (cs : List Char) :
    (cs ++ stop :: more).dropWhile p = cs.dropWhile p ++ stop :: more := by
  induction cs with
  | nil => simp [h]
  | cons c cs ih =>
    by_cases hc : p c = true
    · simp [hc, ih]
    · simp [hc]

lemma operatorStep_append (c : Char) (cs : List Char) :
    operatorStep c (cs ++ '\n' :: more) =
      ((operatorStep c cs).1, (operatorStep c cs).2 ++ '\n' :: more) := by
  cases cs with
  | nil => rfl
  | cons d cs =>
    by_cases hd : d = '='
    · subst hd
      rfl
    · rw [operatorStep_of_head? (by simpa using hd), operatorStep_of_head? (by simpa using hd)]

lemma dotStep_append (cs : List Char) :
    dotStep (cs ++ '\n' :: more) = ((dotStep cs).1, (dotStep cs).2 ++ '\n' :: more) := by
  have hdot (cs : List Char) : step '.' cs = dotStep cs := rfl
  cases cs with
  | nil => rfl
  | cons d cs =>
    by_cases hd : d = '.'
    · subst hd
      rfl
    · rw [← hdot, ← hdot, step_dot (by simpa using hd), step_dot (by simpa using hd)]

/-- No step goes beyond a line break, unless a quote opens a string that is closed behind it. -/
lemma step_append {c : Char} {cs : List Char}
    (h : c = '"' → Text.Quoted.close? (cs ++ '\n' :: more) =
      (Text.Quoted.close? cs).map fun (inside, rest) => (inside, rest ++ '\n' :: more)) :
    step c (cs ++ '\n' :: more) = ((step c cs).1, (step c cs).2 ++ '\n' :: more) := by
  unfold step
  split
  · rw [dropWhile_append_stop (by decide)]
  split
  · exact operatorStep_append c cs
  split
  · exact dotStep_append cs
  split
  · next hquote =>
    rw [h hquote]
    cases Text.Quoted.close? cs <;> rfl
  split
  · rw [takeWhile_append_stop (by decide), dropWhile_append_stop (by decide)]
  split
  · rw [takeWhile_append_stop (by decide), dropWhile_append_stop (by decide)]
  · rfl

lemma step_quote (cs : List Char) :
    step '"' cs = match Text.Quoted.close? cs with
      | some (inside, rest) => (some ⟨.string, String.ofList ('"' :: inside)⟩, rest)
      | none => (none, cs) :=
  rfl

/-- Scanning a text gets in front of these characters, with these tokens found before. -/
inductive Arrives (text : List Char) : List Token → List Char → Prop
  | start : Arrives text [] text
  | step {found : List Token} {c : Char} {cs : List Char} (h : Arrives text found (c :: cs)) :
      Arrives text (found ++ (step c cs).1.toList) (step c cs).2

lemma scanChars_cons (c : Char) (cs : List Char) :
    scanChars (c :: cs) = (step c cs).1.toList ++ scanChars (step c cs).2 := by
  rw [scanChars]
  cases (step c cs).1 <;> rfl

lemma Arrives.scanChars_eq {text rest : List Char} {found : List Token}
    (h : Arrives text found rest) : scanChars text = found ++ scanChars rest := by
  induction h with
  | start => rfl
  | step _ ih => rw [ih, scanChars_cons, List.append_assoc]

/-- A line break cuts the scanning of a text in two if every string is closed where it would be
without the characters behind the break. -/
lemma scanChars_append_of_arrives {cs : List Char}
    (h : ∀ found rest, Arrives cs found ('"' :: rest) →
      Text.Quoted.close? (rest ++ '\n' :: more) =
        (Text.Quoted.close? rest).map fun (inside, rest) => (inside, rest ++ '\n' :: more)) :
    scanChars (cs ++ '\n' :: more) = scanChars cs ++ scanChars more := by
  have hrun {found rest} (harrives : Arrives cs found rest) :
      scanChars (rest ++ '\n' :: more) = scanChars rest ++ scanChars more := by
    fun_induction scanChars rest generalizing found with
    | case1 => exact scanChars_of_step_none rfl
    | case2 c rest _ token htoken ih =>
      rw [List.cons_append, scanChars_cons, step_append fun hc => h found rest (hc ▸ harrives),
        ih harrives.step, htoken]
      rfl
    | case3 c rest _ hnone ih =>
      rw [List.cons_append, scanChars_cons, step_append fun hc => h found rest (hc ▸ harrives),
        ih harrives.step, hnone]
      rfl
  exact hrun .start

/-- A line without quotes does not change how the lines before it are scanned. -/
theorem scan_append_line (s : String) {t : String} (h : '"' ∉ t.toList) :
    scan (s ++ "\n" ++ t) = scan s ++ scan t := by
  unfold scan
  rw [String.toList_append, String.toList_append, List.append_assoc]
  have hline : '"' ∉ '\n' :: t.toList := by simpa using h
  exact scanChars_append_of_arrives fun _ rest _ => Text.Quoted.close?_append hline rest

end Token

end ScriptConsole
