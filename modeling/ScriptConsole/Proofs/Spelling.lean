import Mathlib
import ScriptConsole.Proofs.Lexemes
import ScriptConsole.Text.Utf8

/-!
# Scanning the bytes of a text

The scanner looks at characters. It would find the same tokens if it looked at the bytes of the text
instead: a character that is more than one byte long occurs in strings, comments and between tokens
only, and each of its bytes is passed over there just as the character is. `Text.spell` writes a text
byte by byte, and `step_spell` says that a step on it corresponds to a step on the text.
-/

namespace ScriptConsole

namespace Text

/-- The bytes of a character, each as a character of its own. -/
def spellChar (c : Char) : List Char :=
  (String.utf8EncodeChar c).map Char.ofUInt8

/-- The bytes of a text, each as a character of its own. -/
def spell (cs : List Char) : List Char :=
  cs.flatMap spellChar

lemma spellChar_of_le {c : Char} (h : c.toNat ≤ 127) : spellChar c = [c] := by
  have hle : c.val.toNat ≤ 127 := h
  simp only [spellChar, String.utf8EncodeChar, hle, if_true, List.map_cons, List.map_nil]
  have hval : (UInt8.ofNat c.val.toNat).toUInt32.toNat = c.val.toNat := by
    rw [UInt8.toNat_toUInt32, UInt8.toNat_ofNat', Nat.mod_eq_of_lt (by omega)]
  exact congrArg (fun d => [d]) (Char.ext (UInt32.toNat_inj.mp hval))

/-- A character beyond ASCII is spelled with bytes beyond ASCII. -/
lemma lt_of_mem_spellChar {c b : Char} (h : 127 < c.toNat) (hb : b ∈ spellChar c) :
    127 < b.toNat := by
  have hbytes : ∀ byte ∈ String.utf8EncodeChar c, 127 < byte.toNat := by
    have hlt : ¬c.val.toNat ≤ 127 := Nat.not_le_of_lt h
    simp only [String.utf8EncodeChar, if_neg hlt]
    split
    · simp only [List.forall_mem_cons, UInt8.toNat_ofNat', List.not_mem_nil, false_implies,
        implies_true, and_true]
      omega
    split
    · simp only [List.forall_mem_cons, UInt8.toNat_ofNat', List.not_mem_nil, false_implies,
        implies_true, and_true]
      omega
    · simp only [List.forall_mem_cons, UInt8.toNat_ofNat', List.not_mem_nil, false_implies,
        implies_true, and_true]
      omega
  obtain ⟨byte, hbyte, rfl⟩ := List.mem_map.mp hb
  exact hbytes byte hbyte

lemma exists_cons_spellChar (c : Char) : ∃ b bs, spellChar c = b :: bs := by
  apply List.exists_cons_of_ne_nil
  intro hnil
  have hlength := congrArg List.length hnil
  rw [spellChar, List.length_map, String.length_utf8EncodeChar] at hlength
  exact absurd hlength (Nat.ne_of_gt c.utf8Size_pos)

lemma spell_cons (c : Char) (cs : List Char) : spell (c :: cs) = spellChar c ++ spell cs :=
  rfl

lemma spell_cons_of_le {c : Char} (h : c.toNat ≤ 127) (cs : List Char) :
    spell (c :: cs) = c :: spell cs := by
  rw [spell_cons, spellChar_of_le h]
  rfl

lemma spell_append (cs ds : List Char) : spell (cs ++ ds) = spell cs ++ spell ds :=
  List.flatMap_append

/-- A text of ASCII characters is spelled as it is. -/
lemma spell_of_le {cs : List Char} (h : ∀ c ∈ cs, c.toNat ≤ 127) : spell cs = cs := by
  induction cs with
  | nil => rfl
  | cons c cs ih =>
    obtain ⟨hc, hcs⟩ := List.forall_mem_cons.mp h
    rw [spell_cons_of_le hc, ih hcs]

/-- The first byte of a text is an ASCII character if its first character is. -/
lemma head?_spell_ne {stop : Char} (hstop : stop.toNat ≤ 127) {cs : List Char}
    (h : cs.head? ≠ some stop) : (spell cs).head? ≠ some stop := by
  cases cs with
  | nil => exact h
  | cons c cs =>
    by_cases hc : c.toNat ≤ 127
    · rw [spell_cons_of_le hc]
      exact h
    · obtain ⟨b, bs, hbytes⟩ := exists_cons_spellChar c
      have hb : 127 < b.toNat :=
        lt_of_mem_spellChar (Nat.lt_of_not_le hc) (hbytes ▸ List.mem_cons_self)
      rw [spell_cons, hbytes]
      intro hhead
      obtain rfl : b = stop := Option.some.inj hhead
      omega

/-- A class that holds all characters beyond ASCII or none of them cuts the bytes of a text where it
cuts the text. -/
lemma span_spell {p : Char → Bool} {wide : Bool} (hp : ∀ c : Char, 127 < c.toNat → p c = wide)
    (cs : List Char) :
    (spell cs).takeWhile p = spell (cs.takeWhile p) ∧
      (spell cs).dropWhile p = spell (cs.dropWhile p) := by
  induction cs with
  | nil => exact ⟨rfl, rfl⟩
  | cons c cs ih =>
    by_cases hc : c.toNat ≤ 127
    · rw [spell_cons_of_le hc, List.takeWhile_cons, List.takeWhile_cons, List.dropWhile_cons,
        List.dropWhile_cons]
      by_cases hpc : p c = true
      · rw [if_pos hpc, if_pos hpc, if_pos hpc, if_pos hpc, spell_cons_of_le hc, ih.1]
        exact ⟨rfl, ih.2⟩
      · rw [if_neg hpc, if_neg hpc, if_neg hpc, if_neg hpc, spell_cons_of_le hc]
        exact ⟨rfl, rfl⟩
    · have hwide : 127 < c.toNat := Nat.lt_of_not_le hc
      have hbytes : ∀ b ∈ spellChar c, p b = wide :=
        fun b hb => hp b (lt_of_mem_spellChar hwide hb)
      -- either the whole character is taken with its bytes, or the first byte stops the run
      cases wide with
      | true =>
        rw [spell_cons, List.takeWhile_append_of_pos hbytes, List.dropWhile_append_of_pos hbytes,
          List.takeWhile_cons_of_pos (hp c hwide), List.dropWhile_cons_of_pos (hp c hwide),
          spell_cons, ih.1]
        exact ⟨rfl, ih.2⟩
      | false =>
        have hpc : ¬p c = true := by rw [hp c hwide]; exact Bool.noConfusion
        obtain ⟨b, bs, hspelled⟩ := exists_cons_spellChar c
        have hpb : ¬p b = true := by
          rw [hbytes b (hspelled ▸ List.mem_cons_self)]
          exact Bool.noConfusion
        rw [List.takeWhile_cons_of_neg hpc, List.dropWhile_cons_of_neg hpc, spell_cons, hspelled,
          List.cons_append, List.takeWhile_cons_of_neg hpb, List.dropWhile_cons_of_neg hpb]
        exact ⟨rfl, rfl⟩

lemma bne_newline_of_lt (c : Char) (h : 127 < c.toNat) : (c != '\n') = true := by
  rw [bne_iff_ne]
  rintro rfl
  exact absurd h (by decide)

lemma Quoted.close?_append_of_not_mem {bs : List Char} (h : '"' ∉ bs) (cs : List Char) :
    close? (bs ++ cs) = (close? cs).map (Prod.map (bs ++ ·) id) := by
  induction bs with
  | nil => exact Option.map_id'.symm
  | cons b bs ih =>
    obtain ⟨hb, hbs⟩ := not_or.mp (mt List.mem_cons.mpr h)
    rw [List.cons_append, close?_cons (Ne.symm hb), ih hbs, Option.map_map]
    rfl

/-- A quoted text ends behind the same quote. -/
lemma close?_spell (cs : List Char) :
    Quoted.close? (spell cs) = (Quoted.close? cs).map (Prod.map spell spell) := by
  have hquote : '"'.toNat ≤ 127 := by decide
  fun_induction Quoted.close? cs with
  | case1 => rfl
  | case2 cs inside rest hclose ih =>
    rw [hclose] at ih
    rw [spell_cons_of_le hquote, spell_cons_of_le hquote, Quoted.close?, ih]
    change some ('"' :: '"' :: spell inside, spell rest) =
      some (spell ('"' :: '"' :: inside), spell rest)
    rw [spell_cons_of_le hquote, spell_cons_of_le hquote]
  | case3 cs hclose ih =>
    rw [hclose] at ih
    rw [spell_cons_of_le hquote, spell_cons_of_le hquote, Quoted.close?, ih]
    rfl
  | case4 cs hdouble =>
    have hhead : (spell cs).head? ≠ some '"' := by
      apply head?_spell_ne hquote
      cases cs with
      | nil => simp
      | cons c cs =>
        intro hc
        exact hdouble cs (by rw [Option.some.inj hc])
    have hclose := Quoted.close?_double hhead []
    rw [spell_cons_of_le hquote]
    exact hclose
  | case5 c cs hdouble hc ih =>
    have hbytes : '"' ∉ spellChar c := by
      by_cases hle : c.toNat ≤ 127
      · rw [spellChar_of_le hle, List.mem_singleton]
        exact Ne.symm hc
      · intro hmem
        have hlt := lt_of_mem_spellChar (Nat.lt_of_not_le hle) hmem
        omega
    rw [spell_cons, Quoted.close?_append_of_not_mem hbytes, ih, Option.map_map, Option.map_map]
    rfl

end Text

namespace Token

/-- The token with its text spelled byte by byte. -/
def spell (token : Token) : Token :=
  ⟨token.kind, String.ofList (Text.spell token.lexeme.toList)⟩

lemma isDigit_of_lt {c : Char} (h : 127 < c.toNat) : c.isDigit = false := by
  rw [Bool.eq_false_iff, ne_eq, Char.isDigit_iff_toNat]
  have hnine : '9'.toNat = 57 := rfl
  omega

lemma isWordChar_of_lt {c : Char} (h : 127 < c.toNat) : isWordChar c = false := by
  have hval : 127 < c.val.toNat := h
  have hdash : c ≠ '_' := by
    rintro rfl
    exact absurd h (by decide)
  rw [Bool.eq_false_iff]
  intro hword
  simp only [isWordChar, Char.isAlphanum, Char.isAlpha, Char.isUpper, Char.isLower, isDigit_of_lt h,
    Bool.or_eq_true, Bool.and_eq_true, beq_iff_eq, hdash, decide_eq_true_eq, or_false, ge_iff_le,
    UInt32.le_iff_toNat_le, Bool.false_eq_true] at hword
  have hupper : 'Z'.val.toNat = 90 := rfl
  have hlower : 'z'.val.toNat = 122 := rfl
  omega

lemma isWordStart_of_lt {c : Char} (h : 127 < c.toNat) : isWordStart c = false := by
  have hword := isWordChar_of_lt h
  rw [isWordChar, Char.isAlphanum, Bool.or_eq_false_iff, Bool.or_eq_false_iff] at hword
  rw [isWordStart, hword.1.1, hword.2]
  rfl

lemma spell_mk {cs : List Char} (h : ∀ c ∈ cs, c.toNat ≤ 127) (kind : Kind) :
    spell ⟨kind, String.ofList cs⟩ = ⟨kind, String.ofList cs⟩ := by
  rw [spell, String.toList_ofList, Text.spell_of_le h]

/-- A byte beyond ASCII starts nothing. -/
lemma step_of_lt {c : Char} (h : 127 < c.toNat) (cs : List Char) : step c cs = (none, cs) := by
  have hne {d : Char} (hd : d.toNat ≤ 127) : c ≠ d := by
    rintro rfl
    omega
  have hop : isOperatorChar c = false :=
    isOperatorChar_eq_false (p := fun d => decide (127 < d.toNat)) (decide_eq_true h) (by decide)
  have hpunctuation : punctuation? c = none := by
    unfold punctuation?
    split
    · exact absurd h (by decide)
    · exact absurd h (by decide)
    · exact absurd h (by decide)
    · exact absurd h (by decide)
    · exact absurd h (by decide)
    · rfl
  unfold step
  rw [if_neg (hne (by decide)), hop, if_neg Bool.noConfusion, if_neg (hne (by decide)),
    if_neg (hne (by decide)), isDigit_of_lt h, if_neg Bool.noConfusion,
    isWordStart_of_lt h, if_neg Bool.noConfusion, hpunctuation]
  rfl

lemma operatorStep_spell {c : Char} (hc : c.toNat ≤ 127) (cs : List Char) :
    operatorStep c (Text.spell cs) =
      ((operatorStep c cs).1.map spell, Text.spell (operatorStep c cs).2) := by
  by_cases hhead : cs.head? = some '='
  · obtain ⟨ds, rfl⟩ := List.head?_eq_some_iff.mp hhead
    have htoken : ∀ d ∈ [c, '='], d.toNat ≤ 127 := by simpa using hc
    rw [Text.spell_cons_of_le (by decide), operatorStep, operatorStep, Option.map_some,
      spell_mk htoken]
  · have htoken : ∀ d ∈ [c], d.toNat ≤ 127 := by simpa using hc
    rw [operatorStep_of_head? hhead,
      operatorStep_of_head? (Text.head?_spell_ne (by decide) hhead), Option.map_some,
      spell_mk htoken]

lemma dotStep_spell (cs : List Char) :
    dotStep (Text.spell cs) = ((dotStep cs).1.map spell, Text.spell (dotStep cs).2) := by
  have hdot (cs : List Char) : dotStep cs = step '.' cs := rfl
  by_cases hhead : cs.head? = some '.'
  · obtain ⟨ds, rfl⟩ := List.head?_eq_some_iff.mp hhead
    rw [Text.spell_cons_of_le (by decide)]
    rfl
  · rw [hdot, hdot, step_dot hhead, step_dot (Text.head?_spell_ne (by decide) hhead)]
    rfl

/-- A step on the bytes of a text goes as far as the step on the text. -/
theorem step_spell {c : Char} (hc : c.toNat ≤ 127) (cs : List Char) :
    step c (Text.spell cs) = ((step c cs).1.map spell, Text.spell (step c cs).2) := by
  have hrun {p : Char → Bool} (hp : ∀ d : Char, 127 < d.toNat → p d = false) :
      ∀ d ∈ c :: cs.takeWhile p, d.toNat ≤ 127 := by
    rw [List.forall_mem_cons]
    refine ⟨hc, fun d hd => Nat.le_of_not_lt fun hlt => ?_⟩
    have htrue := List.mem_takeWhile_imp hd
    rw [hp d hlt] at htrue
    cases htrue
  have hspan {p : Char → Bool} (hp : ∀ d : Char, 127 < d.toNat → p d = false) :
      (Text.spell cs).takeWhile p = cs.takeWhile p := by
    rw [(Text.span_spell hp cs).1, Text.spell_of_le (List.forall_mem_cons.mp (hrun hp)).2]
  unfold step
  split
  · rw [(Text.span_spell Text.bne_newline_of_lt cs).2]
    rfl
  split
  · exact operatorStep_spell hc cs
  split
  · exact dotStep_spell cs
  split
  · next hquote =>
    rw [Text.close?_spell]
    cases Text.Quoted.close? cs with
    | none => rfl
    | some parts =>
      have hopening : '"'.toNat ≤ 127 := by decide
      simp only [Option.map_some, Prod.map, spell, String.toList_ofList,
        Text.spell_cons_of_le hopening]
  split
  · rw [hspan fun _ => isDigit_of_lt, (Text.span_spell (fun _ => isDigit_of_lt) cs).2,
      Option.map_some, spell_mk (hrun fun _ => isDigit_of_lt)]
  split
  · rw [hspan fun _ => isWordChar_of_lt, (Text.span_spell (fun _ => isWordChar_of_lt) cs).2,
      Option.map_some, ofWord, spell_mk (hrun fun _ => isWordChar_of_lt)]
  · cases punctuation? c with
    | none => rfl
    | some kind =>
      have htoken : ∀ d ∈ [c], d.toNat ≤ 127 := by simpa using hc
      rw [Option.map_some, Option.map_some, spell_mk htoken]

end Token
end ScriptConsole
