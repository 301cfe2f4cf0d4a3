import Mathlib.Data.List.Forall2
import ScriptConsole.Json.Text

/-!
# Strings in JSON

The ways to write a string in a document, apart from the functions that read it: `StringForm` for a
string that is kept, with every escape that stands for a character, and `StringText` for a string that
is passed over, where any four digits may stand in an escape. What is written so is read, whatever
follows it (`StringForm.exists_gives`, `StringText.exists_gives`).
-/

namespace ScriptConsole.Json

namespace Reading

variable {α β : Type} {size larger : Nat} {value : α} {rest : List Char}

/-- The reading is a success with this value in front of these characters. -/
def Gives (reading : Reading α size) (value : α) (rest : List Char) : Prop :=
  ∃ shorter, reading = .ok ⟨value, rest, shorter⟩

lemma gives_done (value : α) (rest : List Char) : (done value rest).Gives value rest :=
  ⟨_, rfl⟩

lemma Gives.widen {reading : Reading α size} (h : reading.Gives value rest) (hle : size ≤ larger) :
    (reading.widen hle).Gives value rest := by
  obtain ⟨shorter, rfl⟩ := h
  exact ⟨_, rfl⟩

lemma Gives.behind {reading : Reading α size} (h : reading.Gives value rest) :
    reading.behind.Gives value rest :=
  h.widen _

lemma Gives.apply {reading : Reading α size} (h : reading.Gives value rest) (f : α → β) :
    (reading.apply f).Gives (f value) rest := by
  obtain ⟨shorter, rfl⟩ := h
  exact ⟨shorter, rfl⟩

lemma Gives.andThen {reading : Reading β size} {first : β} {middle : List Char}
    {next : β → (rest : List Char) → rest.length < size → Reading α size}
    (h : reading.Gives first middle)
    (hnext : ∀ shorter, (next first middle shorter).Gives value rest) :
    (reading.andThen next).Gives value rest := by
  obtain ⟨shorter, rfl⟩ := h
  exact hnext shorter

end Reading

open Reading (gives_done)

/-! ### Blanks -/

/-- White space between the parts of a document. -/
def Blanks (cs : List Char) : Prop :=
  ∀ c ∈ cs, c ∈ [' ', '\n', '\t', '\r']

instance (cs : List Char) : Decidable (Blanks cs) :=
  decidable_of_iff (cs.all isBlank = true) (by simp [Blanks, isBlank])

/-- A value may end here: a blank comes next, or what follows a value in a list or an object. -/
def Stops (rest : List Char) : Prop :=
  ∀ c ∈ rest.head?, c ∈ [' ', '\n', '\t', '\r', ',', ']', '\x7d']

section

variable {blanks : List Char} {c : Char}

lemma gives_next (h : Blanks blanks) (hc : isBlank c = false) (rest : List Char) :
    (next (blanks ++ c :: rest)).Gives c rest := by
  induction blanks with
  | nil =>
    rw [List.nil_append, next, hc]
    exact gives_done c rest
  | cons b blanks ih =>
    obtain ⟨hb, hblanks⟩ := List.forall_mem_cons.mp h
    have hblank : isBlank b = true := decide_eq_true hb
    rw [List.cons_append, next, if_pos hblank]
    exact (ih hblanks).behind

lemma next_blanks (h : Blanks blanks) : next blanks = .error .truncated := by
  induction blanks with
  | nil => rfl
  | cons b blanks ih =>
    obtain ⟨hb, hblanks⟩ := List.forall_mem_cons.mp h
    have hblank : isBlank b = true := decide_eq_true hb
    rw [next, if_pos hblank, ih hblanks]
    rfl

lemma gives_colon (h : Blanks blanks) (rest : List Char) :
    (colon (blanks ++ ':' :: rest)).Gives () rest :=
  (gives_next h (by decide) rest).andThen fun _ => ⟨_, rfl⟩

lemma Blanks.stops (h : Blanks blanks) (hc : c ∈ [',', ']', '\x7d']) (rest : List Char) :
    Stops (blanks ++ c :: rest) := by
  cases blanks with
  | nil =>
    intro d hd
    cases hd
    exact List.mem_append_right [' ', '\n', '\t', '\r'] hc
  | cons b blanks =>
    intro d hd
    cases hd
    exact List.mem_append_left [',', ']', '\x7d'] (h b List.mem_cons_self)

end

/-! ### Strings -/

/-- A hexadecimal digit of either case and its value. -/
def IsHexDigit (c : Char) (n : Nat) : Prop :=
  n < 16 ∧ (c = Nat.digitChar n ∨ c = (Nat.digitChar n).toUpper)
deriving Decidable

/-- Four hexadecimal digits and their value. -/
def IsHexCode (digits : List Char) (n : Nat) : Prop :=
  digits.length = 4 ∧ ∃ values, List.Forall₂ IsHexDigit digits values ∧
    n = values.foldl (fun n d => n * 16 + d) 0

/-- The letters behind a backslash and the characters that they stand for. -/
def shortEscapes : List (Char × Char) :=
  [('"', '"'), ('\\', '\\'), ('/', '/'), ('b', '\x08'), ('f', '\x0c'), ('n', '\n'), ('r', '\r'),
    ('t', '\t')]

/-- The characters that may be written as they are. -/
def IsPlain (c : Char) : Prop :=
  0x20 ≤ c.toNat ∧ c ≠ '"' ∧ c ≠ '\\'
deriving Decidable

/-- The ways to write a character in a string: as it is, by a letter behind a backslash, or by its
code, which is a pair of surrogates for a character outside of the basic plane. -/
inductive CharForm : Char → List Char → Prop
  | plain {c : Char} (h : IsPlain c) : CharForm c [c]
  | short {letter c : Char} (h : (letter, c) ∈ shortEscapes) : CharForm c ['\\', letter]
  | code {c : Char} {digits : List Char} (h : IsHexCode digits c.toNat) :
      CharForm c ('\\' :: 'u' :: digits)
  | pair {c : Char} {high low : List Char} {h l : Nat} (hh : h < 0x400) (hl : l < 0x400)
      (hc : c.toNat = 0x10000 + h * 0x400 + l) (hhigh : IsHexCode high (0xD800 + h))
      (hlow : IsHexCode low (0xDC00 + l)) :
      CharForm c ('\\' :: 'u' :: high ++ '\\' :: 'u' :: low)

/-- The ways to write a string. -/
def StringForm (s : String) (text : List Char) : Prop :=
  ∃ forms, List.Forall₂ CharForm s.toList forms ∧ text = '"' :: forms.flatten ++ ['"']

/-- A part of a string that stands for a character or for half of one. -/
inductive CharText : List Char → Prop
  | plain {c : Char} (h : IsPlain c) : CharText [c]
  | short {letter c : Char} (h : (letter, c) ∈ shortEscapes) : CharText ['\\', letter]
  | code {digits : List Char} {n : Nat} (h : IsHexCode digits n) : CharText ('\\' :: 'u' :: digits)

/-- The strings of JSON. -/
def StringText (text : List Char) : Prop :=
  ∃ forms : List (List Char), (∀ form ∈ forms, CharText form) ∧ text = '"' :: forms.flatten ++ ['"']

section

variable {c letter : Char} {digits form : List Char} {n : Nat}
  {code : (cs : List Char) → Reading Char cs.length} {cs tail middle rest : List Char}

lemma IsHexDigit.hexDigit?_eq (h : IsHexDigit c n) : hexDigit? c = some n := by
  have hall : ∀ m : Fin 16, hexDigit? (Nat.digitChar m) = some m.val ∧
      hexDigit? (Nat.digitChar m).toUpper = some m.val := by decide
  obtain ⟨hn, rfl | rfl⟩ := h
  · exact (hall ⟨n, hn⟩).1
  · exact (hall ⟨n, hn⟩).2

lemma hexValue?_eq {values : List Nat} (h : List.Forall₂ IsHexDigit digits values) :
    hexValue? digits = some (values.foldl (fun n d => n * 16 + d) 0) := by
  have hfrom (init : Nat) :
      digits.foldlM (fun n c => (hexDigit? c).map fun d => n * 16 + d) init =
        some (values.foldl (fun n d => n * 16 + d) init) := by
    induction h generalizing init with
    | nil => rfl
    | cons hdigit _ ih =>
      rw [List.foldlM_cons, hdigit.hexDigit?_eq, List.foldl_cons]
      exact ih _
  exact hfrom 0

lemma gives_hexCode (h : IsHexCode digits n) (rest : List Char) :
    (hexCode (digits ++ rest)).Gives n rest := by
  obtain ⟨hlength, values, hvalues, rfl⟩ := h
  match digits, hlength with
  | [p, q, r, s], _ =>
    refine ⟨Nat.lt_add_of_pos_right (Nat.succ_pos 3), ?_⟩
    simp only [List.cons_append, List.nil_append, hexCode, hexValue?_eq hvalues]

lemma gives_escape_short (h : (letter, c) ∈ shortEscapes) (rest : List Char) :
    (escape code (letter :: rest)).Gives c rest := by
  simp only [shortEscapes, List.mem_cons, Prod.mk.injEq, List.not_mem_nil, or_false] at h
  rcases h with ⟨rfl, rfl⟩ | ⟨rfl, rfl⟩ | ⟨rfl, rfl⟩ | ⟨rfl, rfl⟩ | ⟨rfl, rfl⟩ | ⟨rfl, rfl⟩ |
    ⟨rfl, rfl⟩ | ⟨rfl, rfl⟩
  all_goals exact gives_done _ rest

lemma gives_escape_code (h : (code tail).Gives c rest) : (escape code ('u' :: tail)).Gives c rest :=
  h.behind

lemma gives_charsWith_plain (h : IsPlain c) (hrest : (charsWith code tail).Gives cs rest) :
    (charsWith code (c :: tail)).Gives (c :: cs) rest := by
  obtain ⟨hcontrol, hquote, hbackslash⟩ := h
  rw [charsWith, if_neg hquote, if_neg hbackslash, if_neg (Nat.not_lt_of_le hcontrol)]
  exact (hrest.apply (c :: ·)).behind

lemma gives_charsWith_escape (h : (escape code tail).Gives c middle)
    (hrest : (charsWith code middle).Gives cs rest) :
    (charsWith code ('\\' :: tail)).Gives (c :: cs) rest := by
  rw [charsWith, if_neg (by decide), if_pos rfl]
  exact (h.andThen fun _ => (hrest.apply (c :: ·)).widen _).behind

lemma not_surrogate (c : Char) : isTrailing c.toNat = false ∧ isLeading c.toNat = false := by
  -- the codes of surrogates are left out of the characters
  have hvalid : c.toNat < 0xD800 ∨ 0xDFFF < c.toNat ∧ c.toNat < 0x110000 := c.valid
  simp only [isTrailing, isLeading, Bool.and_eq_false_iff, decide_eq_false_iff_not]
  omega

lemma gives_code (h : IsHexCode digits c.toNat) (rest : List Char) :
    (Json.code (digits ++ rest)).Gives c rest := by
  refine (gives_hexCode h rest).andThen fun shorter => ⟨shorter, ?_⟩
  rw [(not_surrogate c).1, (not_surrogate c).2, Char.ofNat_toNat]
  rfl

lemma gives_code_pair {high low : List Char} {h l : Nat} (hh : h < 0x400) (hl : l < 0x400)
    (hc : c.toNat = 0x10000 + h * 0x400 + l) (hhigh : IsHexCode high (0xD800 + h))
    (hlow : IsHexCode low (0xDC00 + l)) (rest : List Char) :
    (Json.code (high ++ '\\' :: 'u' :: (low ++ rest))).Gives c rest := by
  have hnotTrailing : isTrailing (0xD800 + h) = false := by
    simp only [isTrailing, Bool.and_eq_false_iff, decide_eq_false_iff_not]
    omega
  have hleading : isLeading (0xD800 + h) = true := by
    simp only [isLeading, Bool.and_eq_true, decide_eq_true_eq]
    omega
  have htrailing : isTrailing (0xDC00 + l) = true := by
    simp only [isTrailing, Bool.and_eq_true, decide_eq_true_eq]
    omega
  have hchar : ofSurrogates (0xD800 + h) (0xDC00 + l) = c := by
    rw [ofSurrogates, Nat.add_sub_cancel_left, Nat.add_sub_cancel_left, Nat.add_comm _ 0x10000,
      ← Nat.add_assoc, ← hc, Char.ofNat_toNat]
  refine (gives_hexCode hhigh _).andThen fun shorter => ?_
  rw [hnotTrailing, hleading, if_neg Bool.false_ne_true, if_pos rfl]
  have hsecond : (trailing (0xD800 + h) ('\\' :: 'u' :: (low ++ rest))).Gives c rest := by
    refine ((gives_hexCode hlow rest).andThen fun shorter => ⟨shorter, ?_⟩).behind.behind
    rw [htrailing, hchar]
    rfl
  exact hsecond.widen (Nat.le_of_lt shorter)

lemma CharForm.gives (h : CharForm c form) (hrest : (charsWith Json.code tail).Gives cs rest) :
    (charsWith Json.code (form ++ tail)).Gives (c :: cs) rest := by
  cases h with
  | plain h => exact gives_charsWith_plain h hrest
  | short h => exact gives_charsWith_escape (gives_escape_short h tail) hrest
  | code h => exact gives_charsWith_escape (gives_escape_code (gives_code h tail)) hrest
  | pair hh hl hc hhigh hlow =>
    rw [List.append_assoc]
    exact gives_charsWith_escape
      (gives_escape_code (gives_code_pair hh hl hc hhigh hlow tail)) hrest

lemma CharText.exists_gives (h : CharText form) (hrest : (charsWith anyCode tail).Gives cs rest) :
    ∃ c, (charsWith anyCode (form ++ tail)).Gives (c :: cs) rest := by
  cases h with
  | plain h => exact ⟨_, gives_charsWith_plain h hrest⟩
  | short h => exact ⟨_, gives_charsWith_escape (gives_escape_short h tail) hrest⟩
  | code h =>
    -- half of a pair is taken for some character, which is thrown away
    have hcode := (gives_hexCode h tail).apply Char.ofNat
    exact ⟨_, gives_charsWith_escape (gives_escape_code hcode) hrest⟩

lemma gives_charsWith_end (rest : List Char) : (charsWith code ('"' :: rest)).Gives [] rest := by
  rw [charsWith, if_pos rfl]
  exact gives_done [] rest

end

lemma gives_charsWith_forms {cs : List Char} {forms : List (List Char)}
    (h : List.Forall₂ CharForm cs forms) (rest : List Char) :
    (charsWith code (forms.flatten ++ '"' :: rest)).Gives cs rest := by
  induction h with
  | nil => exact gives_charsWith_end rest
  | cons hform _ ih =>
    rw [List.flatten_cons, List.append_assoc]
    exact hform.gives ih

lemma stringForm_of_plain {s : String} (h : (s.toList.all fun c => IsPlain c) = true) :
    StringForm s ('"' :: s.toList ++ ['"']) := by
  have hplain : ∀ c ∈ s.toList, IsPlain c := fun c hc =>
    of_decide_eq_true (List.all_eq_true.mp h c hc)
  refine ⟨s.toList.map fun c => [c], ?_, ?_⟩
  · rw [List.forall₂_map_right_iff, List.forall₂_same]
    exact fun c hc => .plain (hplain c hc)
  · rw [← List.flatMap_def, List.flatMap_singleton']

/-- A string is read in any of its forms. -/
theorem StringForm.exists_gives {s : String} {written : List Char} (h : StringForm s written) :
    ∃ body, written = '"' :: body ∧ ∀ rest, (text (body ++ rest)).Gives s rest := by
  obtain ⟨forms, hforms, rfl⟩ := h
  refine ⟨forms.flatten ++ ['"'], rfl, fun rest => ?_⟩
  have htext := (gives_charsWith_forms hforms rest).apply String.ofList
  rw [String.ofList_toList] at htext
  rwa [List.append_assoc]

/-- Any string is passed over. -/
theorem StringText.exists_gives {written : List Char} (h : StringText written) :
    ∃ body, written = '"' :: body ∧ ∀ rest, (skipText (body ++ rest)).Gives () rest := by
  obtain ⟨forms, hforms, rfl⟩ := h
  refine ⟨forms.flatten ++ ['"'], rfl, fun rest => ?_⟩
  have hchars : ∃ cs, (charsWith anyCode (forms.flatten ++ '"' :: rest)).Gives cs rest := by
    induction forms with
    | nil => exact ⟨[], gives_charsWith_end rest⟩
    | cons form forms ih =>
      obtain ⟨hform, hforms⟩ := List.forall_mem_cons.mp hforms
      obtain ⟨cs, hcs⟩ := ih hforms
      obtain ⟨c, hc⟩ := hform.exists_gives hcs
      rw [List.flatten_cons, List.append_assoc]
      exact ⟨c :: cs, hc⟩
  obtain ⟨cs, hcs⟩ := hchars
  rw [List.append_assoc]
  exact hcs.apply _

end ScriptConsole.Json
