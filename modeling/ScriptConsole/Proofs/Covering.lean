import ScriptConsole.Proofs.Spelling

/-!
# Scanning covers the source

A source text is cut into pieces: tokens, comments, quotes that open no string and characters that
start nothing. `Piece.Stands` says when a piece stands rightly in front of the rest of a text. A token
does if it is the longest that the text starts with, and the other pieces do if the text starts with
no token. `scan_covers_source` says that the tokens of a text are those of its pieces, and that bytes
are cut as the characters are.
-/

namespace ScriptConsole

namespace Text.Quoted

/-- If a text starts with a quoted form then the one that is split off is at least as long. -/
lemma close?_of_double (content more : List Char) :
    ∃ inside rest, close? (double content ++ '"' :: more) = some (inside, rest) ∧
      (inside = double content ++ ['"'] ∨ (double content).length + 1 < inside.length) := by
  induction content with
  | nil =>
    by_cases hmore : more.head? = some '"'
    · obtain ⟨ds, rfl⟩ := List.head?_eq_some_iff.mp hmore
      change ∃ inside rest, close? ('"' :: '"' :: ds) = some (inside, rest) ∧ _
      rw [close?]
      cases close? ds with
      | none => exact ⟨['"'], '"' :: ds, rfl, .inl rfl⟩
      | some parts =>
        refine ⟨'"' :: '"' :: parts.1, parts.2, rfl, .inr ?_⟩
        simp [double]
    · exact ⟨['"'], more, close?_double hmore [], .inl rfl⟩
  | cons c content ih =>
    obtain ⟨inside, rest, hclose, hlonger⟩ := ih
    rw [double_cons]
    by_cases hc : c = '"'
    · rw [if_pos hc]
      refine ⟨'"' :: '"' :: inside, rest, ?_, ?_⟩
      · change close? ('"' :: '"' :: (double content ++ '"' :: more)) = _
        rw [close?, hclose]
      · obtain rfl | hlonger := hlonger
        · exact .inl rfl
        · right
          simp only [List.length_append, List.length_cons, List.length_nil]
          omega
    · rw [if_neg hc]
      refine ⟨c :: inside, rest, ?_, ?_⟩
      · change close? (c :: (double content ++ '"' :: more)) = _
        rw [close?_cons hc, hclose]
        rfl
      · obtain rfl | hlonger := hlonger
        · exact .inl rfl
        · right
          simp only [List.length_append, List.length_cons, List.length_nil]
          omega

end Text.Quoted

namespace Token

/-- A step finds this token or a longer one. -/
def Finds (c : Char) (cs : List Char) (token : Token) : Prop :=
  ∃ found, (step c cs).1 = some found ∧
    (token = found ∨ token.lexeme.length < found.lexeme.length)

/-- A run of characters of one class goes on as long as the class does. -/
lemma finds_run {p : Char → Bool} {c : Char} (ofRun : List Char → Token)
    (hlexeme : ∀ run, (ofRun run).lexeme = String.ofList run)
    (hstep : ∀ run rest : List Char, (∀ d ∈ run, p d = true) → (∀ d ∈ rest.head?, p d = false) →
      step c (run ++ rest) = (some (ofRun (c :: run)), rest))
    {run : List Char} (hrun : ∀ d ∈ run, p d = true) (more : List Char) :
    Finds c (run ++ more) (ofRun (c :: run)) := by
  have hall : ∀ d ∈ run ++ more.takeWhile p, p d = true :=
    List.forall_mem_append.mpr ⟨hrun, fun d hd => List.mem_takeWhile_imp hd⟩
  have hstop : ∀ d ∈ (more.dropWhile p).head?, p d = false := by
    intro d hd
    have hnot := List.head?_dropWhile_not p more
    rw [Option.mem_def.mp hd] at hnot
    exact hnot
  have hfound := hstep _ _ hall hstop
  rw [List.append_assoc, List.takeWhile_append_dropWhile] at hfound
  refine ⟨_, congrArg Prod.fst hfound, ?_⟩
  cases more.takeWhile p with
  | nil => exact .inl (by rw [List.append_nil])
  | cons d ds =>
    right
    rw [hlexeme, hlexeme, String.length_ofList, String.length_ofList]
    simp only [List.length_cons, List.length_append]
    omega

/-- If a text starts with the text of a token then a step finds a token, and it finds the longest. -/
theorem Fits.finds {token : Token} (h : token.Fits) {c : Char} {cs : List Char}
    (hstarts : token.lexeme.toList <+: c :: cs) : Finds c cs token := by
  obtain ⟨more, hmore⟩ := hstarts
  cases h with
  | number hc hcs =>
    rw [String.toList_ofList] at hmore
    obtain ⟨rfl, rfl⟩ := List.cons.inj hmore
    exact finds_run (fun run => ⟨.number, String.ofList run⟩) (fun _ => rfl)
      (fun _ _ => step_number hc) hcs more
  | string content =>
    rw [String.toList_ofList] at hmore
    obtain ⟨rfl, rfl⟩ := List.cons.inj hmore
    obtain ⟨inside, rest, hclose, hlonger⟩ := Text.Quoted.close?_of_double content more
    have hcs : (Text.Quoted.double content).append ['"'] ++ more =
        Text.Quoted.double content ++ '"' :: more :=
      List.append_assoc _ ['"'] more
    have hstep : (step '"' ((Text.Quoted.double content).append ['"'] ++ more)).1 =
        some ⟨.string, String.ofList ('"' :: inside)⟩ := by
      have hop : isOperatorChar '"' = false := by decide
      rw [hcs]
      simp [step, hop, hclose]
    refine ⟨_, hstep, ?_⟩
    obtain rfl | hlonger := hlonger
    · exact .inl rfl
    · right
      simp only [String.length_ofList, Text.Quoted.enclose, List.length_append, List.length_cons,
        List.length_nil]
      omega
  | word hc hcs =>
    rw [ofWord, String.toList_ofList] at hmore
    obtain ⟨rfl, rfl⟩ := List.cons.inj hmore
    exact finds_run ofWord (fun _ => rfl) (fun _ _ => step_word hc) hcs more
  | operator hc =>
    rw [String.toList_ofList] at hmore
    obtain ⟨rfl, rfl⟩ := List.cons.inj hmore
    by_cases hhead : more.head? = some '='
    · obtain ⟨ds, rfl⟩ := List.head?_eq_some_iff.mp hhead
      refine ⟨_, congrArg Prod.fst (step_operator hc _), .inr ?_⟩
      rw [String.length_ofList, String.length_ofList]
      exact Nat.lt_succ_self 1
    · have hstep := (step_operator hc more).trans (operatorStep_of_head? hhead)
      exact ⟨_, congrArg Prod.fst hstep, .inl rfl⟩
  | operatorEquals hc =>
    rw [String.toList_ofList] at hmore
    obtain ⟨rfl, rfl⟩ := List.cons.inj hmore
    exact ⟨_, congrArg Prod.fst (step_operator hc _), .inl rfl⟩
  | dot =>
    obtain ⟨rfl, rfl⟩ := List.cons.inj hmore
    by_cases hhead : more.head? = some '.'
    · obtain ⟨ds, rfl⟩ := List.head?_eq_some_iff.mp hhead
      exact ⟨⟨.dotDot, ".."⟩, rfl, .inr (by decide)⟩
    · exact ⟨_, congrArg Prod.fst (step_dot hhead), .inl rfl⟩
  | dotDot =>
    obtain ⟨rfl, rfl⟩ := List.cons.inj hmore
    exact ⟨_, rfl, .inl rfl⟩
  | punctuation hc =>
    rw [String.toList_ofList] at hmore
    obtain ⟨rfl, rfl⟩ := List.cons.inj hmore
    exact ⟨_, congrArg Prod.fst (step_punctuation hc _), .inl rfl⟩

/-- What a step can do. It finds a token and goes on behind it, or it passes over a comment, a quote
that opens no string, or a character that starts nothing, whatever follows it. -/
theorem step_cases (c : Char) (cs : List Char) :
    (∃ token, (step c cs).1 = some token ∧ token.lexeme.toList ++ (step c cs).2 = c :: cs) ∨
    (c = '#' ∧ step c cs = (none, cs.dropWhile (· != '\n'))) ∨
    (c = '"' ∧ step c cs = (none, cs)) ∨
    (c ≠ '#' ∧ c ≠ '"' ∧ ∀ ds, step c ds = (none, ds)) := by
  by_cases hcomment : c = '#'
  · exact .inr (.inl ⟨hcomment, by rw [step, if_pos hcomment]⟩)
  by_cases hop : isOperatorChar c = true
  · left
    rw [step_operator hop]
    unfold operatorStep
    split
    · exact ⟨_, rfl, by rw [String.toList_ofList]; rfl⟩
    · exact ⟨_, rfl, by rw [String.toList_ofList]; rfl⟩
  by_cases hdot : c = '.'
  · left
    have hstep : step '.' cs = dotStep cs := rfl
    rw [hdot, hstep]
    unfold dotStep
    split
    · exact ⟨_, rfl, rfl⟩
    · exact ⟨_, rfl, rfl⟩
  by_cases hquote : c = '"'
  · cases hclose : Text.Quoted.close? cs with
    | none =>
      refine .inr (.inr (.inl ⟨hquote, ?_⟩))
      rw [step, if_neg hcomment, if_neg hop, if_neg hdot, if_pos hquote, hclose]
    | some parts =>
      left
      rw [step, if_neg hcomment, if_neg hop, if_neg hdot, if_pos hquote, hclose]
      refine ⟨_, rfl, ?_⟩
      rw [String.toList_ofList, hquote, List.cons_append, Text.Quoted.append_of_close? hclose]
  by_cases hdigit : c.isDigit = true
  · left
    rw [step, if_neg hcomment, if_neg hop, if_neg hdot, if_neg hquote, if_pos hdigit]
    refine ⟨_, rfl, ?_⟩
    rw [String.toList_ofList, List.cons_append, List.takeWhile_append_dropWhile]
  by_cases hword : isWordStart c = true
  · left
    rw [step, if_neg hcomment, if_neg hop, if_neg hdot, if_neg hquote, if_neg hdigit, if_pos hword]
    refine ⟨_, rfl, ?_⟩
    rw [ofWord, String.toList_ofList, List.cons_append, List.takeWhile_append_dropWhile]
  have hlast (ds : List Char) :
      step c ds = ((punctuation? c).map fun kind => ⟨kind, String.ofList [c]⟩, ds) := by
    rw [step, if_neg hcomment, if_neg hop, if_neg hdot, if_neg hquote, if_neg hdigit, if_neg hword]
  cases hkind : punctuation? c with
  | none =>
    refine .inr (.inr (.inr ⟨hcomment, hquote, fun ds => ?_⟩))
    rw [hlast, hkind]
    rfl
  | some kind =>
    left
    rw [hlast, hkind]
    exact ⟨_, rfl, by rw [String.toList_ofList]; rfl⟩

/-- A part of a source text that scanning takes at once. -/
inductive Piece
  | token (found : Token)
  /-- A comment: the sign, and what follows it in its line. -/
  | comment (body : List Char)
  /-- A quote that opens no string. -/
  | quote
  /-- A character that starts nothing. -/
  | stray (c : Char)

namespace Piece

def chars : Piece → List Char
  | .token found => found.lexeme.toList
  | .comment body => '#' :: body
  | .quote => ['"']
  | .stray c => [c]

def token? : Piece → Option Token
  | .token found => some found
  | .comment _ | .quote | .stray _ => none

/-- What a piece has to be like in front of the rest of a text. -/
def Stands (rest : List Char) : Piece → Prop
  | .token found => found.Fits ∧ ∀ other : Token, other.Fits →
      other.lexeme.toList <+: found.lexeme.toList ++ rest →
      other = found ∨ other.lexeme.length < found.lexeme.length
  | .comment body => '\n' ∉ body ∧ ∀ c ∈ rest.head?, c = '\n'
  | .quote => ∀ other : Token, other.Fits → ¬other.lexeme.toList <+: '"' :: rest
  | .stray c => c ≠ '#' ∧ c ≠ '"' ∧ ∀ other : Token, other.Fits → other.lexeme.toList.head? ≠ some c

/-- The piece that a text starts with. -/
def first (c : Char) (cs : List Char) : Piece :=
  match (step c cs).1 with
  | some found => .token found
  | none =>
    if c = '#' then .comment (cs.takeWhile (· != '\n')) else if c = '"' then .quote else .stray c

/-- The pieces of a text, in order. -/
def split : List Char → List Piece
  | [] => []
  | c :: cs =>
    have := length_step_le c cs
    first c cs :: split (step c cs).2
termination_by cs => cs.length
decreasing_by simp only [List.length_cons]; omega

/-- The first piece is what the step has found or passed over, and it is right in its place. -/
lemma first_spec (c : Char) (cs : List Char) :
    (first c cs).token? = (step c cs).1 ∧ (first c cs).chars ++ (step c cs).2 = c :: cs ∧
      (first c cs).Stands (step c cs).2 := by
  obtain ⟨found, hfound, htext⟩ | ⟨rfl, hstep⟩ | ⟨rfl, hstep⟩ | ⟨hcomment, hquote, hstep⟩ :=
    step_cases c cs
  · have hfirst : first c cs = .token found := by rw [first, hfound]
    rw [hfirst]
    refine ⟨hfound.symm, htext, fits_of_step hfound, fun other hother hstarts => ?_⟩
    rw [htext] at hstarts
    obtain ⟨longest, hlongest, hlonger⟩ := hother.finds hstarts
    obtain rfl : longest = found := Option.some.inj (hlongest.symm.trans hfound)
    exact hlonger
  · have hfirst : first '#' cs = .comment (cs.takeWhile (· != '\n')) := rfl
    rw [hfirst, hstep]
    refine ⟨rfl, ?_, ?_, ?_⟩
    · rw [chars, List.cons_append, List.takeWhile_append_dropWhile]
    · intro hbreak
      exact absurd (List.mem_takeWhile_imp hbreak) (by decide)
    · intro d hd
      have hnot := List.head?_dropWhile_not (· != '\n') cs
      rw [Option.mem_def.mp hd] at hnot
      exact bne_eq_false_iff_eq.mp hnot
  · have hfirst : first '"' cs = .quote := by
      rw [first, hstep]
      rfl
    rw [hfirst, hstep]
    refine ⟨rfl, rfl, fun other hother hstarts => ?_⟩
    obtain ⟨longest, hlongest, -⟩ := hother.finds hstarts
    rw [hstep] at hlongest
    cases hlongest
  · have hfirst : first c cs = .stray c := by
      rw [first, hstep]
      simp only [if_neg hcomment, if_neg hquote]
    rw [hfirst, hstep]
    refine ⟨rfl, rfl, hcomment, hquote, fun other hother hhead => ?_⟩
    obtain ⟨ds, hds⟩ := List.head?_eq_some_iff.mp hhead
    have hstarts : other.lexeme.toList <+: c :: ds := hds ▸ List.prefix_refl _
    obtain ⟨longest, hlongest, -⟩ := hother.finds hstarts
    rw [hstep] at hlongest
    cases hlongest

lemma flatMap_chars_split (cs : List Char) : (split cs).flatMap chars = cs := by
  fun_induction split cs with
  | case1 => rfl
  | case2 c cs _ ih =>
    rw [List.flatMap_cons, ih]
    exact (first_spec c cs).2.1

lemma filterMap_token?_split (cs : List Char) : (split cs).filterMap token? = scanChars cs := by
  fun_induction split cs with
  | case1 => rw [scanChars, List.filterMap_nil]
  | case2 c cs _ ih =>
    have htoken := (first_spec c cs).1
    cases hstep : (step c cs).1 with
    | none =>
      rw [List.filterMap_cons_none (htoken.trans hstep), ih]
      exact (scanChars_of_step_none (Prod.ext hstep rfl)).symm
    | some found =>
      rw [List.filterMap_cons_some (htoken.trans hstep), ih]
      exact (scanChars_of_step (Prod.ext hstep rfl)).symm

lemma stands_of_split {cs : List Char} {before behind : List Piece} {piece : Piece}
    (h : split cs = before ++ piece :: behind) : piece.Stands (behind.flatMap chars) := by
  fun_induction split cs generalizing before with
  | case1 => simp at h
  | case2 c cs _ ih =>
    cases before with
    | nil =>
      obtain ⟨rfl, rfl⟩ := List.cons.inj h
      rw [flatMap_chars_split]
      exact (first_spec c cs).2.2
    | cons _ before => exact ih (List.cons.inj h).2

/-- The pieces that the bytes of a piece make up. -/
def spell : Piece → List Piece
  | .token found => [.token found.spell]
  | .comment body => [.comment (Text.spell body)]
  | .quote => [.quote]
  | .stray c => (Text.spellChar c).map .stray

lemma flatMap_chars_spell (piece : Piece) : piece.spell.flatMap chars = Text.spell piece.chars := by
  cases piece with
  | token found =>
    rw [spell, List.flatMap_singleton, chars, Token.spell, String.toList_ofList, chars]
  | comment body =>
    rw [spell, List.flatMap_singleton, chars, chars, Text.spell_cons_of_le (by decide)]
  | quote => rfl
  | stray c =>
    rw [spell, List.flatMap_map]
    exact (List.flatMap_singleton' _).trans (List.append_nil _).symm

lemma split_cons (c : Char) (cs : List Char) :
    split (c :: cs) = first c cs :: split (step c cs).2 := by
  rw [split]

lemma first_of_lt {c : Char} (h : 127 < c.toNat) (cs : List Char) : first c cs = .stray c := by
  have hne {d : Char} (hd : d.toNat ≤ 127) : c ≠ d := by
    rintro rfl
    omega
  rw [first, step_of_lt h]
  simp only [if_neg (hne (show '#'.toNat ≤ 127 by decide)),
    if_neg (hne (show '"'.toNat ≤ 127 by decide))]

lemma split_append_of_lt {bs : List Char} (h : ∀ b ∈ bs, 127 < b.toNat) (cs : List Char) :
    split (bs ++ cs) = bs.map .stray ++ split cs := by
  induction bs with
  | nil => rfl
  | cons b bs ih =>
    obtain ⟨hb, hbs⟩ := List.forall_mem_cons.mp h
    rw [List.cons_append, split_cons, first_of_lt hb, step_of_lt hb, ih hbs]
    rfl

lemma first_spell {c : Char} (hc : c.toNat ≤ 127) (cs : List Char) :
    [first c (Text.spell cs)] = (first c cs).spell := by
  rw [first, first, step_spell hc]
  cases (step c cs).1 with
  | some found => rfl
  | none =>
    simp only [Option.map_none]
    by_cases hcomment : c = '#'
    · rw [if_pos hcomment, if_pos hcomment, (Text.span_spell Text.bne_newline_of_lt cs).1]
      rfl
    rw [if_neg hcomment, if_neg hcomment]
    by_cases hquote : c = '"'
    · rw [if_pos hquote]
      rfl
    · rw [if_neg hquote, spell, Text.spellChar_of_le hc]
      rfl

/-- Bytes are cut into pieces as the characters are that they spell. -/
theorem split_spell (cs : List Char) : split (Text.spell cs) = (split cs).flatMap spell := by
  fun_induction split cs with
  | case1 =>
    rw [List.flatMap_nil]
    exact split.eq_1
  | case2 c cs _ ih =>
    by_cases hc : c.toNat ≤ 127
    · rw [Text.spell_cons_of_le hc, split_cons, step_spell hc, ih, List.flatMap_cons,
        ← first_spell hc]
      rfl
    · -- every byte of the character is a piece of its own
      have hlt : 127 < c.toNat := Nat.lt_of_not_le hc
      rw [step_of_lt hlt] at ih
      rw [Text.spell_cons, split_append_of_lt fun _ => Text.lt_of_mem_spellChar hlt, ih,
        List.flatMap_cons, first_of_lt hlt, step_of_lt hlt]
      rfl

lemma eq_token_of_mem_spell {piece : Piece} {found : Token} (h : .token found ∈ piece.spell) :
    ∃ word, piece = .token word := by
  cases piece with
  | token word => exact ⟨word, rfl⟩
  | comment body => cases List.mem_singleton.mp h
  | quote => cases List.mem_singleton.mp h
  | stray c =>
    obtain ⟨b, -, hb⟩ := List.mem_map.mp h
    cases hb

/-- A token among the pieces of the bytes is spelled by a token among the pieces. -/
lemma exists_of_flatMap_spell {pieces before behind : List Piece} {found : Token}
    (h : pieces.flatMap spell = before ++ .token found :: behind) :
    ∃ first word last, pieces = first ++ .token word :: last ∧ before = first.flatMap spell ∧
      found = word.spell ∧ behind = last.flatMap spell := by
  induction pieces generalizing before with
  | nil => simp at h
  | cons piece pieces ih =>
    rw [List.flatMap_cons] at h
    -- the token stands behind what the first piece spells, right behind it, or in it
    obtain ⟨later, rfl, hlater⟩ | ⟨later, hpiece, hlater⟩ := List.append_eq_append_iff.mp h
    · obtain ⟨first, word, last, rfl, rfl, hrest⟩ := ih hlater
      exact ⟨piece :: first, word, last, rfl, rfl, hrest⟩
    cases later with
    | nil =>
      have hnext : pieces.flatMap spell = [] ++ .token found :: behind := hlater.symm
      obtain ⟨first, word, last, rfl, hfirst, hrest⟩ := ih hnext
      refine ⟨piece :: first, word, last, rfl, ?_, hrest⟩
      rw [List.flatMap_cons, ← hfirst, hpiece, List.append_nil, List.append_nil]
    | cons other later =>
      obtain ⟨rfl, rfl⟩ := List.cons.inj hlater
      have hmem : .token found ∈ piece.spell := by
        rw [hpiece]
        exact List.mem_append_right before List.mem_cons_self
      obtain ⟨word, rfl⟩ := eq_token_of_mem_spell hmem
      obtain ⟨rfl, hfound⟩ | ⟨b, -, hnil⟩ := List.cons_eq_append_iff.mp hpiece
      · obtain ⟨htoken, rfl⟩ := List.cons.inj hfound
        exact ⟨[], word, pieces, rfl, rfl, Piece.token.inj htoken, rfl⟩
      · exact absurd hnil.symm (List.append_ne_nil_of_right_ne_nil b (List.cons_ne_nil _ _))

lemma flatMap_chars_flatMap_spell (pieces : List Piece) :
    (pieces.flatMap spell).flatMap chars = Text.spell (pieces.flatMap chars) := by
  induction pieces with
  | nil => rfl
  | cons piece pieces ih =>
    rw [List.flatMap_cons, List.flatMap_append, flatMap_chars_spell, ih, List.flatMap_cons,
      Text.spell_append]

lemma filterMap_token?_flatMap_spell (pieces : List Piece) :
    (pieces.flatMap spell).filterMap token? = (pieces.filterMap token?).map Token.spell := by
  induction pieces with
  | nil => rfl
  | cons piece pieces ih =>
    rw [List.flatMap_cons, List.filterMap_append, ih]
    cases piece with
    | token found => rfl
    | comment body => rfl
    | quote => rfl
    | stray c =>
      have hnone : ((Text.spellChar c).map stray).filterMap token? = [] := by
        rw [List.filterMap_map, List.filterMap_eq_nil_iff]
        exact fun _ _ => rfl
      rw [spell, hnone]
      rfl

end Piece

/-- The pieces make up a text and hold its tokens, and each of them is right in its place. -/
structure Covers (pieces : List Piece) (text : List Char) (tokens : List Token) : Prop where
  chars : pieces.flatMap Piece.chars = text
  tokens : pieces.filterMap Piece.token? = tokens
  stands : ∀ before piece behind, pieces = before ++ piece :: behind →
    piece.Stands (behind.flatMap Piece.chars)

lemma covers_split (cs : List Char) : Covers (Piece.split cs) cs (scanChars cs) :=
  ⟨Piece.flatMap_chars_split cs, Piece.filterMap_token?_split cs,
    fun _ _ _ => Piece.stands_of_split⟩

lemma scanChars_spell (cs : List Char) : scanChars (Text.spell cs) = (scanChars cs).map spell := by
  rw [← Piece.filterMap_token?_split, Piece.split_spell, Piece.filterMap_token?_flatMap_spell,
    Piece.filterMap_token?_split]

/-- Scanning covers a source text: every token is the longest that stands there, and between tokens
are comments, quotes that open no string and characters that start nothing. The same holds of the
bytes of the text, and there every token begins and ends between two characters. -/
theorem scan_covers_source (source : String) :
    let bytes := Text.spell source.toList
    Covers (Piece.split source.toList) source.toList (scan source) ∧
    Covers (Piece.split bytes) bytes ((scan source).map spell) ∧
    ∀ before found behind, Piece.split bytes = before ++ .token found :: behind →
      ∃ first word last, source.toList = first ++ word ++ last ∧
        before.flatMap Piece.chars = Text.spell first ∧
        found.lexeme.toList = Text.spell word ∧
        behind.flatMap Piece.chars = Text.spell last := by
  intro bytes
  refine ⟨covers_split source.toList, ?_, fun before found behind hsplit => ?_⟩
  · rw [scan, ← scanChars_spell]
    exact covers_split bytes
  · rw [Piece.split_spell] at hsplit
    obtain ⟨first, word, last, hpieces, rfl, rfl, rfl⟩ := Piece.exists_of_flatMap_spell hsplit
    refine ⟨first.flatMap Piece.chars, word.lexeme.toList, last.flatMap Piece.chars, ?_,
      Piece.flatMap_chars_flatMap_spell first, ?_, Piece.flatMap_chars_flatMap_spell last⟩
    · have hchars := (covers_split source.toList).chars
      rw [hpieces, List.flatMap_append, List.flatMap_cons, ← List.append_assoc] at hchars
      exact hchars.symm
    · rw [spell, String.toList_ofList]

-- `Fits` speaks of characters and words by the classes that the scanner gives them: these.
example :
    let ascii := (List.range 128).map Char.ofNat
    ascii.filter isOperatorChar = ['!', '%', '*', '+', '-', '/', '='] ∧
    ascii.filterMap (fun c => (punctuation? c).map (c, ·)) =
      [('(', .leftParen), (')', .rightParen), (',', .comma), ('[', .leftBracket),
        (']', .rightBracket)] ∧
    ["do", "end", "false", "function", "true", "null", "End"].map (fun word =>
      (ofWord word.toList).kind) =
      [.keywordDo, .keywordEnd, .keywordFalse, .keywordFunction, .keywordTrue, .identifier,
        .identifier] := by
  decide

example : Piece.split "f(.5) += \"a?".toList =
    [.token ⟨.identifier, "f"⟩, .token ⟨.leftParen, "("⟩, .token ⟨.dot, "."⟩, .token ⟨.number, "5"⟩,
      .token ⟨.rightParen, ")"⟩, .stray ' ', .token ⟨.operator, "+="⟩, .stray ' ', .quote,
      .token ⟨.identifier, "a"⟩, .stray '?'] := by
  cbv

end Token

end ScriptConsole
