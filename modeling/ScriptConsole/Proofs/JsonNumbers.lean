import ScriptConsole.Json.Number
import ScriptConsole.Proofs.JsonTexts
import ScriptConsole.Proofs.Lexemes

/-!
# Numbers in JSON

`NumberText` is the grammar of numbers. Every number is passed over up to the place where a value may
end (`NumberText.exists_gives`). A natural number that is written without a sign, a point and an
exponent and stays below `Numeral.significandBound` is also found to be within the doubles, with its
digits as they are (`gives_finiteFrom_toDigits`).
-/

namespace ScriptConsole.Json

open Reading (gives_done)

/-- A run of digits that is not empty. -/
structure IsRun (cs : List Char) : Prop where
  ne_nil : cs ≠ []
  isDigit : ∀ c ∈ cs, c.isDigit = true

/-- The whole part of a number, which starts with a zero only if this is all of it. -/
structure IsWhole (cs : List Char) : Prop where
  run : IsRun cs
  zero : cs.head? = some '0' → cs = ['0']

/-- The fraction of a number, if it has one. -/
inductive FractionText : List Char → Prop
  | none : FractionText []
  | some {run : List Char} (h : IsRun run) : FractionText ('.' :: run)

/-- The exponent of a number, if it has one. -/
inductive ExponentText : List Char → Prop
  | none : ExponentText []
  | some {mark : Char} {sign run : List Char} (hmark : mark = 'e' ∨ mark = 'E')
      (hsign : sign ∈ [[], ['+'], ['-']]) (h : IsRun run) : ExponentText (mark :: (sign ++ run))

/-- The numbers of JSON. -/
def NumberText (text : List Char) : Prop :=
  ∃ sign whole fraction exponent, (sign = [] ∨ sign = ['-']) ∧ IsWhole whole ∧
    FractionText fraction ∧ ExponentText exponent ∧
      text = sign ++ (whole ++ (fraction ++ exponent))

variable {cs rest : List Char}

/-! ### Where a number starts and where a part of it ends -/

lemma ne_of_numeric {c d : Char} (hc : c = '-' ∨ c.isDigit = true)
    (hd : d ≠ '-' ∧ d.isDigit = false) : c ≠ d := by
  rintro rfl
  exact hc.elim hd.1 (by rw [hd.2]; exact Bool.false_ne_true)

lemma isBlank_of_numeric {c : Char} (hc : c = '-' ∨ c.isDigit = true) : isBlank c = false := by
  simp [isBlank, ne_of_numeric hc]

lemma Stops.not_numeric (h : Stops rest) :
    ∀ d ∈ rest.head?, d.isDigit = false ∧ d ≠ '.' ∧ d ≠ 'e' ∧ d ≠ 'E' := by
  have hall : ∀ d ∈ [' ', '\n', '\t', '\r', ',', ']', '\x7d'],
      d.isDigit = false ∧ d ≠ '.' ∧ d ≠ 'e' ∧ d ≠ 'E' := by simp
  exact fun d hd => hall d (h d hd)

lemma ExponentText.head (h : ExponentText cs) (hrest : Stops rest) :
    ∀ d ∈ (cs ++ rest).head?, d.isDigit = false ∧ d ≠ '.' := by
  intro d hd
  cases h with
  | none => exact ⟨(hrest.not_numeric d hd).1, (hrest.not_numeric d hd).2.1⟩
  | some hmark =>
    cases hd
    rcases hmark with rfl | rfl <;> decide

lemma FractionText.head {exponent : List Char} (h : FractionText cs)
    (hexponent : ExponentText exponent) (hrest : Stops rest) :
    ∀ d ∈ (cs ++ (exponent ++ rest)).head?, d.isDigit = false := by
  intro d hd
  cases h with
  | none => exact (hexponent.head hrest d hd).1
  | some =>
    cases hd
    decide

/-! ### The parts of a number -/

lemma gives_digits (h : IsRun cs) (hrest : ∀ d ∈ rest.head?, d.isDigit = false) :
    (digits (cs ++ rest)).Gives cs rest := by
  obtain ⟨hne, hdigits⟩ := h
  cases cs with
  | nil => exact absurd rfl hne
  | cons c cs =>
    obtain ⟨hc, hcs⟩ := List.forall_mem_cons.mp hdigits
    obtain ⟨htake, hdrop⟩ := Token.takeWhile_dropWhile_append hcs hrest
    have hshorter : rest.length < (c :: cs ++ rest).length := by
      rw [List.cons_append, List.length_cons, List.length_append]
      omega
    refine ⟨hshorter, ?_⟩
    simp only [List.cons_append, digits, hc, if_true, htake, hdrop]

lemma gives_wholePart (h : IsWhole cs) (hrest : ∀ d ∈ rest.head?, d.isDigit = false) :
    (wholePart (cs ++ rest)).Gives cs rest := by
  refine (gives_digits h.run hrest).andThen fun shorter => ?_
  split
  · next => cases h.zero rfl
  · exact ⟨shorter, rfl⟩

lemma IsRun.head (h : IsRun cs) (rest : List Char) :
    ∀ d ∈ (cs ++ rest).head?, d.isDigit = true := by
  obtain ⟨hne, hdigits⟩ := h
  obtain ⟨c, cs, rfl⟩ := List.exists_cons_of_ne_nil hne
  intro d hd
  cases hd
  exact hdigits c List.mem_cons_self

lemma exponentPart_eq (h : ∀ d ∈ cs.head?, d.isDigit = true) :
    exponentPart cs = (digits cs).apply fun run => (false, run) := by
  unfold exponentPart
  split
  · exact absurd (h '-' rfl) (by decide)
  · exact absurd (h '+' rfl) (by decide)
  · rfl

lemma gives_exponentPart {sign : List Char} (hsign : sign ∈ [[], ['+'], ['-']]) (h : IsRun cs)
    (hrest : ∀ d ∈ rest.head?, d.isDigit = false) :
    ∃ exponent, (exponentPart (sign ++ (cs ++ rest))).Gives exponent rest := by
  have hdigits := gives_digits h hrest
  simp only [List.mem_cons, List.not_mem_nil, or_false] at hsign
  rcases hsign with rfl | rfl | rfl
  · rw [List.nil_append, exponentPart_eq (h.head rest)]
    exact ⟨_, hdigits.apply _⟩
  · exact ⟨_, (hdigits.apply _).behind⟩
  · exact ⟨_, (hdigits.apply _).behind⟩

lemma gives_withExponent_stops (numeral : Numeral) (hrest : Stops rest) :
    (withExponent numeral rest).Gives numeral rest := by
  cases rest with
  | nil => exact gives_done numeral []
  | cons d rest =>
    obtain ⟨-, -, he, hE⟩ := hrest.not_numeric d rfl
    rw [withExponent, if_neg (not_or.mpr ⟨he, hE⟩)]
    exact gives_done numeral (d :: rest)

lemma gives_withExponent (numeral : Numeral) (h : ExponentText cs) (hrest : Stops rest) :
    ∃ numeral', (withExponent numeral (cs ++ rest)).Gives numeral' rest := by
  cases h with
  | none => exact ⟨numeral, gives_withExponent_stops _ hrest⟩
  | some hmark hsign hrun =>
    obtain ⟨exponent, hexponent⟩ :=
      gives_exponentPart hsign hrun fun d hd => (hrest.not_numeric d hd).1
    rw [List.cons_append, List.append_assoc, withExponent, if_pos hmark]
    exact ⟨_, (hexponent.apply _).behind.behind⟩

lemma withFraction_eq (numeral : Numeral) (h : ∀ d ∈ cs.head?, d ≠ '.') :
    withFraction numeral cs = withExponent numeral cs := by
  unfold withFraction
  split
  · exact absurd rfl (h '.' rfl)
  · rfl

lemma gives_withFraction (numeral : Numeral) {exponent : List Char} (h : FractionText cs)
    (hexponent : ExponentText exponent) (hrest : Stops rest) :
    ∃ numeral', (withFraction numeral (cs ++ (exponent ++ rest))).Gives numeral' rest := by
  cases h with
  | none =>
    rw [List.nil_append, withFraction_eq _ fun d hd => (hexponent.head hrest d hd).2]
    exact gives_withExponent numeral hexponent hrest
  | @some run hrun =>
    have hdigits := gives_digits hrun fun d hd => (hexponent.head hrest d hd).1
    obtain ⟨numeral', hgives⟩ :=
      gives_withExponent { numeral with fraction := run } hexponent hrest
    exact ⟨numeral', (hdigits.andThen fun _ => hgives.widen _).behind.behind⟩

lemma gives_unsigned (negative : Bool) {whole fraction exponent : List Char} (hwhole : IsWhole whole)
    (hfraction : FractionText fraction) (hexponent : ExponentText exponent) (hrest : Stops rest) :
    ∃ numeral, (unsigned negative (whole ++ (fraction ++ (exponent ++ rest)))).Gives numeral rest := by
  have hwholePart := gives_wholePart hwhole (hfraction.head hexponent hrest)
  obtain ⟨numeral, hgives⟩ :=
    gives_withFraction { negative, whole } hfraction hexponent hrest
  exact ⟨numeral, hwholePart.andThen fun _ => hgives.widen _⟩

lemma gives_skipNumberFrom {c : Char} {numeral : Numeral} (h : (numeralFrom c cs).Gives numeral rest) :
    (skipNumberFrom c cs).Gives () rest := by
  obtain ⟨shorter, hok⟩ := h
  exact ⟨shorter, by rw [skipNumberFrom, hok]⟩

theorem NumberText.exists_gives (h : NumberText cs) :
    ∃ c tail, cs = c :: tail ∧ (c = '-' ∨ c.isDigit = true) ∧
      ∀ rest, Stops rest → (skipNumberFrom c (tail ++ rest)).Gives () rest := by
  obtain ⟨sign, whole, fraction, exponent, hsign, hwhole, hfraction, hexponent, rfl⟩ := h
  rcases hsign with rfl | rfl
  · obtain ⟨c, tail, rfl⟩ := List.exists_cons_of_ne_nil hwhole.run.ne_nil
    have hc : c.isDigit = true := hwhole.run.isDigit c List.mem_cons_self
    have hsign : c ≠ '-' := by
      rintro rfl
      exact absurd hc (by decide)
    refine ⟨c, tail ++ (fraction ++ exponent), rfl, .inr hc, fun rest hrest => ?_⟩
    obtain ⟨numeral, hgives⟩ := gives_unsigned false hwhole hfraction hexponent hrest
    apply gives_skipNumberFrom
    rw [numeralFrom, if_neg hsign, List.append_assoc, List.append_assoc]
    exact hgives
  · refine ⟨'-', whole ++ (fraction ++ exponent), rfl, .inl rfl, fun rest hrest => ?_⟩
    obtain ⟨numeral, hgives⟩ := gives_unsigned true hwhole hfraction hexponent hrest
    apply gives_skipNumberFrom
    rw [numeralFrom, if_pos rfl, List.append_assoc, List.append_assoc]
    exact hgives.behind

/-! ### Natural numbers -/

section

variable {n : Nat}

lemma isRun_toDigits (n : Nat) : IsRun (Nat.toDigits 10 n) :=
  ⟨Nat.toDigits_ne_nil, fun _ => Nat.isDigit_of_mem_toDigits (by decide) (by decide)⟩

lemma exists_toDigits (n : Nat) :
    ∃ c cs, Nat.toDigits 10 n = c :: cs ∧ c.isDigit = true := by
  obtain ⟨c, cs, hcons⟩ := List.exists_cons_of_ne_nil (isRun_toDigits n).ne_nil
  exact ⟨c, cs, hcons, (isRun_toDigits n).isDigit c (by rw [hcons]; exact List.mem_cons_self)⟩

lemma eq_zero_of_head?_toDigits (h : (Nat.toDigits 10 n).head? = some '0') : n = 0 := by
  induction n using Nat.strongRecOn with
  | ind n ih =>
    by_cases hn : n < 10
    · rw [Nat.toDigits_of_lt_base hn] at h
      have hall : ∀ d : Fin 10, [Nat.digitChar d].head? = some '0' → d.val = 0 := by decide
      exact hall ⟨n, hn⟩ h
    · have hle := Nat.le_of_not_lt hn
      rw [Nat.toDigits_of_base_le (by decide) hle,
        List.head?_append_of_ne_nil _ Nat.toDigits_ne_nil] at h
      have hquotient := ih (n / 10) (Nat.div_lt_self (by omega) (by decide)) h
      omega

lemma isWhole_toDigits (n : Nat) : IsWhole (Nat.toDigits 10 n) where
  run := isRun_toDigits n
  zero h := by rw [eq_zero_of_head?_toDigits h]; rfl

namespace Numeral

lemma le_ofDigitChars (cs : List Char) (init : Nat) : init ≤ Nat.ofDigitChars 10 cs init := by
  induction cs generalizing init with
  | nil => exact Nat.le_refl init
  | cons c cs ih =>
    rw [Nat.ofDigitChars_cons]
    exact Nat.le_trans (by omega) (ih _)

lemma absorb_eq {init : Nat} (h : Nat.ofDigitChars 10 cs init < significandBound) :
    absorb init cs = (Nat.ofDigitChars 10 cs init, 0) := by
  induction cs generalizing init with
  | nil => rfl
  | cons c cs ih =>
    have hextended : 10 * init + (c.toNat - '0'.toNat) = init * 10 + digitValue c := by
      rw [digitValue, Nat.mul_comm]
    rw [Nat.ofDigitChars_cons, hextended] at h ⊢
    -- what is taken up only grows, so no digit is dropped before the end
    have hlt := Nat.lt_of_le_of_lt (le_ofDigitChars cs (init * 10 + digitValue c)) h
    simp only [absorb]
    rw [if_pos hlt]
    exact ih h

lemma roundToDouble_le (n : Nat) : roundToDouble n ≤ 2 * n := by
  rw [roundToDouble]
  split
  · omega
  · next hlog =>
    have hn : n ≠ 0 := by
      rintro rfl
      exact hlog (by decide)
    have hunit : Nat.pow 2 (n.log2 - 52) ≤ n :=
      Nat.le_trans (Nat.pow_le_pow_right (by decide) (Nat.sub_le _ _)) (Nat.log2_self_le hn)
    have hquotient := Nat.div_mul_le_self n (Nat.pow 2 (n.log2 - 52))
    dsimp only
    split
    · rw [Nat.add_mul, Nat.one_mul]
      omega
    · omega

lemma isFinite_of_lt (hn : n < significandBound) :
    isFinite { negative := false, whole := Nat.toDigits 10 n } = true := by
  have hvalue : Nat.ofDigitChars 10 (Nat.toDigits 10 n) 0 = n :=
    Nat.ofDigitChars_toDigits (by decide) (by decide)
  have habsorb : absorb 0 (Nat.toDigits 10 n) = (n, 0) := by
    rw [absorb_eq (by rwa [hvalue]), hvalue]
  have hscaled : scaled { negative := false, whole := Nat.toDigits 10 n } = (n, 0) := by
    simp only [scaled, habsorb, Option.getD_none, absorb]
    rfl
  -- rounding at most doubles the number, which is far from the bound of the doubles
  have hbound : 2 * significandBound < doubleBound := by decide +kernel
  have hround := roundToDouble_le n
  have hpower : roundToDouble (Nat.pow 10 (0 : Int).toNat) = 1 := by decide
  simp only [isFinite, hscaled, fits, hpower, Nat.mul_one]
  split
  · rfl
  · rw [if_neg (by decide), decide_eq_true_eq]
    omega

end Numeral

/-- The digits of a number are read as they are. -/
lemma gives_finiteFrom_toDigits {c : Char} (hcs : Nat.toDigits 10 n = c :: cs)
    (hn : n < Numeral.significandBound) (hrest : Stops rest) :
    (finiteFrom c (cs ++ rest)).Gives { negative := false, whole := Nat.toDigits 10 n } rest := by
  have hdigit : c.isDigit = true :=
    (isRun_toDigits n).isDigit c (by rw [hcs]; exact List.mem_cons_self)
  have hsign : c ≠ '-' := by
    rintro rfl
    exact absurd hdigit (by decide)
  have hstop := hrest.not_numeric
  have hwhole := gives_wholePart (isWhole_toDigits n) fun d hd => (hstop d hd).1
  have hnumeral : (unsigned false (Nat.toDigits 10 n ++ rest)).Gives
      { negative := false, whole := Nat.toDigits 10 n } rest := by
    refine hwhole.andThen fun _ => Reading.Gives.widen ?_ _
    rw [withFraction_eq _ fun d hd => (hstop d hd).2.1]
    exact gives_withExponent_stops _ hrest
  have hfrom : (numeralFrom c (cs ++ rest)).Gives
      { negative := false, whole := Nat.toDigits 10 n } rest := by
    rw [numeralFrom, if_neg hsign]
    rwa [hcs] at hnumeral ⊢
  refine hfrom.andThen fun shorter => ?_
  rw [if_pos (Numeral.isFinite_of_lt hn)]
  exact ⟨shorter, rfl⟩

end

end ScriptConsole.Json
