import Mathlib
import ScriptConsole.Proofs.Arithmetic

/-!
# Texts read as numbers

A text stands for a number if, without the blanks around it, it is a numeral: digits with at most
one sign in front of them. `Numeral` gives numerals their values digit by digit, and
`string_reads_as_numeral` says that a string is read as the value of its numeral as long as a number
can hold it, and as zero if it is blank. So reading undoes writing.
-/

namespace ScriptConsole

namespace Text

/-- A text of blanks only. -/
def AllBlank (cs : List Char) : Prop :=
  ∀ c ∈ cs, isBlank c = true

/-- What is left of a text without the blanks around it. -/
def Core (cs body : List Char) : Prop :=
  ∃ before after, cs = before ++ body ++ after ∧ AllBlank before ∧ AllBlank after ∧
    (∀ c ∈ body.head?, isBlank c = false) ∧ ∀ c ∈ body.getLast?, isBlank c = false

lemma trimEnd_eq_rdropWhile (cs : List Char) : trimEnd cs = cs.rdropWhile isBlank := rfl

lemma trim_eq_nil_iff {cs : List Char} : trim cs = [] ↔ AllBlank cs := by
  rw [trim, trimEnd_eq_rdropWhile, List.rdropWhile_eq_nil_iff, trimStart]
  constructor
  · intro h c hc
    rw [← List.takeWhile_append_dropWhile (p := isBlank) (l := cs), List.mem_append] at hc
    exact hc.elim List.mem_takeWhile_imp (h c)
  · intro h c hc
    exact h c ((List.dropWhile_sublist _).mem hc)

/-- Trimming leaves the core of a text. -/
lemma core_trim (cs : List Char) : Core cs (trim cs) := by
  have hstart := List.takeWhile_append_dropWhile (p := isBlank) (l := cs)
  have hend := List.rdropWhile_append_rtakeWhile (p := isBlank) (l := trimStart cs)
  refine ⟨cs.takeWhile isBlank, (trimStart cs).rtakeWhile isBlank, ?_,
    fun c hc => List.mem_takeWhile_imp hc, fun c hc => List.mem_rtakeWhile_imp hc, ?_, ?_⟩
  · rw [trim, trimEnd_eq_rdropWhile, List.append_assoc, hend]
    exact hstart.symm
  · -- the first character of the core is the first one that is not blank
    intro c hc
    rw [trim, trimEnd_eq_rdropWhile] at hc
    have hfirst : (trimStart cs).head? = some c := by
      rw [← hend, List.head?_append_of_ne_nil _ (List.ne_nil_of_mem (List.mem_of_mem_head? hc))]
      exact hc
    have hnot := List.head?_dropWhile_not isBlank cs
    rw [← trimStart, hfirst] at hnot
    exact hnot
  · intro c hc
    have hne : (trimStart cs).rdropWhile isBlank ≠ [] :=
      List.ne_nil_of_mem (List.mem_of_mem_getLast? hc)
    have hnot := List.rdropWhile_last_not isBlank (trimStart cs) hne
    rw [Option.mem_def, trim, trimEnd_eq_rdropWhile, List.getLast?_eq_getLast_of_ne_nil hne] at hc
    rw [← Option.some.inj hc]
    exact Bool.eq_false_of_not_eq_true hnot

lemma Core.trim_eq {cs body : List Char} (h : Core cs body) : trim cs = body := by
  obtain ⟨before, after, rfl, hbefore, hafter, hhead, hlast⟩ := h
  obtain rfl | hne := eq_or_ne body []
  · rw [trim_eq_nil_iff, List.append_nil]
    exact fun c hc => (List.mem_append.mp hc).elim (hbefore c) (hafter c)
  · have hstart : trimStart (before ++ body ++ after) = body ++ after := by
      rw [trimStart, List.append_assoc]
      refine (Token.takeWhile_dropWhile_append hbefore ?_).2
      rwa [List.head?_append_of_ne_nil _ hne]
    have hend : (after.reverse ++ body.reverse).dropWhile isBlank = body.reverse := by
      refine (Token.takeWhile_dropWhile_append (fun c hc => hafter c (List.mem_reverse.mp hc)) ?_).2
      rwa [List.head?_reverse]
    rw [trim, hstart, trimEnd, List.reverse_append, hend, List.reverse_reverse]

lemma core_of_not_blank {before body after : List Char} (hbefore : AllBlank before)
    (hafter : AllBlank after) (hbody : ∀ c ∈ body, isBlank c = false) :
    Core (before ++ body ++ after) body :=
  ⟨before, after, rfl, hbefore, hafter, fun c hc => hbody c (List.mem_of_mem_head? hc),
    fun c hc => hbody c (List.mem_of_mem_getLast? hc)⟩

end Text

namespace Number

/-- A run of at least one of the ten digits, with its value. -/
inductive Digits : List Char → Nat → Prop
  | single (d : Fin 10) : Digits [Nat.digitChar d] d
  | concat {cs : List Char} {n : Nat} (h : Digits cs n) (d : Fin 10) :
      Digits (cs ++ [Nat.digitChar d]) (10 * n + d)

/-- Digits with at most one sign in front of them, with their value. -/
inductive Numeral : List Char → Int → Prop
  | unsigned {cs : List Char} {n : Nat} (h : Digits cs n) : Numeral cs n
  | plus {cs : List Char} {n : Nat} (h : Digits cs n) : Numeral ('+' :: cs) n
  | minus {cs : List Char} {n : Nat} (h : Digits cs n) : Numeral ('-' :: cs) (-n)

lemma isDigit_iff_exists_digitChar {c : Char} :
    c.isDigit = true ↔ ∃ d : Fin 10, c = Nat.digitChar d := by
  constructor
  · intro hc
    rw [Char.isDigit_iff_toNat] at hc
    obtain ⟨hlow, hhigh⟩ : 48 ≤ c.toNat ∧ c.toNat ≤ 57 := hc
    have hchar : ∀ n : Fin 10, Char.ofNat (48 + n) = Nat.digitChar n := by decide
    refine ⟨⟨c.toNat - 48, by omega⟩, ?_⟩
    rw [← hchar]
    simp only
    rw [Nat.add_sub_cancel' hlow, Char.ofNat_toNat]
  · rintro ⟨d, rfl⟩
    rw [Nat.isDigit_digitChar, decide_eq_true_eq]
    exact d.isLt

lemma toNat_digitChar_sub (d : Fin 10) : (Nat.digitChar d).toNat - '0'.toNat = d := by
  revert d
  decide

lemma Digits.ne_nil {cs : List Char} {n : Nat} (h : Digits cs n) : cs ≠ [] := by
  cases h <;> simp

lemma Digits.isDigit {cs : List Char} {n : Nat} (h : Digits cs n) : ∀ c ∈ cs, c.isDigit = true := by
  induction h with
  | single d =>
    rw [List.forall_mem_singleton]
    exact isDigit_iff_exists_digitChar.mpr ⟨d, rfl⟩
  | concat _ d ih =>
    rw [List.forall_mem_append, List.forall_mem_singleton]
    exact ⟨ih, isDigit_iff_exists_digitChar.mpr ⟨d, rfl⟩⟩

lemma Digits.ofDigitChars_eq {cs : List Char} {n : Nat} (h : Digits cs n) :
    Nat.ofDigitChars 10 cs 0 = n := by
  induction h with
  | single d => rw [Nat.ofDigitChars_cons, Nat.ofDigitChars_nil, toNat_digitChar_sub, Nat.zero_add]
  | concat _ d ih =>
    rw [Nat.ofDigitChars_append, ih, Nat.ofDigitChars_cons, Nat.ofDigitChars_nil,
      toNat_digitChar_sub]

lemma digits_ofDigitChars {cs : List Char} (hne : cs ≠ []) (h : ∀ c ∈ cs, c.isDigit = true) :
    Digits cs (Nat.ofDigitChars 10 cs 0) := by
  induction cs using List.reverseRecOn with
  | nil => exact absurd rfl hne
  | append_singleton cs c ih =>
    rw [List.forall_mem_append, List.forall_mem_singleton] at h
    obtain ⟨hcs, hc⟩ := h
    obtain ⟨d, rfl⟩ := isDigit_iff_exists_digitChar.mp hc
    rw [Nat.ofDigitChars_append, Nat.ofDigitChars_cons, Nat.ofDigitChars_nil, toNat_digitChar_sub]
    obtain rfl | hne := eq_or_ne cs []
    · simpa using Digits.single d
    · exact (ih hne hcs).concat d

lemma digits?_eq_some_iff {cs : List Char} {n : Nat} : digits? cs = some n ↔ Digits cs n := by
  rw [digits?, Option.ite_none_right_eq_some, List.all_eq_true, Option.some.injEq]
  constructor
  · rintro ⟨⟨hne, hdigits⟩, rfl⟩
    exact digits_ofDigitChars hne hdigits
  · intro h
    exact ⟨⟨h.ne_nil, h.isDigit⟩, h.ofDigitChars_eq⟩

/-- The reader accepts the numerals whose value a number can hold, and gives each its value. -/
theorem ofDecimal?_eq_some_iff {cs : List Char} {n : Number} :
    ofDecimal? cs = some n ↔ Numeral cs n.val := by
  constructor
  · intro h
    unfold ofDecimal? at h
    split at h
    all_goals
      obtain ⟨m, hdigits, hvalue⟩ := Option.bind_eq_some_iff.mp h
      rw [ofInt?_eq_some_iff.mp hvalue]
      rw [digits?_eq_some_iff] at hdigits
    · exact .minus hdigits
    · exact .plus hdigits
    · exact .unsigned hdigits
  · generalize hval : n.val = value
    intro h
    have hsome : ofInt? value = some n := ofInt?_eq_some_iff.mpr hval
    cases h with
    | unsigned h =>
      obtain ⟨c, cs, rfl⟩ := List.exists_cons_of_ne_nil h.ne_nil
      rw [ofDecimal?_cons (h.isDigit c List.mem_cons_self), digits?_eq_some_iff.mpr h,
        Option.bind_some, hsome]
    | plus h | minus h =>
      rw [ofDecimal?, digits?_eq_some_iff.mpr h, Option.bind_some, hsome]

lemma Digits.not_blank {cs : List Char} {n : Nat} (h : Digits cs n) :
    ∀ c ∈ cs, Text.isBlank c = false := by
  have hdigit : ∀ d : Fin 10, Text.isBlank (Nat.digitChar d) = false := by decide
  intro c hc
  obtain ⟨d, rfl⟩ := isDigit_iff_exists_digitChar.mp (h.isDigit c hc)
  exact hdigit d

lemma Numeral.not_blank {cs : List Char} {n : Int} (h : Numeral cs n) :
    ∀ c ∈ cs, Text.isBlank c = false := by
  cases h with
  | unsigned h => exact h.not_blank
  | plus h | minus h => exact List.forall_mem_cons.mpr ⟨by decide, h.not_blank⟩

lemma Numeral.ne_nil {cs : List Char} {n : Int} (h : Numeral cs n) : cs ≠ [] := by
  cases h with
  | unsigned h => exact h.ne_nil
  | plus | minus => exact List.cons_ne_nil _ _

lemma digits_toDigits (n : Nat) : Digits (Nat.toDigits 10 n) n := by
  rw [← digits?_eq_some_iff, digits?, if_pos, Nat.ofDigitChars_toDigits (by decide) (by decide)]
  exact ⟨Nat.toDigits_ne_nil, List.all_eq_true.mpr fun c hc =>
    Nat.isDigit_of_mem_toDigits (by decide) (by decide) hc⟩

/-- A number is written as a numeral with its value. -/
theorem numeral_text (n : Number) : Numeral n.text.toList n.val := by
  rw [text, Int.toString_eq_repr, Int.repr_eq_if]
  split
  · next h =>
    have hdigits := Numeral.unsigned (digits_toDigits n.val.toNat)
    rwa [Int.toNat_of_nonneg h, ← Nat.toList_repr] at hdigits
  · next h =>
    have hdigits := Numeral.minus (digits_toDigits (-n.val).toNat)
    rwa [Int.toNat_of_nonneg (by omega), Int.neg_neg, ← Nat.toList_repr, ← List.singleton_append,
      ← String.toList_singleton, ← String.toList_append] at hdigits

end Number

namespace Value

open Text (AllBlank Core)
open Number (Numeral InRange)

lemma toNumber_of_allBlank {s : String} (h : AllBlank s.toList) :
    toNumber (.string s) = .ok .zero := by
  rw [toNumber, Text.trim_eq_nil_iff.mpr h]

lemma toNumber_of_not_allBlank {s : String} (h : ¬AllBlank s.toList) :
    toNumber (.string s) = match Number.ofDecimal? (Text.trim s.toList) with
      | some n => .ok n
      | none => .error (.notANumber ("\"" ++ s ++ "\"")) := by
  rw [toNumber]
  split
  · next hnil => exact absurd (Text.trim_eq_nil_iff.mp hnil) h
  · rfl

lemma toNumber_of_numeral {s : String} {body : List Char} {n : Number} (hcore : Core s.toList body)
    (hbody : Numeral body n.val) : toNumber (.string s) = .ok n := by
  have hblank : ¬AllBlank s.toList := by
    rw [← Text.trim_eq_nil_iff, hcore.trim_eq]
    exact hbody.ne_nil
  rw [toNumber_of_not_allBlank hblank, hcore.trim_eq, Number.ofDecimal?_eq_some_iff.mpr hbody]

/-- A blank string is read as zero. A string that is a numeral between blanks is read as its value
if a number can hold it. Any other string is no number, and the error quotes it. What a number is
written as is read as the number, with any blanks around it. -/
theorem string_reads_as_numeral :
    (∀ s : String,
      (AllBlank s.toList → toNumber (.string s) = .ok .zero) ∧
      (∀ body n, Core s.toList body → Numeral body n → InRange n →
        ∃ m : Number, m.val = n ∧ toNumber (.string s) = .ok m) ∧
      (¬AllBlank s.toList → (∀ body n, Core s.toList body → Numeral body n → ¬InRange n) →
        toNumber (.string s) = .error (.notANumber ("\"" ++ s ++ "\"")))) ∧
    ∀ (n : Number) (before after : String), AllBlank before.toList → AllBlank after.toList →
      toNumber (.string (before ++ (Value.number n).text ++ after)) = .ok n := by
  refine ⟨fun s => ⟨toNumber_of_allBlank, ?_, ?_⟩, ?_⟩
  · intro body n hcore hbody hrange
    exact ⟨⟨n, hrange.1, hrange.2⟩, rfl, toNumber_of_numeral hcore hbody⟩
  · intro hblank hnone
    rw [toNumber_of_not_allBlank hblank]
    split
    · next n hn =>
      have hnumeral := Number.ofDecimal?_eq_some_iff.mp hn
      exact absurd n.inRange_val (hnone _ _ (Text.core_trim _) hnumeral)
    · rfl
  · intro n before after hbefore hafter
    have hnumeral := n.numeral_text
    refine toNumber_of_numeral ?_ hnumeral
    rw [String.toList_append, String.toList_append]
    exact Text.core_of_not_blank hbefore hafter hnumeral.not_blank

/-- The least number between a wide space and a line break, and without its sign. -/
theorem string_reads_as_numeral_least :
    toNumber (.string "\u3000-9223372036854775808\n") =
      .ok ⟨-9223372036854775808, by decide, by decide⟩ ∧
    toNumber (.string "9223372036854775808") =
      .error (.notANumber "\"9223372036854775808\"") := by
  constructor
  · exact string_reads_as_numeral.2 ⟨-9223372036854775808, by decide, by decide⟩ "\u3000" "\n"
      (List.all_eq_true.mp (by decide)) (List.all_eq_true.mp (by decide))
  · have hblank : ¬AllBlank "9223372036854775808".toList := by
      rw [← Text.trim_eq_nil_iff]
      decide
    refine (string_reads_as_numeral.1 "9223372036854775808").2.2 hblank ?_
    intro body n hcore hbody hrange
    have hsome := Number.ofDecimal?_eq_some_iff (n := ⟨n, hrange.1, hrange.2⟩).mpr hbody
    have hnone : Number.ofDecimal? (Text.trim "9223372036854775808".toList) = none := by decide
    rw [← hcore.trim_eq, hnone] at hsome
    cases hsome

end Value

end ScriptConsole
