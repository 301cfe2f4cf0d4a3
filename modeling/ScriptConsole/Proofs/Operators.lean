import Mathlib
import ScriptConsole.Proofs.Arithmetic

/-!
# Operators on values of every kind

A sum with a string joins texts. Any other operation reads its operands as numbers, the left one
first, and either has the exact result or says why it has none (`operators_are_exact`). The least
number is the one that has neither a negative nor an absolute value.
-/

namespace ScriptConsole

lemma Number.inRange_neg_iff (n : Number) :
    Number.InRange (-n.val) ↔ n.val ≠ -9223372036854775808 := by
  have hrange := n.inRange_val
  unfold Number.InRange at *
  omega

lemma Number.inRange_natAbs_iff (n : Number) :
    Number.InRange n.val.natAbs ↔ n.val ≠ -9223372036854775808 := by
  have hrange := n.inRange_val
  unfold Number.InRange at *
  omega

namespace BinaryOp

lemma fault?_eq_divisionByZero_iff (op : BinaryOp) (a b : Int) :
    op.fault? a b = some .divisionByZero ↔ (op = .divide ∨ op = .remainder) ∧ b = 0 := by
  unfold fault?
  split
  · next hzero => simp [hzero]
  · next hzero =>
    simp only [hzero, iff_false]
    split <;> simp

/-- Dividing by zero is no overflow: what is in range stays so. -/
lemma fault?_eq_overflow_iff (op : BinaryOp) (a : Number) (b : Int) :
    op.fault? a.val b = some .overflow ↔ ¬Number.InRange (op.exact a.val b) ∨
      (op = .remainder ∧ a.val = -9223372036854775808 ∧ b = -1) := by
  unfold fault?
  split
  · next hzero =>
    obtain ⟨hop, rfl⟩ := hzero
    have hrange : Number.InRange (op.exact a.val 0) := by
      rcases hop with rfl | rfl
      · rw [exact, Int.tdiv_zero]
        decide
      · rw [exact, Int.tmod_zero]
        exact a.inRange_val
    simp [hrange]
  · split
    · next hfault => simpa using hfault
    · next hfault => simpa using hfault

lemma eq_of_fault? {op : BinaryOp} {a b : Int} {error : Error} (h : op.fault? a b = some error) :
    error = .divisionByZero ∨ error = .overflow := by
  unfold fault? at h
  split at h
  · exact .inl (Option.some.inj h).symm
  · split at h
    · exact .inr (Option.some.inj h).symm
    · cases h

/-- A quotient is cut off towards zero, and a remainder has the sign of the dividend. -/
lemma exact_divide_remainder (a : Int) {b : Int} (hb : b ≠ 0) :
    a = BinaryOp.divide.exact a b * b + BinaryOp.remainder.exact a b ∧
      |BinaryOp.remainder.exact a b| < |b| ∧
      (BinaryOp.remainder.exact a b = 0 ∨ (BinaryOp.remainder.exact a b).sign = a.sign) := by
  change a = a.tdiv b * b + a.tmod b ∧ |a.tmod b| < |b| ∧
    (a.tmod b = 0 ∨ (a.tmod b).sign = a.sign)
  refine ⟨(Int.tdiv_mul_add_tmod a b).symm, ?_, ?_⟩
  · rw [Int.abs_eq_natAbs, Int.abs_eq_natAbs, Int.natAbs_tmod, Nat.cast_lt]
    exact Nat.mod_lt _ (Int.natAbs_pos.mpr hb)
  · have hsign := Int.sign_tmod a b
    split at hsign
    · exact .inl (Int.sign_eq_zero_iff_zero.mp hsign)
    · exact .inr hsign

end BinaryOp

namespace Value

variable {fault : Option Error} {exact : Int} {result : Except Error Value}

lemma Settles.eq_error_iff (h : Settles fault exact result) (error : Error) :
    result = .error error ↔ fault = some error := by
  cases fault with
  | none =>
    obtain ⟨n, -, rfl⟩ := h
    simp
  | some other =>
    rw [h]
    simp

lemma Settles.exists_number (h : Settles fault exact result) (hok : ∀ error, result ≠ .error error) :
    ∃ n : Number, n.val = exact ∧ result = .ok (.number n) := by
  cases fault with
  | none => exact h
  | some error => exact absurd h (hok error)

/-- How an error names a value that cannot be read as a number. -/
def named : Value → String
  | .string s => "\"" ++ s ++ "\""
  | value => value.text

lemma eq_notANumber_of_toNumber {value : Value} {error : Error}
    (h : value.toNumber = .error error) : error = .notANumber value.named := by
  cases value with
  | number | bool | null => cases h
  | builtin f => exact (Except.error.inj h).symm
  | closure c => exact (Except.error.inj h).symm
  | string s =>
    rw [toNumber] at h
    split at h
    · cases h
    · split at h
      · cases h
      · exact (Except.error.inj h).symm

lemma binary_of_isString {op : BinaryOp} {left right : Value}
    (h : op = .add ∧ (left.isString ∨ right.isString)) :
    binary op left right = .ok (.string (left.text ++ right.text)) := by
  rw [binary, if_pos]
  simpa using h

lemma binary_of_not_isString {op : BinaryOp} {left right : Value}
    (h : ¬(op = .add ∧ (left.isString ∨ right.isString))) :
    binary op left right =
      left.toNumber.bind fun a => right.toNumber.bind fun b => arithmetic op a b := by
  rw [binary, if_neg]
  simpa using h

section

variable (op : BinaryOp) (a b : Number)

lemma arithmetic_eq_divisionByZero_iff :
    arithmetic op a b = .error .divisionByZero ↔ (op = .divide ∨ op = .remainder) ∧ b.val = 0 := by
  rw [(settles_arithmetic op a b).eq_error_iff, BinaryOp.fault?_eq_divisionByZero_iff]

lemma arithmetic_eq_overflow_iff :
    arithmetic op a b = .error .overflow ↔ ¬Number.InRange (op.exact a.val b.val) ∨
      (op = .remainder ∧ a.val = -9223372036854775808 ∧ b.val = -1) := by
  rw [(settles_arithmetic op a b).eq_error_iff, BinaryOp.fault?_eq_overflow_iff]

variable {op a b}

lemma exists_number_of_arithmetic (hzero : arithmetic op a b ≠ .error .divisionByZero)
    (hrange : arithmetic op a b ≠ .error .overflow) :
    ∃ n : Number, n.val = op.exact a.val b.val ∧ arithmetic op a b = .ok (.number n) := by
  apply (settles_arithmetic op a b).exists_number
  intro error herror
  rw [(settles_arithmetic op a b).eq_error_iff] at herror
  rcases BinaryOp.eq_of_fault? herror with rfl | rfl
  · exact hzero ((settles_arithmetic op a b).eq_error_iff _ |>.mpr herror)
  · exact hrange ((settles_arithmetic op a b).eq_error_iff _ |>.mpr herror)

lemma exists_number_of_inRange (hb : b.val ≠ 0)
    (hpair : ¬(a.val = -9223372036854775808 ∧ b.val = -1))
    (hrange : Number.InRange (op.exact a.val b.val)) :
    ∃ n : Number, n.val = op.exact a.val b.val ∧ arithmetic op a b = .ok (.number n) := by
  apply exists_number_of_arithmetic
  · rw [ne_eq, arithmetic_eq_divisionByZero_iff]
    exact fun hzero => hb hzero.2
  · rw [ne_eq, arithmetic_eq_overflow_iff]
    rintro (hout | ⟨-, hsame⟩)
    · exact hout hrange
    · exact hpair hsame

/-- Where the quotient can be held there is a remainder too, and the two make up the dividend. -/
lemma exists_divide_remainder (hb : b.val ≠ 0)
    (hpair : ¬(a.val = -9223372036854775808 ∧ b.val = -1)) :
    ∃ q r : Number, arithmetic .divide a b = .ok (.number q) ∧
      arithmetic .remainder a b = .ok (.number r) ∧ a.val = q.val * b.val + r.val ∧
      |r.val| < |b.val| ∧ (r.val = 0 ∨ r.val.sign = a.val.sign) := by
  have hquotient : Number.InRange (BinaryOp.divide.exact a.val b.val) :=
    (Number.inRange_tdiv_iff a b).mpr hpair
  have hremainder : Number.InRange (BinaryOp.remainder.exact a.val b.val) :=
    Number.inRange_tmod a b hb
  obtain ⟨q, hq, hdivide⟩ := exists_number_of_inRange hb hpair hquotient
  obtain ⟨r, hr, hrest⟩ := exists_number_of_inRange hb hpair hremainder
  refine ⟨q, r, hdivide, hrest, ?_⟩
  rw [hq, hr]
  exact BinaryOp.exact_divide_remainder a.val hb

end

section

/-! Minus and the absolute value both compute, from one number, a result that is in range for every
number but the least. -/

variable {value : Value} {f : Number → Int}
  (hf : ∀ n : Number, Number.InRange (f n) ↔ n.val ≠ -9223372036854775808)

include hf

lemma bind_ofExact_eq_overflow_iff :
    (value.toNumber.bind fun n => ofExact (f n)) = .error .overflow ↔
      ∃ n, value.toNumber = .ok n ∧ n.val = -9223372036854775808 := by
  cases hvalue : value.toNumber with
  | error error =>
    rw [eq_notANumber_of_toNumber hvalue]
    constructor
    · intro h
      cases h
    · rintro ⟨n, h, -⟩
      cases h
  | ok n =>
    have hsettles := (settles_ofExact (f n)).eq_error_iff .overflow
    simp only [hf n] at hsettles
    rw [Except.bind, hsettles]
    by_cases hleast : n.val = -9223372036854775808 <;> simp [hleast]

lemma exists_number_of_bind {n : Number} (hvalue : value.toNumber = .ok n)
    (hleast : n.val ≠ -9223372036854775808) :
    ∃ m : Number, m.val = f n ∧ (value.toNumber.bind fun n => ofExact (f n)) = .ok (.number m) := by
  have hsettles := settles_ofExact (f n)
  rw [if_pos ((hf n).mpr hleast)] at hsettles
  rw [hvalue]
  exact hsettles

end

lemma call_abs (value : Value) (rest : List Value) (session : Session) :
    Evaluation.call (.builtin .abs) (value :: rest) session =
      (MonadExcept.ofExcept (value.toNumber.bind fun n => ofExact n.val.natAbs) : Eval Value)
        session := by
  rw [Evaluation.call, Evaluation.callWith]
  rfl

lemma ofExcept_eq_error_iff (result : Except Error Value) (error : Error) (session : Session) :
    (MonadExcept.ofExcept result : Eval Value) session = .error error session ↔
      result = .error error := by
  cases result with
  | ok value => exact iff_of_false nofun nofun
  | error other => exact ⟨fun h => by cases h; rfl, fun h => by cases h; rfl⟩

end Value

open Value (binary unary)

/-- A sum with a string joins the texts of both sides. Any other operation, and any other sum, fails
with the error of the first operand that is no number. If both are, it is a division by zero exactly
if the divisor is zero, an overflow exactly if the exact result is out of range or the least number is
taken modulo minus one, and else the number with the exact result. Quotient and remainder belong
together. Minus and the absolute value overflow at the least number only. -/
theorem operators_are_exact (op : BinaryOp) (left right : Value) :
    (op = .add ∧ (left.isString ∨ right.isString) →
      binary op left right = .ok (.string (left.text ++ right.text))) ∧
    (¬(op = .add ∧ (left.isString ∨ right.isString)) →
      (∀ error, left.toNumber = .error error →
        error = .notANumber left.named ∧ binary op left right = .error error) ∧
      (∀ a error, left.toNumber = .ok a → right.toNumber = .error error →
        error = .notANumber right.named ∧ binary op left right = .error error) ∧
      ∀ a b, left.toNumber = .ok a → right.toNumber = .ok b →
        (binary op left right = .error .divisionByZero ↔
          (op = .divide ∨ op = .remainder) ∧ b.val = 0) ∧
        (binary op left right = .error .overflow ↔ ¬Number.InRange (op.exact a.val b.val) ∨
          (op = .remainder ∧ a.val = -9223372036854775808 ∧ b.val = -1)) ∧
        (binary op left right ≠ .error .divisionByZero → binary op left right ≠ .error .overflow →
          ∃ n : Number, n.val = op.exact a.val b.val ∧ binary op left right = .ok (.number n))) ∧
    (∀ a b, left.toNumber = .ok a → right.toNumber = .ok b → b.val ≠ 0 →
      ¬(a.val = -9223372036854775808 ∧ b.val = -1) →
      ∃ q r : Number, binary .divide left right = .ok (.number q) ∧
        binary .remainder left right = .ok (.number r) ∧ a.val = q.val * b.val + r.val ∧
        |r.val| < |b.val| ∧ (r.val = 0 ∨ r.val.sign = a.val.sign)) ∧
    ∀ (value : Value) rest session,
      let abs := Evaluation.call (.builtin .abs) (value :: rest) session
      (unary .minus value = .error .overflow ↔
        ∃ n, value.toNumber = .ok n ∧ n.val = -9223372036854775808) ∧
      (abs = .error .overflow session ↔
        ∃ n, value.toNumber = .ok n ∧ n.val = -9223372036854775808) ∧
      ∀ n, value.toNumber = .ok n → n.val ≠ -9223372036854775808 →
        (∃ m : Number, m.val = -n.val ∧ unary .minus value = .ok (.number m)) ∧
        ∃ m : Number, m.val = n.val.natAbs ∧ abs = .ok (.number m) session := by
  refine ⟨Value.binary_of_isString, ?_, ?_, ?_⟩
  · intro hstring
    rw [Value.binary_of_not_isString hstring]
    refine ⟨?_, ?_, ?_⟩
    · intro error herror
      refine ⟨Value.eq_notANumber_of_toNumber herror, ?_⟩
      rw [herror]
      rfl
    · intro a error ha herror
      refine ⟨Value.eq_notANumber_of_toNumber herror, ?_⟩
      rw [ha, herror]
      rfl
    · intro a b ha hb
      rw [ha, hb]
      exact ⟨Value.arithmetic_eq_divisionByZero_iff op a b, Value.arithmetic_eq_overflow_iff op a b,
        Value.exists_number_of_arithmetic⟩
  · intro a b ha hb hzero hpair
    rw [Value.binary_of_not_isString (by simp), Value.binary_of_not_isString (by simp), ha, hb]
    exact Value.exists_divide_remainder hzero hpair
  · intro value rest session abs
    have habs : abs = _ := Value.call_abs value rest session
    rw [habs, Value.ofExcept_eq_error_iff]
    refine ⟨Value.bind_ofExact_eq_overflow_iff Number.inRange_neg_iff,
      Value.bind_ofExact_eq_overflow_iff Number.inRange_natAbs_iff, ?_⟩
    intro n hvalue hleast
    refine ⟨Value.exists_number_of_bind Number.inRange_neg_iff hvalue hleast, ?_⟩
    obtain ⟨m, hm, hbind⟩ := Value.exists_number_of_bind Number.inRange_natAbs_iff hvalue hleast
    refine ⟨m, hm, ?_⟩
    rw [hbind]
    rfl

/-- The least number, given as a text, taken modulo minus one. -/
theorem operators_are_exact_least :
    let left := Value.string " -9223372036854775808"
    let right := Value.string "-1"
    binary .remainder left right = .error .overflow := by
  intro left right
  have hleft : left.toNumber = .ok ⟨-9223372036854775808, by decide, by decide⟩ := by cbv
  have hright : right.toNumber = .ok ⟨-1, by decide, by decide⟩ := by cbv
  have hexact := (operators_are_exact .remainder left right).2.1 (by simp)
  exact (hexact.2.2 _ _ hleft hright).2.1.mpr (.inr ⟨rfl, rfl, rfl⟩)

end ScriptConsole
