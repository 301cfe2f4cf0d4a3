/-!
# Numbers

The language computes with whole numbers of 64 bits. A `Number` carries the proof that it is in
range, so arithmetic is done on `Int` and `Number.ofInt?` decides whether the exact result can be
held.
-/

namespace ScriptConsole

/-- A whole number from `-2 ^ 63` to `2 ^ 63 - 1`. -/
structure Number where
  /-- The integer meant. -/
  val : Int
  /-- It is not below the least number. -/
  least_le : -9223372036854775808 ≤ val
  /-- It is not above the greatest number. -/
  lt_bound : val < 9223372036854775808
deriving DecidableEq

namespace Number

/-- The number with a given integer value, if that value is in range. -/
def ofInt? (n : Int) : Option Number :=
  if h : -9223372036854775808 ≤ n ∧ n < 9223372036854775808 then some ⟨n, h.1, h.2⟩ else none

/-- Zero. -/
def zero : Number := ⟨0, by decide, by decide⟩

/-- One. -/
def one : Number := ⟨1, by decide, by decide⟩

instance : Inhabited Number := ⟨zero⟩

/-- The decimal form: no leading zeros, and a minus sign in front of a negative number. -/
def text (n : Number) : String :=
  toString n.val

/-- The value of a run of decimal digits; an empty run and any other character have none. -/
def digits? (cs : List Char) : Option Nat :=
  if cs ≠ [] ∧ cs.all Char.isDigit then some (Nat.ofDigitChars 10 cs 0) else none

/-- Reads a decimal form: at most one sign, then at least one digit, with a value in range. -/
def ofDecimal? : List Char → Option Number
  | '-' :: cs => (digits? cs).bind fun n => ofInt? (-n)
  | '+' :: cs => (digits? cs).bind fun n => ofInt? n
  | cs => (digits? cs).bind fun n => ofInt? n

/-- A number is what `ofInt?` makes of its value. -/
@[simp]
theorem ofInt?_val (n : Number) : ofInt? n.val = some n := by
  simp only [ofInt?]
  rw [dif_pos ⟨n.least_le, n.lt_bound⟩]

/-- `ofInt?` gives exactly the number with the value asked for. -/
theorem ofInt?_eq_some_iff {n : Int} {m : Number} : ofInt? n = some m ↔ m.val = n := by
  constructor
  · intro h
    unfold ofInt? at h
    split at h
    · cases h
      rfl
    · cases h
  · rintro rfl
    exact ofInt?_val m

/-- `ofInt?` fails exactly on the integers out of range. -/
theorem ofInt?_eq_none_iff {n : Int} :
    ofInt? n = none ↔ n < -9223372036854775808 ∨ 9223372036854775808 ≤ n := by
  unfold ofInt?
  split <;> simp <;> omega

end Number

end ScriptConsole
