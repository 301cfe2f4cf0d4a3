import ScriptConsole.Json.Reading

/-!
# JSON numbers

A number is read as the digits it is written with. A number that is kept must not be larger than what
a double-precision number can hold, as it is computed from at most nineteen or twenty leading digits
and a power of ten.
-/

namespace ScriptConsole.Json

/-- The digits a number is written with. -/
structure Numeral where
  negative : Bool
  whole : List Char
  /-- The digits behind the point. -/
  fraction : Option (List Char) := none
  /-- Whether the exponent is negative, and its digits. -/
  exponent : Option (Bool × List Char) := none
deriving DecidableEq, Repr

/-- Reads a run of digits that must not be empty. -/
def digits (cs : List Char) : Reading (List Char) cs.length :=
  match cs with
  | [] => .error .truncated
  | c :: rest =>
    if c.isDigit then
      .ok ⟨c :: rest.takeWhile Char.isDigit, rest.dropWhile Char.isDigit,
        Nat.lt_succ_of_le (List.dropWhile_sublist _).length_le⟩
    else
      .error .malformed

/-- Reads the whole part of a number: a zero in front of other digits is refused. -/
def wholePart (cs : List Char) : Reading (List Char) cs.length :=
  (digits cs).andThen fun run rest shorter =>
    match run with
    | '0' :: _ :: _ => .error .malformed
    | run => .ok ⟨run, rest, shorter⟩

/-- Reads the digits of an exponent behind its mark, with a sign maybe. -/
def exponentPart (cs : List Char) : Reading (Bool × List Char) cs.length :=
  match cs with
  | '-' :: rest => ((digits rest).apply fun run => (true, run)).behind
  | '+' :: rest => ((digits rest).apply fun run => (false, run)).behind
  | cs => (digits cs).apply fun run => (false, run)

/-- Reads the exponent of a number, if it has one. -/
def withExponent (numeral : Numeral) (cs : List Char) : Reading Numeral (cs.length + 1) :=
  match cs with
  | [] => Reading.done numeral []
  | c :: rest =>
    if c = 'e' ∨ c = 'E' then
      ((exponentPart rest).apply fun exponent =>
        { numeral with exponent := some exponent }).behind.behind
    else
      Reading.done numeral (c :: rest)

/-- Reads the fraction of a number, if it has one, and its exponent. -/
def withFraction (numeral : Numeral) (cs : List Char) : Reading Numeral (cs.length + 1) :=
  match cs with
  | '.' :: rest =>
    ((digits rest).andThen fun run rest' shorter =>
      (withExponent { numeral with fraction := some run } rest').widen shorter).behind.behind
  | cs => withExponent numeral cs

/-- Reads a number behind its sign. -/
def unsigned (negative : Bool) (cs : List Char) : Reading Numeral cs.length :=
  (wholePart cs).andThen fun whole rest shorter =>
    (withFraction { negative, whole } rest).widen shorter

/-- Reads a number that starts with a given character, which is a minus sign or a digit. -/
def numeralFrom (c : Char) (cs : List Char) : Reading Numeral (cs.length + 1) :=
  if c = '-' then (unsigned true cs).behind else unsigned false (c :: cs)

namespace Numeral

/-- The value of a digit. -/
def digitValue (c : Char) : Nat :=
  c.toNat - '0'.toNat

/-- The bound of the leading digits that are computed with, `2 ^ 64`. -/
def significandBound : Nat := 18446744073709551616

/-- Takes up digits as long as the significand stays within its bound, and counts those left. -/
def absorb (significand : Nat) : List Char → Nat × Nat
  | [] => (significand, 0)
  | c :: cs =>
    let extended := significand * 10 + digitValue c
    if extended < significandBound then absorb extended cs else (significand, cs.length + 1)

/-- The leading digits and the power of ten they are scaled by, without the written exponent. -/
def scaled (numeral : Numeral) : Nat × Int :=
  let (significand, dropped) := absorb 0 numeral.whole
  let fraction := numeral.fraction.getD []
  let (significand, left) := absorb significand fraction
  (significand, dropped - (fraction.length - left : Nat))

/-- A whole number rounded to 53 significant bits, a half to the even neighbour. -/
def roundToDouble (n : Nat) : Nat :=
  if n.log2 < 53 then
    n
  else
    let unit := Nat.pow 2 (n.log2 - 52)
    let quotient := n / unit
    let twice := 2 * (n % unit)
    let up := twice > unit || (twice = unit && quotient % 2 = 1)
    (if up then quotient + 1 else quotient) * unit

/-- The least whole number that is rounded beyond the doubles, `2 ^ 1024 - 2 ^ 970`. -/
def doubleBound : Nat := Nat.pow 2 1024 - Nat.pow 2 970

/-- The greatest power of ten that is a double. -/
def maxPower : Nat := 308

/-- The bound of written exponents that are computed with, `2 ^ 31`. -/
def exponentBound : Nat := 2147483648

/-- Whether a scaled significand is within the doubles. -/
def fits (significand : Nat) (power : Int) : Bool :=
  if power < 0 ∨ significand = 0 then true
  else if maxPower < power then false
  else roundToDouble significand * roundToDouble (Nat.pow 10 power.toNat) < doubleBound

/-- Whether the number is within the doubles. -/
def isFinite (numeral : Numeral) : Bool :=
  let (significand, power) := numeral.scaled
  match numeral.exponent with
  | none => fits significand power
  | some (negative, run) =>
    let exponent := Nat.ofDigitChars 10 run 0
    if exponent < exponentBound then
      fits significand (if negative then power - exponent else power + exponent)
    else
      significand = 0 || negative

/-- The value of a number that is written with digits only. -/
def natural? (numeral : Numeral) : Option Nat :=
  if numeral.negative ∨ numeral.fraction.isSome ∨ numeral.exponent.isSome then
    none
  else
    some (Nat.ofDigitChars 10 numeral.whole 0)

end Numeral

/-- Reads a number that starts with a given character and is within the doubles. -/
def finiteFrom (c : Char) (cs : List Char) : Reading Numeral (cs.length + 1) :=
  (numeralFrom c cs).andThen fun numeral rest shorter =>
    if numeral.isFinite then .ok ⟨numeral, rest, shorter⟩ else .error .malformed

/-- Reads past a number that starts with a given character; one that ends too early is malformed. -/
def skipNumberFrom (c : Char) (cs : List Char) : Reading Unit (cs.length + 1) :=
  match numeralFrom c cs with
  | .ok ⟨_, rest, shorter⟩ => .ok ⟨(), rest, shorter⟩
  | .error _ => .error .malformed

end ScriptConsole.Json
