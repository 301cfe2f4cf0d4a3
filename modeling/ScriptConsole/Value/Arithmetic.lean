import ScriptConsole.Value

/-!
# Arithmetic on values

The operators of the language. Results are computed exactly, as integers, and are an overflow if no
number can hold them.
-/

namespace ScriptConsole.Value

/-- The value of an exact result. -/
def ofExact (n : Int) : Except Error Value :=
  match Number.ofInt? n with
  | some n => .ok (.number n)
  | none => .error .overflow

/-- Applies an operator to two numbers. Division cuts off the fraction, and a remainder has the sign
of the dividend. A remainder is refused wherever the quotient is out of range. -/
def arithmetic (op : BinaryOp) (a b : Number) : Except Error Value :=
  match op with
  | .add => ofExact (a.val + b.val)
  | .subtract => ofExact (a.val - b.val)
  | .multiply => ofExact (a.val * b.val)
  | .divide => if b.val = 0 then .error .divisionByZero else ofExact (a.val.tdiv b.val)
  | .remainder =>
    if b.val = 0 then
      .error .divisionByZero
    else
      (ofExact (a.val.tdiv b.val)).bind fun _ => ofExact (a.val.tmod b.val)

/-- Applies a binary operator. A sum with a string on either side joins the texts of both; otherwise
both sides are read as numbers, the left one first. -/
def binary (op : BinaryOp) (left right : Value) : Except Error Value :=
  if op = .add ∧ (left.isString || right.isString) then
    .ok (.string (left.text ++ right.text))
  else
    left.toNumber.bind fun a => right.toNumber.bind fun b => arithmetic op a b

/-- Applies a unary operator. -/
def unary (op : UnaryOp) (value : Value) : Except Error Value :=
  match op with
  | .plus => .ok value
  | .minus => value.toNumber.bind fun n => ofExact (-n.val)
  | .not => .ok (.bool (!value.isTruthy))

end ScriptConsole.Value
