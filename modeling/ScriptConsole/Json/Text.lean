import ScriptConsole.Json.Reading

/-!
# JSON strings

Strings are read behind their opening quote. A character outside of the basic plane is escaped as a
pair of surrogates; how strictly this is checked depends on whether the string is kept or skipped.
-/

namespace ScriptConsole.Json

/-- The value of a hexadecimal digit. -/
def hexDigit? (c : Char) : Option Nat :=
  if c.isDigit then some (c.toNat - '0'.toNat)
  else if 'a' ≤ c ∧ c ≤ 'f' then some (c.toNat - 'a'.toNat + 10)
  else if 'A' ≤ c ∧ c ≤ 'F' then some (c.toNat - 'A'.toNat + 10)
  else none

/-- The value of hexadecimal digits. -/
def hexValue? (digits : List Char) : Option Nat :=
  digits.foldlM (fun n c => (hexDigit? c).map fun d => n * 16 + d) 0

/-- The number of bytes that characters take. -/
def byteCount (cs : List Char) : Nat :=
  cs.foldl (fun n c => n + c.utf8Size) 0

/-- Reads four hexadecimal digits. The document is too short if fewer than four bytes are left. -/
def hexCode (cs : List Char) : Reading Nat cs.length :=
  match cs with
  | a :: b :: c :: d :: rest =>
    match hexValue? [a, b, c, d] with
    | some n => .ok ⟨n, rest, Nat.lt_add_of_pos_right (Nat.succ_pos 3)⟩
    | none => .error .malformed
  | cs => if byteCount cs < 4 then .error .truncated else .error .malformed

/-- Whether a code stands first in a pair of surrogates. -/
def isLeading (n : Nat) : Bool :=
  0xD800 ≤ n && n ≤ 0xDBFF

/-- Whether a code stands second in a pair of surrogates. -/
def isTrailing (n : Nat) : Bool :=
  0xDC00 ≤ n && n ≤ 0xDFFF

/-- The character that a pair of surrogates stands for. -/
def ofSurrogates (leading trailing : Nat) : Char :=
  Char.ofNat ((leading - 0xD800) * 0x400 + (trailing - 0xDC00) + 0x10000)

/-- Reads the second half of a pair of surrogates. -/
def trailing (leading : Nat) (cs : List Char) : Reading Char cs.length :=
  match cs with
  | [] => .error .truncated
  | ['\\'] => .error .truncated
  | '\\' :: 'u' :: rest =>
    ((hexCode rest).andThen fun n rest' shorter =>
      if isTrailing n then
        .ok ⟨ofSurrogates leading n, rest', shorter⟩
      else
        .error .malformed).behind.behind
  | _ => .error .malformed

/-- Reads the code of an escaped character; surrogates have to come in pairs. -/
def code (cs : List Char) : Reading Char cs.length :=
  (hexCode cs).andThen fun n rest shorter =>
    if isTrailing n then .error .malformed
    else if isLeading n then (trailing n rest).widen (Nat.le_of_lt shorter)
    else .ok ⟨Char.ofNat n, rest, shorter⟩

/-- Reads any code of an escaped character. -/
def anyCode (cs : List Char) : Reading Char cs.length :=
  (hexCode cs).apply Char.ofNat

/-- Reads what stands behind a backslash, given the way to read a code. -/
def escape (code : (cs : List Char) → Reading Char cs.length) (cs : List Char) :
    Reading Char cs.length :=
  match cs with
  | [] => .error .truncated
  | c :: rest =>
    let done (c : Char) : Reading Char (rest.length + 1) := Reading.done c rest
    match c with
    | '"' => done '"'
    | '\\' => done '\\'
    | '/' => done '/'
    | 'b' => done '\x08'
    | 'f' => done '\x0c'
    | 'n' => done '\n'
    | 'r' => done '\r'
    | 't' => done '\t'
    | 'u' => (code rest).behind
    | _ => .error .malformed

/-- Reads a string up to the closing quote and this too, given the way to read a code. Control
characters have to be escaped. -/
def charsWith (code : (cs : List Char) → Reading Char cs.length) (cs : List Char) :
    Reading (List Char) cs.length :=
  match cs with
  | [] => .error .truncated
  | c :: rest =>
    if c = '"' then
      Reading.done [] rest
    else if c = '\\' then
      ((escape code rest).andThen fun c rest' shorter =>
        ((charsWith code rest').apply (c :: ·)).widen (Nat.le_of_lt shorter)).behind
    else if c.toNat < 0x20 then
      .error .malformed
    else
      ((charsWith code rest).apply (c :: ·)).behind
termination_by cs.length
decreasing_by all_goals (simp only [List.length_cons]; omega)

/-- Reads a string behind its opening quote. -/
def text (cs : List Char) : Reading String cs.length :=
  (charsWith code cs).apply String.ofList

/-- Reads past a string behind its opening quote. -/
def skipText (cs : List Char) : Reading Unit cs.length :=
  (charsWith anyCode cs).apply fun _ => ()

end ScriptConsole.Json
