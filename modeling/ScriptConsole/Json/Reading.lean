/-!
# Reading JSON

A document is read once from left to right, and the first thing that is wrong with it decides how
reading fails. A step that succeeds proves that it has used at least one character, which is why
steps that call each other come to an end.
-/

namespace ScriptConsole.Json

/-- Why a document cannot be read. -/
inductive Fault
  /-- It is not JSON. -/
  | malformed
  /-- It ends too early. -/
  | truncated
  /-- It is JSON up to here and says something that is not meant to be said. -/
  | mismatch
deriving DecidableEq, Repr, Inhabited

/-- A value read from `size` characters, and the characters behind it. -/
structure Taken (α : Type) (size : Nat) where
  value : α
  rest : List Char
  shorter : rest.length < size

/-- The result of reading from `size` characters. -/
abbrev Reading (α : Type) (size : Nat) := Except Fault (Taken α size)

namespace Reading

variable {α β : Type} {size larger : Nat}

/-- The same result, about more characters. -/
def widen (h : size ≤ larger) : Reading α size → Reading α larger
  | .ok ⟨value, rest, shorter⟩ => .ok ⟨value, rest, Nat.lt_of_lt_of_le shorter h⟩
  | .error fault => .error fault

/-- The same result, about one more character in front. -/
def behind (reading : Reading α size) : Reading α (size + 1) :=
  reading.widen (Nat.le_succ size)

/-- A value behind which all but one of the characters are left. -/
def done (value : α) (rest : List Char) : Reading α (rest.length + 1) :=
  .ok ⟨value, rest, Nat.lt_succ_self rest.length⟩

/-- The same result with a function applied to the value. -/
def apply (f : α → β) : Reading α size → Reading β size
  | .ok ⟨value, rest, shorter⟩ => .ok ⟨f value, rest, shorter⟩
  | .error fault => .error fault

/-- Goes on reading behind a value. -/
def andThen (reading : Reading α size)
    (next : α → (rest : List Char) → rest.length < size → Reading β size) : Reading β size :=
  match reading with
  | .ok ⟨value, rest, shorter⟩ => next value rest shorter
  | .error fault => .error fault

end Reading

/-- The characters that may stand between the parts of a document. -/
def isBlank (c : Char) : Bool :=
  c ∈ [' ', '\n', '\t', '\r']

/-- Reads the next character that is not blank. -/
def next : (cs : List Char) → Reading Char cs.length
  | [] => .error .truncated
  | c :: cs =>
    if isBlank c then
      (next cs).behind
    else
      Reading.done c cs

/-- Reads the letters that are left of a word. -/
def letters : List Char → (cs : List Char) → Reading Unit (cs.length + 1)
  | [], cs => Reading.done () cs
  | _ :: _, [] => .error .truncated
  | letter :: word, c :: cs =>
    if c = letter then (letters word cs).behind else .error .malformed

/-- Reads the colon behind a key. -/
def colon (cs : List Char) : Reading Unit cs.length :=
  (next cs).andThen fun c rest shorter =>
    if c = ':' then .ok ⟨(), rest, shorter⟩ else .error .malformed

end ScriptConsole.Json
