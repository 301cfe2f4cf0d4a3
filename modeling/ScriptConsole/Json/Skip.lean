import ScriptConsole.Json.Number
import ScriptConsole.Json.Text

/-!
# Skipping JSON values

A value that nobody asked for still has to be well formed. `skipFrom` reads past it.
-/

namespace ScriptConsole.Json

mutual

/-- Reads past a value that starts with a given character. -/
def skipFrom (c : Char) (cs : List Char) : Reading Unit (cs.length + 1) :=
  match c with
  | 'n' => letters ['u', 'l', 'l'] cs
  | 't' => letters ['r', 'u', 'e'] cs
  | 'f' => letters ['a', 'l', 's', 'e'] cs
  | '"' => (skipText cs).behind
  | '[' => (skipElements cs).behind
  | '\x7b' => (skipMembers cs).behind
  | c => if c = '-' ∨ c.isDigit then skipNumberFrom c cs else .error .malformed
termination_by (cs.length, 3)

/-- Reads past the elements of a list behind its opening bracket. -/
def skipElements (cs : List Char) : Reading Unit cs.length :=
  (next cs).andThen fun c rest shorter =>
    if c = ']' then
      .ok ⟨(), rest, shorter⟩
    else
      ((skipFrom c rest).andThen fun _ rest' shorter' =>
        (skipMoreElements rest').widen (Nat.le_of_lt shorter')).widen shorter
termination_by (cs.length, 2)

/-- Reads past the elements that are left of a list behind one of them. -/
def skipMoreElements (cs : List Char) : Reading Unit cs.length :=
  (next cs).andThen fun c rest shorter =>
    if c = ']' then
      .ok ⟨(), rest, shorter⟩
    else if c = ',' then
      ((next rest).andThen fun c rest' shorter' =>
        ((skipFrom c rest').andThen fun _ rest'' shorter'' =>
          (skipMoreElements rest'').widen (Nat.le_of_lt shorter'')).widen shorter').widen
            (Nat.le_of_lt shorter)
    else
      .error .malformed
termination_by (cs.length, 2)

/-- Reads past the members of an object behind its opening brace. -/
def skipMembers (cs : List Char) : Reading Unit cs.length :=
  (next cs).andThen fun c rest shorter =>
    if c = '\x7d' then .ok ⟨(), rest, shorter⟩ else (skipMemberFrom c rest).widen shorter
termination_by (cs.length, 2)

/-- Reads past a member that starts with a given character, which has to be a quote, and all members
behind it. -/
def skipMemberFrom (c : Char) (cs : List Char) : Reading Unit (cs.length + 1) :=
  if c = '"' then
    ((skipText cs).andThen fun _ rest shorter =>
      ((colon rest).andThen fun _ rest' shorter' =>
        ((next rest').andThen fun c rest'' shorter'' =>
          ((skipFrom c rest'').andThen fun _ rest''' shorter''' =>
            (skipMoreMembers rest''').widen (Nat.le_of_lt shorter''')).widen shorter'').widen
              (Nat.le_of_lt shorter')).widen (Nat.le_of_lt shorter)).behind
  else
    .error .malformed
termination_by (cs.length, 1)

/-- Reads past the members that are left of an object behind one of them. -/
def skipMoreMembers (cs : List Char) : Reading Unit cs.length :=
  (next cs).andThen fun c rest shorter =>
    if c = '\x7d' then
      .ok ⟨(), rest, shorter⟩
    else if c = ',' then
      ((next rest).andThen fun c rest' shorter' =>
        (skipMemberFrom c rest').widen shorter').widen (Nat.le_of_lt shorter)
    else
      .error .malformed
termination_by (cs.length, 2)

end

/-- Reads past a value. -/
def skip (cs : List Char) : Reading Unit cs.length :=
  (next cs).andThen fun c rest shorter => (skipFrom c rest).widen shorter

end ScriptConsole.Json
