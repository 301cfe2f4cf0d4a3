import ScriptConsole.Text.Invisible

/-!
# Escaped text

A text between quotes that shows exactly which characters it holds: quotes and backslashes are
escaped, common controls have short names, and invisible characters are written by number.
-/

namespace ScriptConsole.Text.Escaped

/-- A number in hexadecimal, with small letters. -/
def hex (n : Nat) : List Char :=
  Nat.toDigits 16 n

/-- The escaped form of one character. -/
def char (c : Char) : List Char :=
  match c with
  | '\x00' => ['\\', '0']
  | '\t' => ['\\', 't']
  | '\n' => ['\\', 'n']
  | '\r' => ['\\', 'r']
  | '"' => ['\\', '"']
  | '\\' => ['\\', '\\']
  | c =>
    if isInvisible c then
      '\\' :: 'u' :: '\x7b' :: hex c.toNat ++ ['\x7d']
    else
      [c]

/-- The escaped form of a text, between quotes. -/
def text (s : String) : String :=
  String.ofList ('"' :: s.toList.flatMap char ++ ['"'])

end ScriptConsole.Text.Escaped
