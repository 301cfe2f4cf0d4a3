/-!
# Writing JSON

A document is written with one member or element a line, indented by two spaces a level.
-/

namespace ScriptConsole.Json

/-- A document. -/
inductive Document
  | null
  | bool (b : Bool)
  | number (n : Int)
  | string (s : String)
  | list (elements : List Document)
  | object (members : List (String × Document))
deriving Inhabited

/-- The form of a character inside a string: quotes, backslashes and controls are escaped. -/
def escapedChar (c : Char) : List Char :=
  match c with
  | '"' => ['\\', '"']
  | '\\' => ['\\', '\\']
  | '\x08' => ['\\', 'b']
  | '\x0c' => ['\\', 'f']
  | '\n' => ['\\', 'n']
  | '\r' => ['\\', 'r']
  | '\t' => ['\\', 't']
  | c =>
    if c.toNat < 0x20 then
      ['\\', 'u', '0', '0', Nat.digitChar (c.toNat / 16), Nat.digitChar (c.toNat % 16)]
    else
      [c]

/-- A string between quotes. -/
def quoted (s : String) : String :=
  String.ofList ('"' :: s.toList.flatMap escapedChar ++ ['"'])

/-- The start of a line at a level. -/
def newLine (level : Nat) : String :=
  "\n" ++ String.ofList (List.replicate (2 * level) ' ')

/-- Writes items between brackets, each on a line of its own; no items take no line. -/
def bracketed (level : Nat) (opening closing : String) : List String → String
  | [] => opening ++ closing
  | items =>
    opening ++ ",".intercalate (items.map (newLine (level + 1) ++ ·)) ++ newLine level ++ closing

namespace Document

mutual

/-- Writes a document that stands at a level. -/
def write (level : Nat) : Document → String
  | .null => "null"
  | .bool b => if b then "true" else "false"
  | .number n => toString n
  | .string s => quoted s
  | .list elements => bracketed level "[" "]" (writeElements (level + 1) elements)
  | .object members => bracketed level "\x7b" "\x7d" (writeMembers (level + 1) members)

/-- Writes the elements of a list. -/
def writeElements (level : Nat) : List Document → List String
  | [] => []
  | element :: rest => element.write level :: writeElements level rest

/-- Writes the members of an object. -/
def writeMembers (level : Nat) : List (String × Document) → List String
  | [] => []
  | (key, value) :: rest => (quoted key ++ ": " ++ value.write level) :: writeMembers level rest

end

end Document

end ScriptConsole.Json
