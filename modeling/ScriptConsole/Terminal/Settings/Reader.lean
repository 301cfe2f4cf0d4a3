import ScriptConsole.Json.Skip
import ScriptConsole.Terminal.Settings

/-!
# Reading settings

Settings are written as a JSON object whose members are fields by name, in any order, or as a JSON
list whose elements are the fields in the order of `Field.all`. Fields that are left out have their
defaults. A field must not be given twice, and members that are no field are skipped.
-/

namespace ScriptConsole

namespace Json

/-- Why the value that starts with a given character is not of the kind that is wanted. A value that
is not well formed is malformed first of all; lists and objects are not looked into. -/
def unwanted (c : Char) (cs : List Char) : Fault :=
  let faultOf {α : Type} (reading : Reading α (cs.length + 1)) : Fault := match reading with
    | .ok _ => .mismatch
    | .error fault => fault
  match c with
  | 'n' => faultOf (letters ['u', 'l', 'l'] cs)
  | 't' => faultOf (letters ['r', 'u', 'e'] cs)
  | 'f' => faultOf (letters ['a', 'l', 's', 'e'] cs)
  | '"' => faultOf ((text cs).behind)
  | '[' | '\x7b' => .mismatch
  | c => if c = '-' ∨ c.isDigit then faultOf (finiteFrom c cs) else .malformed

/-- Reads a natural number below a bound. -/
def natural (bound : Nat) (cs : List Char) : Reading Nat cs.length :=
  (next cs).andThen fun c rest shorter =>
    if c = '-' ∨ c.isDigit then
      ((finiteFrom c rest).andThen fun numeral rest' shorter' =>
        match numeral.natural? with
        | some n => if n < bound then .ok ⟨n, rest', shorter'⟩ else .error .mismatch
        | none => .error .mismatch).widen shorter
    else
      .error (unwanted c rest)

/-- Reads a string that starts with a given character. -/
def stringFrom (c : Char) (cs : List Char) : Reading String (cs.length + 1) :=
  if c = '"' then (text cs).behind else .error (unwanted c cs)

/-- Reads a string. -/
def string (cs : List Char) : Reading String cs.length :=
  (next cs).andThen fun c rest shorter => (stringFrom c rest).widen shorter

/-- Reads the strings that are left of a list behind one of them. -/
def moreStrings (cs : List Char) : Reading (List String) cs.length :=
  (next cs).andThen fun c rest shorter =>
    if c = ']' then
      .ok ⟨[], rest, shorter⟩
    else if c = ',' then
      ((next rest).andThen fun c rest' shorter' =>
        if c = ']' then
          .error .malformed
        else
          ((stringFrom c rest').andThen fun s rest'' shorter'' =>
            ((moreStrings rest'').apply (s :: ·)).widen (Nat.le_of_lt shorter'')).widen
              shorter').widen (Nat.le_of_lt shorter)
    else
      .error .malformed
termination_by cs.length

/-- Reads a list of strings. -/
def strings (cs : List Char) : Reading (List String) cs.length :=
  (next cs).andThen fun c rest shorter =>
    if c = '[' then
      ((next rest).andThen fun c rest' shorter' =>
        if c = ']' then
          .ok ⟨[], rest', shorter'⟩
        else
          ((stringFrom c rest').andThen fun s rest'' shorter'' =>
            ((moreStrings rest'').apply (s :: ·)).widen (Nat.le_of_lt shorter'')).widen
              shorter').widen (Nat.le_of_lt shorter)
    else
      .error (unwanted c rest)

end Json

namespace Settings

/-- The fields of settings. -/
inductive Field
  | width
  | height
  | maxInput
  | scrollback
  | tabWidth
  | banner
  | textColor
  | inputColor
  | cursorColor
  | resultMarker
  | errorMarker
deriving DecidableEq, Repr

namespace Field

/-- All fields, in the order in which a list gives them. -/
def all : List Field :=
  [.width, .height, .maxInput, .scrollback, .tabWidth, .banner, .textColor, .inputColor,
    .cursorColor, .resultMarker, .errorMarker]

/-- The name of a field in an object. -/
def name : Field → String
  | .width => "width"
  | .height => "height"
  | .maxInput => "max_input"
  | .scrollback => "scrollback"
  | .tabWidth => "tab_width"
  | .banner => "banner"
  | .textColor => "text_color"
  | .inputColor => "input_color"
  | .cursorColor => "cursor_color"
  | .resultMarker => "result_marker"
  | .errorMarker => "error_marker"

/-- The field with a given name. -/
def ofName? (name : String) : Option Field :=
  all.find? fun field => field.name == name

/-- The bound of measures, `2 ^ 64`. -/
def measureBound : Nat := 18446744073709551616

/-- Reads a measure. -/
def measure (cs : List Char) : Json.Reading Nat cs.length :=
  Json.natural measureBound cs

/-- Reads a colour. -/
def color (cs : List Char) : Json.Reading UInt8 cs.length :=
  (Json.natural 256 cs).apply Nat.toUInt8

/-- Reads the value of a field into settings. -/
def read (field : Field) (settings : Settings) (cs : List Char) :
    Json.Reading Settings cs.length :=
  match field with
  | .width => (measure cs).apply fun n => { settings with width := n }
  | .height => (measure cs).apply fun n => { settings with height := n }
  | .maxInput => (measure cs).apply fun n => { settings with maxInput := n }
  | .scrollback => (measure cs).apply fun n => { settings with scrollback := n }
  | .tabWidth => (measure cs).apply fun n => { settings with tabWidth := n }
  | .banner => (Json.strings cs).apply fun banner => { settings with banner }
  | .textColor => (color cs).apply fun c => { settings with textColor := c }
  | .inputColor => (color cs).apply fun c => { settings with inputColor := c }
  | .cursorColor => (color cs).apply fun c => { settings with cursorColor := c }
  | .resultMarker => (Json.string cs).apply fun s => { settings with resultMarker := s }
  | .errorMarker => (Json.string cs).apply fun s => { settings with errorMarker := s }

/-- Every field is listed. -/
theorem mem_all (field : Field) : field ∈ all := by
  cases field <;> decide

/-- A field is found by its name. -/
@[simp]
theorem ofName?_name (field : Field) : ofName? field.name = some field := by
  cases field <;> decide

end Field

/-- Reads the value of a member behind its key, into settings in which some fields are given. -/
def readMember (given : List Field) (settings : Settings) (key : String) (cs : List Char) :
    Json.Reading (List Field × Settings) cs.length :=
  match Field.ofName? key with
  | some field =>
    if field ∈ given then
      .error .mismatch
    else
      (Json.colon cs).andThen fun _ rest shorter =>
        ((field.read settings rest).apply fun settings => (field :: given, settings)).widen
          (Nat.le_of_lt shorter)
  | none =>
    (Json.colon cs).andThen fun _ rest shorter =>
      ((Json.skip rest).apply fun _ => (given, settings)).widen (Nat.le_of_lt shorter)

/-- Reads a member behind the opening quote of its key. -/
def readMemberText (given : List Field) (settings : Settings) (cs : List Char) :
    Json.Reading (List Field × Settings) cs.length :=
  (Json.text cs).andThen fun key rest shorter =>
    (readMember given settings key rest).widen (Nat.le_of_lt shorter)

/-- Reads the members that are left of an object behind one of them. -/
def readMoreMembers (given : List Field) (settings : Settings) (cs : List Char) :
    Json.Reading Settings cs.length :=
  (Json.next cs).andThen fun c rest shorter =>
    if c = '\x7d' then
      .ok ⟨settings, rest, shorter⟩
    else if c = ',' then
      ((Json.next rest).andThen fun c rest' shorter' =>
        if c = '"' then
          ((readMemberText given settings rest').andThen fun (given, settings) rest'' shorter'' =>
            (readMoreMembers given settings rest'').widen (Nat.le_of_lt shorter'')).widen
              (Nat.le_of_lt shorter')
        else
          .error .malformed).widen (Nat.le_of_lt shorter)
    else
      .error .malformed
termination_by cs.length

/-- Reads the members of an object behind its opening brace. -/
def readMembers (cs : List Char) : Json.Reading Settings cs.length :=
  (Json.next cs).andThen fun c rest shorter =>
    if c = '\x7d' then
      .ok ⟨{}, rest, shorter⟩
    else if c = '"' then
      ((readMemberText [] {} rest).andThen fun (given, settings) rest' shorter' =>
        (readMoreMembers given settings rest').widen (Nat.le_of_lt shorter')).widen
          (Nat.le_of_lt shorter)
    else
      .error .malformed

/-- Reads the elements that are left of a list behind one of them, for the fields that are left. -/
def readMoreElements (settings : Settings) : List Field → (cs : List Char) →
    Json.Reading Settings cs.length
  | [], cs =>
    (Json.next cs).andThen fun c rest shorter =>
      if c = ']' then .ok ⟨settings, rest, shorter⟩ else .error .malformed
  | field :: fields, cs =>
    (Json.next cs).andThen fun c rest shorter =>
      if c = ']' then
        .ok ⟨settings, rest, shorter⟩
      else if c = ',' then
        match Json.next rest with
        | .ok ⟨']', _, _⟩ => .error .malformed
        | _ =>
          ((field.read settings rest).andThen fun settings rest' shorter' =>
            (readMoreElements settings fields rest').widen (Nat.le_of_lt shorter')).widen
              (Nat.le_of_lt shorter)
      else
        .error .malformed

/-- Reads the elements of a list behind its opening bracket. -/
def readElements (cs : List Char) : Json.Reading Settings cs.length :=
  match Json.next cs with
  | .ok ⟨']', rest, shorter⟩ => .ok ⟨{}, rest, shorter⟩
  | .error fault => .error fault
  | _ =>
    (Field.width.read {} cs).andThen fun settings rest shorter =>
      (readMoreElements settings (Field.all.drop 1) rest).widen (Nat.le_of_lt shorter)

/-- Reads a document, behind which only blanks may stand. -/
def ofJson (document : String) : Except Json.Fault Settings := do
  let start ← Json.next document.toList
  let settings ← match start.value with
    | '\x7b' => readMembers start.rest
    | '[' => readElements start.rest
    | c => .error (Json.unwanted c start.rest)
  match Json.next settings.rest with
  | .error _ => return settings.value
  | .ok _ => .error .malformed

end Settings

end ScriptConsole
