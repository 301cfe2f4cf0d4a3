/-!
# Lines

Ways to cut a text or bytes into lines.
-/

namespace ScriptConsole.Text

/-- The lines of a text without their ends. A line ends with a line feed, which one carriage return
may stand in front of; behind the last end only a line that is not empty counts. -/
def lines : List Char → List (List Char)
  | [] => []
  | '\n' :: cs => [] :: lines cs
  | '\r' :: '\n' :: cs => [] :: lines cs
  | c :: cs =>
    match lines cs with
    | [] => [[c]]
    | line :: rest => (c :: line) :: rest

/-- The byte that ends a line. -/
def lineFeed : UInt8 := 10

/-- Cuts bytes behind each line feed. -/
def byteLines : List UInt8 → List (List UInt8)
  | [] => []
  | b :: bytes =>
    if b = lineFeed then
      [b] :: byteLines bytes
    else
      match byteLines bytes with
      | [] => [[b]]
      | line :: rest => (b :: line) :: rest

/-- A text without the carriage returns and line feeds at its end. -/
def chomp (s : String) : String :=
  String.ofList (s.toList.reverse.dropWhile fun c => c = '\r' || c = '\n').reverse

end ScriptConsole.Text
