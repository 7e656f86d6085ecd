-- The lines of a text: a line feed ends a line, and one carriage return right
-- before it goes with it. What follows the last line feed is a line only if
-- it holds something, and keeps a carriage return at its end.

namespace Pseudocode.Text

/-- A line without the carriage return that a line feed took along. -/
def dropReturn (line : List Char) : List Char :=
  if line.getLast? = some '\r' then line.dropLast else line

/-- The lines of the characters still to come, where `line` holds the
characters of the current line in reverse. -/
def linesFrom (line : List Char) : List Char → List (List Char)
  | [] => if line = [] then [] else [line.reverse]
  | c :: cs =>
    if c = '\n' then dropReturn line.reverse :: linesFrom [] cs
    else linesFrom (c :: line) cs

/-- The lines of a text, without their ends. -/
def lines (text : String) : List String :=
  (linesFrom [] text.toList).map String.ofList

end Pseudocode.Text
