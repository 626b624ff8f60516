/-! # Lines of a text

A line ends with a line feed, and one carriage return directly before the line feed belongs to the
ending. What follows the last line feed is a line only if it is not empty, and keeps a carriage
return at its end.
-/

namespace HackAssembler.Text

/-- A line without the carriage return that precedes its line feed. -/
def dropReturn (line : List Char) : List Char :=
  if line.getLast? = some '\r' then line.dropLast else line

/-- The lines among the parts of a text between its line feeds. The last part has no line feed
after it. -/
def linesOfParts (parts : List (List Char)) : List (List Char) :=
  parts.dropLast.map dropReturn ++ (parts.getLast?.filter fun rest => !rest.isEmpty).toList

/-- The lines of a text, without their endings. -/
def lines (text : String) : List (List Char) :=
  linesOfParts (text.toList.splitOn '\n')

example : lines "a\r\n\nb\r" = [['a'], [], ['b', '\r']] := by decide

example : lines "a\n" = [['a']] := by decide

end HackAssembler.Text
