/-!
# Lines of a text

A line ends at a line feed, and a carriage return right before the line feed belongs to the end.
A last line without a line feed counts if it holds a character.
-/

namespace DemandPaging.Text

/-- The line whose characters are `reversed`, last first, without a carriage return at its end. -/
def endedLine : List Char → List Char
  | '\r' :: reversed => reversed.reverse
  | reversed => reversed.reverse

/-- The lines of a text whose first line has the characters `reversed` before it, last first. -/
def linesAfter (reversed : List Char) : List Char → List (List Char)
  | [] => if reversed.isEmpty then [] else [reversed.reverse]
  | c :: cs => if c = '\n' then endedLine reversed :: linesAfter [] cs
      else linesAfter (c :: reversed) cs

/-- The lines of a text. -/
def lines (cs : List Char) : List (List Char) := linesAfter [] cs

end DemandPaging.Text
