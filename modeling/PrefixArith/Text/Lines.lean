/-!
# Lines of a text

A line ends before a line feed, and one carriage return directly before that line feed belongs to
the line end. Carriage returns elsewhere are ordinary characters. What follows the last line feed is
a line only if it is not empty.
-/
namespace PrefixArith.Text

/-- The line whose characters, in reverse, are `reversed`, without the carriage return of its
end. -/
def closedLine : List Char → List Char
  | '\r' :: reversed => reversed.reverse
  | reversed => reversed.reverse

/-- The lines of a text of which the open line so far holds `reversed`, in reverse. -/
def linesAfter (reversed : List Char) : List Char → List (List Char)
  | [] => if reversed.isEmpty then [] else [reversed.reverse]
  | c :: rest =>
    if c = '\n' then closedLine reversed :: linesAfter [] rest
    else linesAfter (c :: reversed) rest

/-- The lines of a text, in order. -/
def lines (text : String) : List String := (linesAfter [] text.toList).map String.ofList

end PrefixArith.Text
