/-!
# Lines of a text

A line ends at a line feed, and a carriage return right before the line feed goes with it. What follows
the last line feed is a line only if it is not empty, and there a carriage return stays.
-/

namespace CodeAtlas.Text

/-- The line whose characters, last one first, are `read`, closed by a line feed. -/
def closeLine : List Char → List Char
  | '\r' :: read => read.reverse
  | read => read.reverse

/-- The lines of what remains, when `read` holds the characters of the open line, last one first. -/
def linesFrom : (read : List Char) → List Char → List (List Char)
  | [], [] => []
  | c :: read, [] => [(c :: read).reverse]
  | read, '\n' :: rest => closeLine read :: linesFrom [] rest
  | read, c :: rest => linesFrom (c :: read) rest

/-- The lines of a text. -/
def lines (text : List Char) : List (List Char) :=
  linesFrom [] text

/-! ### Examples -/

example : lines "a\r\n\nb\r".toList = ["a".toList, [], "b\r".toList] := by decide

example : lines "a\n".toList = ["a".toList] := by decide

end CodeAtlas.Text
