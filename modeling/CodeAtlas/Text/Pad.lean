/-!
# Columns

Texts are filled with blanks to a width counted in characters; a text that is already as wide stays as
it is.
-/

namespace CodeAtlas.Text

/-- Blanks behind the text, up to the width. -/
def padRight (width : Nat) (s : String) : String :=
  s ++ String.ofList (List.replicate (width - s.length) ' ')

/-- Blanks before the text, up to the width. -/
def padLeft (width : Nat) (s : String) : String :=
  String.ofList (List.replicate (width - s.length) ' ') ++ s

/-- The text written out `n` times. -/
def repeated (n : Nat) (s : String) : String :=
  String.join (List.replicate n s)

end CodeAtlas.Text
