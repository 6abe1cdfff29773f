import CodeAtlas.Text.Range

/-!
# Blank characters and trimming

Blank are the code points with the Unicode property White_Space. Text is trimmed of blanks at its start,
at its end or at both, and a text of blanks alone counts as empty.
-/

namespace CodeAtlas.Text

/-- The code points with the property White_Space. -/
def blankRanges : List (Nat × Nat) :=
  [(0x9, 0xD), (0x20, 0x20), (0x85, 0x85), (0xA0, 0xA0), (0x1680, 0x1680), (0x2000, 0x200A),
   (0x2028, 0x2029), (0x202F, 0x202F), (0x205F, 0x205F), (0x3000, 0x3000)]

/-- Is the character blank? -/
def isBlank (c : Char) : Bool :=
  inRanges blankRanges c

/-- Drop the blanks at the start. -/
def trimStart (s : List Char) : List Char :=
  s.dropWhile isBlank

/-- Drop the blanks at the end. -/
def trimEnd (s : List Char) : List Char :=
  (s.reverse.dropWhile isBlank).reverse

/-- Drop the blanks at both ends. -/
def trim (s : List Char) : List Char :=
  trimEnd (trimStart s)

/-- Does the text hold nothing but blanks? -/
def isBlankText (s : String) : Bool :=
  s.toList.all isBlank

/-! ### Examples -/

/-- A no-break space is blank. -/
example : isBlankText "\t\u00a0\n" = true := by decide

/-- A zero-width space is not. -/
example : isBlankText "\u200b" = false := by decide

end CodeAtlas.Text
