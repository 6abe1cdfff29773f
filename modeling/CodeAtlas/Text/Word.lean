import CodeAtlas.Text.Alphabetic
import CodeAtlas.Text.Mark
import CodeAtlas.Text.Numeral

/-!
# Word characters

Two classes that agree on ASCII and part beyond it.

* `isWord` decides where a word ends: alphabetic characters, combining marks, decimal digits, connecting
  punctuation such as the underscore, and the two invisible joiners.
* `isNameChar` decides what belongs to a name: alphabetic characters, every kind of number, and the
  underscore alone of the punctuation.

A superscript two is a name character and no word character; a combining accent is a word character and
mostly no name character.
-/

namespace CodeAtlas.Text

/-- Connecting punctuation: the underscore and its relatives. -/
def connectorRanges : List (Nat × Nat) :=
  [(0x5F, 0x5F), (0x203F, 0x2040), (0x2054, 0x2054), (0xFE33, 0xFE34), (0xFE4D, 0xFE4F),
   (0xFF3F, 0xFF3F)]

/-- The invisible characters that join or part their neighbours. -/
def joinerRanges : List (Nat × Nat) :=
  [(0x200C, 0x200D)]

/-- Is the character part of a word? -/
def isWord (c : Char) : Bool :=
  if c.toNat < 0x80 then c.isAlphanum || c = '_'
  else isAlphabetic c || isMark c || isDecimal c || inRanges connectorRanges c ||
    inRanges joinerRanges c

/-- Is the character a letter or a number of any script? -/
def isAlphanumeric (c : Char) : Bool :=
  if c.toNat < 0x80 then c.isAlphanum
  else isAlphabetic c || isDecimal c || isOtherNumber c

/-- Is the character part of a name? -/
def isNameChar (c : Char) : Bool :=
  isAlphanumeric c || c = '_'

/-- On ASCII the two classes agree. -/
theorem isWord_eq_isNameChar_of_ascii {c : Char} (h : c.toNat < 0x80) : isWord c = isNameChar c := by
  simp [isWord, isNameChar, isAlphanumeric, h]

end CodeAtlas.Text
