/-!
# Reading a TOML text

A scan reads a piece from the front of a text and leaves the rest, or fails. What may stand between the
pieces is blanks, line ends and comments; no control character other than a tab stands in a text.
-/

namespace CodeAtlas.Toml

/-- A reader of a piece of text, which leaves the rest. -/
abbrev Scan := StateT (List Char) Option

namespace Scan

/-- One character of a class. -/
def one (p : Char → Bool) : Scan Char
  | [] => none
  | c :: rest => if p c then some (c, rest) else none

/-- A given character. -/
def char (c : Char) : Scan Unit := do
  let _ ← one (· = c)

/-- A given text. -/
def text (s : String) : Scan Unit := fun rest => (s.toList.isPrefixOf? rest).map ((), ·)

/-- The longest run of a class. -/
def run (p : Char → Bool) : Scan (List Char) := fun s => some (s.takeWhile p, s.dropWhile p)

/-- The longest run of a class, one character at least. -/
def run₁ (p : Char → Bool) : Scan (List Char) := do
  return (← one p) :: (← run p)

/-- Exactly `n` characters of a class. -/
def exactly (p : Char → Bool) : (n : Nat) → Scan (List Char)
  | 0 => pure []
  | n + 1 => do return (← one p) :: (← exactly p n)

/-- The next character, which stays. -/
def next? : Scan (Option Char) := fun s => some (s.head?, s)

/-- The end of the text. -/
def ending : Scan Unit := fun s => if s.isEmpty then some ((), s) else none

/-- The piece if it is there. -/
def maybe {α : Type} (m : Scan α) : Scan (Option α) := (some <$> m) <|> pure none

/-- The piece again and again until it fails, at most `n` times. -/
def upTo {α : Type} (m : Scan α) : (n : Nat) → Scan (List α)
  | 0 => pure []
  | n + 1 => do
    match ← maybe m with
    | none => return []
    | some a => return a :: (← upTo m n)

/-- The piece again and again until it fails, where the piece is never empty. -/
def many {α : Type} (m : Scan α) : Scan (List α) := fun s => upTo m s.length s

end Scan

open Scan

/-- May the character stand in a comment or a text? -/
def isPlain (c : Char) : Bool := c = '\t' || (' ' ≤ c && c ≠ '\x7f')

/-- Blanks within a line. -/
def blanks : Scan Unit := do
  let _ ← run fun c => c = ' ' || c = '\t'

/-- The end of a line. -/
def newline : Scan Unit := char '\n' <|> text "\r\n"

/-- A comment up to the end of its line. -/
def comment : Scan Unit := do
  char '#'
  let _ ← run isPlain

/-- The end of a line or of the text. -/
def lineEnd : Scan Unit := newline <|> ending

/-- What may follow on a line, and its end. -/
def lineRest : Scan Unit := do
  blanks
  let _ ← maybe comment
  lineEnd

/-- Blanks, line ends and comments. -/
def gap : Scan Unit := do
  let _ ← many (newline <|> comment <|> (do let _ ← one fun c => c = ' ' || c = '\t'))

end CodeAtlas.Toml
