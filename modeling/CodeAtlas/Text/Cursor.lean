import CodeAtlas.Text.Blank
import CodeAtlas.Text.Word

/-!
# Cursors and matchers

A cursor is a place in a line: what stands before it, last character first, and what stands behind it.
A matcher leads from a place to the places where a piece of text that it recognises may end, the
preferred place first. Matchers are put together in sequence and as alternatives; the preferred place of
a sequence is the one that the earliest preferences lead to.

A run of characters comes in three forms. `longest` ends in one place only and is right where what
follows cannot start with a character of the run; `greedy` and `lazily` offer every shorter run as well,
from the long end and from the short end.
-/

namespace CodeAtlas.Text

/-- A place in a line. -/
structure Cursor where
  /-- The characters before the place, last one first. -/
  before : List Char
  /-- The characters behind the place. -/
  after : List Char
  deriving DecidableEq, Repr

namespace Cursor

/-- The place before the first character. -/
def start (line : List Char) : Cursor := ⟨[], line⟩

/-- The number of characters before the place. -/
def column (c : Cursor) : Nat := c.before.length

/-- The whole line. -/
def line (c : Cursor) : List Char := c.before.reverse ++ c.after

/-- Is the place between a word character and none? -/
def atBoundary (c : Cursor) : Bool :=
  c.before.head?.any isWord != c.after.head?.any isWord

end Cursor

/-- The places where a piece of text may end, the preferred one first. -/
abbrev Matcher := Cursor → List Cursor

namespace Matcher

/-- Nothing at all. -/
def empty : Matcher := fun c => [c]

/-- The start of the line. -/
def lineStart : Matcher := fun c => if c.before.isEmpty then [c] else []

/-- The edge of a word. -/
def boundary : Matcher := fun c => if c.atBoundary then [c] else []

/-- One character of a class. -/
def one (p : Char → Bool) : Matcher
  | ⟨_, []⟩ => []
  | ⟨before, c :: after⟩ => if p c then [⟨c :: before, after⟩] else []

/-- The characters of a list in order. -/
def chars : (l : List Char) → Matcher
  | [], c => [c]
  | _ :: _, ⟨_, []⟩ => []
  | l :: rest, ⟨before, c :: after⟩ => if l = c then chars rest ⟨c :: before, after⟩ else []

/-- A given text. -/
def text (s : String) : Matcher := chars s.toList

/-- One piece after another. -/
def andThen (m n : Matcher) : Matcher := fun c => (m c).flatMap n

/-- The pieces one after another. -/
def all : List Matcher → Matcher
  | [] => empty
  | m :: rest => andThen m (all rest)

/-- One of the pieces, an earlier one preferred. -/
def any : List Matcher → Matcher
  | [] => fun _ => []
  | m :: rest => fun c => m c ++ any rest c

/-- One of the given texts, an earlier one preferred. -/
def words (l : List String) : Matcher := any (l.map text)

/-- The piece if it is there, preferred, or nothing. -/
def optional (m : Matcher) : Matcher := fun c => m c ++ [c]

/-- The piece again and again, as often as possible preferred, at most `n` times. -/
def repeated (m : Matcher) : (n : Nat) → Matcher
  | 0 => empty
  | n + 1 => fun c => (m c).flatMap (repeated m n) ++ [c]

/-- The ends of all runs of a class at a place, the shortest first. -/
def runs (p : Char → Bool) (before : List Char) : (after : List Char) → List Cursor
  | [] => [⟨before, []⟩]
  | c :: after => ⟨before, c :: after⟩ :: (if p c then runs p (c :: before) after else [])

/-- A run of a class, shorter ones preferred. -/
def lazily (p : Char → Bool) : Matcher := fun c => runs p c.before c.after

/-- A run of a class, longer ones preferred. -/
def greedy (p : Char → Bool) : Matcher := fun c => (runs p c.before c.after).reverse

/-- The end of the longest run of a class. -/
def runEnd (p : Char → Bool) (before : List Char) : (after : List Char) → Cursor
  | [] => ⟨before, []⟩
  | c :: after => if p c then runEnd p (c :: before) after else ⟨before, c :: after⟩

/-- The longest run of a class. -/
def longest (p : Char → Bool) : Matcher := fun c => [runEnd p c.before c.after]

/-- The longest run of a class, one character at least. -/
def longest₁ (p : Char → Bool) : Matcher := andThen (one p) (longest p)

/-- All blanks. -/
def blanks : Matcher := longest isBlank

/-- All blanks, one at least. -/
def blanks₁ : Matcher := longest₁ isBlank

/-- Some blanks, more preferred, where the next piece may start with a blank itself. -/
def someBlanks : Matcher := greedy isBlank

/-- Some blanks, one at least and more preferred, where the next piece may start with a blank itself. -/
def someBlanks₁ : Matcher := andThen (one isBlank) (greedy isBlank)

end Matcher

end CodeAtlas.Text
