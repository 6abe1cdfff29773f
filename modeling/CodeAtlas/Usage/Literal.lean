/-!
# Inside and outside of string literals

A line is read from its start. A quote character opens a literal, and the same character closes it. A
backslash takes the next character's meaning away, inside a literal and outside.
-/

namespace CodeAtlas

/-- What a reader of a line knows. -/
structure QuoteState where
  /-- The character that opened a literal. -/
  quote : Option Char
  /-- Was the last character a backslash that counts? -/
  escaped : Bool
  deriving DecidableEq, Repr

namespace QuoteState

/-- Outside of any literal. -/
def neutral : QuoteState := { quote := none, escaped := false }

/-- Does the character open literals? -/
def isQuote (c : Char) : Bool :=
  c = '\'' || c = '"' || c = '\x60'

/-- Read one more character. -/
def step (s : QuoteState) (c : Char) : QuoteState :=
  if s.escaped then { s with escaped := false }
  else if c = '\\' then { s with escaped := true }
  else
    match s.quote with
    | none => if isQuote c then { s with quote := some c } else s
    | some q => if q = c then { s with quote := none } else s

/-- Read a text. -/
def scan (s : QuoteState) (text : List Char) : QuoteState :=
  text.foldl step s

end QuoteState

/-- Is the end of the text outside of every literal? -/
def outsideLiteral (text : List Char) : Bool :=
  (QuoteState.neutral.scan text).quote.isNone

end CodeAtlas
