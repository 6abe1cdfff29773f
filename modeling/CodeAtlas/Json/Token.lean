import CodeAtlas.Json.Numeral

/-!
# Tokens of JSON text

The tokens of a text, broken ones included. Whether a broken token is a fault of the text or only its
early end depends on who meets it, so the token keeps what is needed to tell. String literals are kept as
written: a character outside the basic plane may be written as two 16-bit units, and a unit without its
other half is refused only by whoever needs the text.
-/

namespace CodeAtlas.Json

/-- Why a text is no JSON text. -/
inductive Fault where
  /-- Something stands where it may not stand. -/
  | malformed
  /-- The text ends too early. -/
  | truncated
  deriving DecidableEq, Repr

/-- One item of a string literal. -/
inductive TextPart where
  /-- A character, written as itself or by a short escape. -/
  | char (c : Char)
  /-- A 16-bit unit, written by four hexadecimal digits. -/
  | unit (u : Nat)
  deriving DecidableEq, Repr

/-- A string literal as written. -/
abbrev RawText := List TextPart

/-- A token. -/
inductive Token where
  | openArray
  | closeArray
  | openObject
  | closeObject
  | comma
  | colon
  | null
  | bool (b : Bool)
  | number (n : Numeral)
  | text (t : RawText)
  /-- A string literal that is not closed: what was read of it, and why it stops. -/
  | brokenText (read : RawText) (fault : Fault)
  /-- A number that lacks a digit; does the text end there? -/
  | brokenNumber (atEnd : Bool)
  /-- A word that starts like `null`, `true` or `false`; does the text end there? -/
  | brokenWord (atEnd : Bool)
  /-- A character that starts no token. -/
  | stray
  deriving DecidableEq, Repr

/-! ### String literals -/

namespace RawText

/-- Is the unit the first half of a pair? -/
def isLead (u : Nat) : Bool := 0xD800 ≤ u && u ≤ 0xDBFF

/-- Is the unit the second half of a pair? -/
def isTrail (u : Nat) : Bool := 0xDC00 ≤ u && u ≤ 0xDFFF

/-- The character that two units of a pair stand for. -/
def paired (lead trail : Nat) : Char :=
  Char.ofNat ((lead - 0xD800) * 0x400 + (trail - 0xDC00) + 0x10000)

/-- The characters of a literal, if every half of a pair has its other half right beside it. -/
def chars? : RawText → Option (List Char)
  | [] => some []
  | .char c :: rest => (chars? rest).map (c :: ·)
  | .unit u :: .unit v :: rest =>
    if isLead u then
      if isTrail v then (chars? rest).map (paired u v :: ·) else none
    else if isTrail u then none
    else (chars? (.unit v :: rest)).map (Char.ofNat u :: ·)
  | .unit u :: rest =>
    if isLead u || isTrail u then none else (chars? rest).map (Char.ofNat u :: ·)

/-- The text of a literal, if every half of a pair has its other half right beside it. -/
def text? (t : RawText) : Option String :=
  (chars? t).map String.ofList

/-- Is a half of a pair already known to be alone, whatever follows? -/
def flawed : RawText → Bool
  | [] => false
  | .char _ :: rest => flawed rest
  | .unit u :: .unit v :: rest =>
    if isLead u then !isTrail v || flawed rest
    else isTrail u || flawed (.unit v :: rest)
  | [.unit u] => isTrail u
  | .unit u :: rest => isLead u || isTrail u || flawed rest

end RawText

end CodeAtlas.Json
