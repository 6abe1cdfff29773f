import CodeAtlas.Toml.Scan

/-!
# Texts and keys

A text stands between quotation marks, where a backslash escapes, or between apostrophes, where it does
not. Three marks in a row enclose a text of several lines; a line end right behind the opening marks is
dropped, every other one is a line feed, and one or two marks may stand anywhere, also right before the
closing ones.
-/

namespace CodeAtlas.Toml

open Scan

/-- The value of a hexadecimal digit. -/
def hexDigit? (c : Char) : Option Nat :=
  if c.isDigit then some (c.toNat - '0'.toNat)
  else if 'a' ≤ c && c ≤ 'f' then some (c.toNat - 'a'.toNat + 10)
  else if 'A' ≤ c && c ≤ 'F' then some (c.toNat - 'A'.toNat + 10)
  else none

/-- The number that digits spell in a base, each digit below it. -/
def spelled (base : Nat) (digits : List Char) : Nat :=
  digits.foldl (fun n c => n * base + (hexDigit? c).getD 0) 0

/-- The character with the number that `n` hexadecimal digits spell. -/
def numbered (n : Nat) : Scan Char := do
  let digits ← exactly (fun c => (hexDigit? c).isSome) n
  let code := spelled 16 digits
  if code.isValidChar then return Char.ofNat code else failure

/-- An escaped character. -/
def escaped : Scan Char := do
  char '\\'
  match ← one fun _ => true with
  | 'b' => return '\x08'
  | 't' => return '\t'
  | 'n' => return '\n'
  | 'f' => return '\x0c'
  | 'r' => return '\r'
  | '"' => return '"'
  | '\\' => return '\\'
  | 'u' => numbered 4
  | 'U' => numbered 8
  | _ => failure

/-- May the character stand for itself between quotation marks? -/
def isBasic (c : Char) : Bool := isPlain c && c ≠ '"' && c ≠ '\\'

/-- May the character stand between apostrophes? -/
def isLiteral (c : Char) : Bool := isPlain c && c ≠ '\''

/-- A text between quotation marks on one line. -/
def basicText : Scan (List Char) := do
  char '"'
  let content ← many (one isBasic <|> escaped)
  char '"'
  return content

/-- A text between apostrophes on one line. -/
def literalText : Scan (List Char) := do
  char '\''
  let content ← run isLiteral
  char '\''
  return content

/-! ### Several lines -/

/-- A line end as part of a text. -/
def lineFeed : Scan (List Char) := do
  newline
  return ['\n']

/-- A backslash at the end of a line, which joins the lines and drops the blanks between them. -/
def continuation : Scan (List Char) := do
  char '\\'
  blanks
  newline
  let _ ← many (newline <|> (do let _ ← one fun c => c = ' ' || c = '\t'))
  return []

/-- The content and the closing marks of a text of several lines, in at most `n` pieces. -/
def linesUpTo (mark : Char) (piece : Scan (List Char)) : (n : Nat) → Scan (List Char)
  | 0 => failure
  | n + 1 => do
    let marks := ((← get).takeWhile (· = mark)).length
    if 3 ≤ marks then
      let closing := min marks 5
      let _ ← exactly (· = mark) closing
      return List.replicate (closing - 3) mark
    else
      let _ ← exactly (· = mark) marks
      let content ← piece
      return List.replicate marks mark ++ content ++ (← linesUpTo mark piece n)

/-- A text of several lines between three marks. -/
def enclosedLines (mark : Char) (piece : Scan (List Char)) : Scan (List Char) := do
  let _ ← exactly (· = mark) 3
  let _ ← maybe newline
  fun s => linesUpTo mark piece s.length s

/-- A text of several lines between quotation marks. -/
def basicLines : Scan (List Char) :=
  enclosedLines '"' <|
    run₁ isBasic <|> lineFeed <|> continuation <|> (do return [← escaped])

/-- A text of several lines between apostrophes. -/
def literalLines : Scan (List Char) :=
  enclosedLines '\'' (run₁ isLiteral <|> lineFeed)

/-- Any text. -/
def anyText : Scan (List Char) := basicLines <|> basicText <|> literalLines <|> literalText

/-! ### Keys -/

/-- May the character stand in a key without quotes? -/
def isKeyChar (c : Char) : Bool := c.isAlphanum || c = '_' || c = '-'

/-- One part of a key. -/
def keyPart : Scan String := do
  blanks
  let part ← basicText <|> literalText <|> run₁ isKeyChar
  blanks
  return String.ofList part

/-- A key has fewer parts than this, and values are nested less deeply. -/
def nestingLimit : Nat := 80

/-- A key: its first part and the parts behind dots. -/
def key : Scan (String × List String) := do
  let first ← keyPart
  let more ← many (do char '.'; keyPart)
  if more.length + 1 < nestingLimit then return (first, more) else failure

end CodeAtlas.Toml
