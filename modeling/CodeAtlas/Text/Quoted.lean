import CodeAtlas.Text.Printable

/-!
# Quoted texts

Messages show a text between double quotes. Quotes, backslashes and the common controls have short
escapes; whatever else would not be seen is written by its code point.
-/

namespace CodeAtlas.Text

/-- The digits of a number to base sixteen. -/
def hexDigits (n : Nat) : List Char :=
  Nat.toDigits 16 n

/-- A character as it stands inside a quoted text. -/
def quotedChar (c : Char) : List Char :=
  match c with
  | '"' => ['\\', '"']
  | '\\' => ['\\', '\\']
  | '\n' => ['\\', 'n']
  | '\r' => ['\\', 'r']
  | '\t' => ['\\', 't']
  | '\x00' => ['\\', '0']
  | c => if isPrintable c then [c] else ['\\', 'u', '\x7b'] ++ hexDigits c.toNat ++ ['\x7d']

/-- The text between double quotes. -/
def quoted (s : String) : String :=
  String.ofList ('"' :: s.toList.flatMap quotedChar ++ ['"'])

/-! ### Examples -/

example : quoted "9\"q" = "\"9\\\"q\"" := by decide +kernel

end CodeAtlas.Text
