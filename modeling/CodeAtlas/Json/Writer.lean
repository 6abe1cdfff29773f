/-!
# Writing JSON text

Values to write, and their two layouts: compact, without blanks, and spread, one member or item to a line
and two blanks to a level.
-/

namespace CodeAtlas.Json

/-- A value to write. The members of an object are written in the given order. -/
inductive Value where
  | null
  | bool (b : Bool)
  | number (n : Int)
  | text (s : String)
  | array (items : List Value)
  | object (members : List (String × Value))
  deriving BEq, Repr

namespace Value

/-! ### Texts -/

/-- A digit to base sixteen. -/
def hexDigit (n : Nat) : Char :=
  Char.ofNat (if n < 10 then '0'.toNat + n else 'a'.toNat + (n - 10))

/-- A character inside a string literal: quotes, backslashes and controls are escaped. -/
def escapedChar (c : Char) : List Char :=
  match c with
  | '"' => ['\\', '"']
  | '\\' => ['\\', '\\']
  | '\x08' => ['\\', 'b']
  | '\x0c' => ['\\', 'f']
  | '\n' => ['\\', 'n']
  | '\r' => ['\\', 'r']
  | '\t' => ['\\', 't']
  | c =>
    if c.toNat < 0x20 then
      ['\\', 'u', '0', '0', hexDigit (c.toNat / 16), hexDigit (c.toNat % 16)]
    else [c]

/-- A text as string literal. -/
def literal (s : String) : List Char :=
  '"' :: s.toList.flatMap escapedChar ++ ['"']

/-! ### Layouts -/

/-- The blanks at the start of a line. -/
def indent (level : Nat) : List Char :=
  '\n' :: List.replicate (2 * level) ' '

mutual

/-- The compact text. -/
def compact : Value → List Char
  | .null => "null".toList
  | .bool b => (if b then "true" else "false").toList
  | .number n => (toString n).toList
  | .text s => literal s
  | .array [] => ['[', ']']
  | .array (v :: rest) => '[' :: v.compact ++ compactItems rest
  | .object [] => ['\x7b', '\x7d']
  | .object ((k, v) :: rest) => '\x7b' :: literal k ++ ':' :: v.compact ++ compactMembers rest

/-- The items after the first one, and the end of the array. -/
def compactItems : List Value → List Char
  | [] => [']']
  | v :: rest => ',' :: v.compact ++ compactItems rest

/-- The members after the first one, and the end of the object. -/
def compactMembers : List (String × Value) → List Char
  | [] => ['\x7d']
  | (k, v) :: rest => ',' :: literal k ++ ':' :: v.compact ++ compactMembers rest

end

mutual

/-- The spread text, `level` levels deep. -/
def spreadAt (level : Nat) : Value → List Char
  | .null => "null".toList
  | .bool b => (if b then "true" else "false").toList
  | .number n => (toString n).toList
  | .text s => literal s
  | .array [] => ['[', ']']
  | .array (v :: rest) =>
    '[' :: indent (level + 1) ++ v.spreadAt (level + 1) ++ spreadItems level rest
  | .object [] => ['\x7b', '\x7d']
  | .object ((k, v) :: rest) =>
    '\x7b' :: indent (level + 1) ++ literal k ++ ':' :: ' ' :: v.spreadAt (level + 1) ++
      spreadMembers level rest

/-- The items after the first one, and the end of the array. -/
def spreadItems (level : Nat) : List Value → List Char
  | [] => indent level ++ [']']
  | v :: rest => ',' :: indent (level + 1) ++ v.spreadAt (level + 1) ++ spreadItems level rest

/-- The members after the first one, and the end of the object. -/
def spreadMembers (level : Nat) : List (String × Value) → List Char
  | [] => indent level ++ ['\x7d']
  | (k, v) :: rest =>
    ',' :: indent (level + 1) ++ literal k ++ ':' :: ' ' :: v.spreadAt (level + 1) ++
      spreadMembers level rest

end

/-- The text without blanks. -/
def compactText (v : Value) : String := String.ofList v.compact

/-- The text spread over lines. -/
def spreadText (v : Value) : String := String.ofList (v.spreadAt 0)

/-! ### Parts of values -/

/-- A natural number. -/
def natural (n : Nat) : Value := .number n

/-- A list of texts. -/
def texts (l : List String) : Value := .array (l.map .text)

/-- A member that is left out if there is no value for it. -/
def member? {α : Type} (name : String) (write : α → Value) : Option α → List (String × Value)
  | none => []
  | some a => [(name, write a)]

end Value

end CodeAtlas.Json
