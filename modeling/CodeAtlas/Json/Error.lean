import CodeAtlas.Json.Document
import CodeAtlas.Text.Quoted

/-!
# Why a text was refused

A text is refused because it is no JSON text, or because it is one and does not describe the value that
was asked for. The second kind has a message.
-/

namespace CodeAtlas.Json

/-- What was found where something else was expected. -/
inductive Found where
  | null
  | boolean (b : Bool)
  | quantity (q : Quantity)
  | text (s : String)
  | sequence
  | map
  deriving DecidableEq, Repr

/-- What was expected. -/
inductive Expected where
  | text
  /-- A natural number below `2 ^ 64`. -/
  | natural
  /-- A signed number of 32 bits. -/
  | signed
  | boolean
  | sequence
  /-- A record of the given name. -/
  | record (name : String)
  /-- The name of one of a fixed list of variants. -/
  | variant
  /-- The value that goes with a variant that has none. -/
  | nothing
  deriving DecidableEq, Repr

/-- How a JSON text fails to describe a value. -/
inductive Mismatch where
  | wrongType (found : Found) (expected : Expected)
  /-- A number of the right type out of its range. -/
  | outOfRange (value : Int) (expected : Expected)
  | missingField (name : String)
  | duplicateField (name : String)
  /-- An array of `count` items for a record of more fields than that. -/
  | tooShort (count : Nat) (record : String) (fields : Nat)
  | unknownVariant (name : String) (variants : List String)
  deriving DecidableEq, Repr

/-- Why a text was refused. -/
inductive DecodeError where
  | fault (f : Fault)
  | mismatch (m : Mismatch)
  deriving DecidableEq, Repr

/-! ### Messages -/

/-- A text between backquotes. -/
def ticked (s : String) : String := "`" ++ s ++ "`"

/-- The texts with a comma and a blank between them. -/
def listed (l : List String) : String := ", ".intercalate l

namespace Found

/-- What was found, in words. -/
def describe : Found → String
  | .null => "null"
  | .boolean b => "boolean " ++ ticked (if b then "true" else "false")
  | .quantity (.natural n) => "integer " ++ ticked (toString n)
  | .quantity (.negative n) => "integer " ++ ticked ("-" ++ toString n)
  | .quantity (.floating negative magnitude) =>
    "floating point " ++ ticked ((if negative then "-" else "") ++ magnitude.text)
  | .text s => "string " ++ Text.quoted s
  | .sequence => "sequence"
  | .map => "map"

end Found

namespace Expected

/-- What was expected, in words. -/
def describe : Expected → String
  | .text => "a string"
  | .natural => "usize"
  | .signed => "i32"
  | .boolean => "a boolean"
  | .sequence => "a sequence"
  | .record name => "struct " ++ name
  | .variant => "variant identifier"
  | .nothing => "unit"

end Expected

namespace Mismatch

/-- The message of a mismatch. -/
def message : Mismatch → String
  | .wrongType found expected =>
    "invalid type: " ++ found.describe ++ ", expected " ++ expected.describe
  | .outOfRange value expected =>
    "invalid value: integer " ++ ticked (toString value) ++ ", expected " ++ expected.describe
  | .missingField name => "missing field " ++ ticked name
  | .duplicateField name => "duplicate field " ++ ticked name
  | .tooShort count record fields =>
    "invalid length " ++ toString count ++ ", expected struct " ++ record ++ " with " ++
      toString fields ++ " elements"
  | .unknownVariant name variants =>
    "unknown variant " ++ ticked name ++ ", expected one of " ++ listed (variants.map ticked)

end Mismatch

end CodeAtlas.Json
