import CodeAtlas.Number.Binary64
import CodeAtlas.Number.Word
import CodeAtlas.Toml.Text

/-!
# Numbers, dates and times

Only integers are kept; of a floating point number it is checked that it is not too large, and of a date
or a time that it exists.
-/

namespace CodeAtlas.Toml

open Scan

/-! ### Numbers -/

/-- Digits of a class with single underscores between them. -/
def digitGroups (p : Char → Bool) : Scan (List Char) := do
  let first ← one p
  let more ← many (one p <|> (do char '_'; one p))
  return first :: more

/-- A plus or minus sign: is the number negative? -/
def sign : Scan Bool := do
  match ← maybe (one fun c => c = '+' || c = '-') with
  | some '-' => return true
  | _ => return false

/-- A decimal number without a leading zero, with its sign. -/
def decimal : Scan (Bool × List Char) := do
  let negative ← sign
  if (← next?) = some '0' then
    char '0'
    return (negative, ['0'])
  else
    return (negative, ← digitGroups Char.isDigit)

/-- An integer in a base other than ten, behind a mark that names it. -/
def based (mark : String) (base : Nat) : Scan Int := do
  text mark
  return spelled base (← digitGroups fun c => (hexDigit? c).any (· < base))

/-- An integer. -/
def integer : Scan Int := do
  let n ← based "0x" 16 <|> based "0o" 8 <|> based "0b" 2 <|> (do
    let (negative, digits) ← decimal
    let n : Int := spelled 10 digits
    return if negative then -n else n)
  if Number.fitsSigned Number.bound63 n then return n else failure

/-- A power of ten behind its mark. -/
def powerOfTen : Scan Int := do
  let _ ← one fun c => c = 'e' || c = 'E'
  let negative ← sign
  let n : Int := spelled 10 (← digitGroups Char.isDigit)
  return if negative then -n else n

/-- Is `significand * 10 ^ power` too large for a floating point number? -/
def overflows (significand : Nat) (power : Int) : Bool :=
  let order : Int := power + (Nat.toDigits 10 significand).length
  if significand = 0 || order ≤ 308 then false
  else if 309 < order then true
  else (Number.Binary64.ofRatio (significand * Nat.pow 10 power.toNat) (Nat.pow 10 (-power).toNat)).isNone

/-- A floating point number with a fraction, a power of ten or both. -/
def floating : Scan Unit := do
  let (negative, whole) ← decimal
  let fraction ← maybe (do char '.'; digitGroups Char.isDigit)
  let power ← if fraction.isSome then maybe powerOfTen else some <$> powerOfTen
  let digits := fraction.getD []
  if !negative && overflows (spelled 10 (whole ++ digits)) (power.getD 0 - digits.length) then failure

/-- A floating point number that is written as a word. -/
def specialFloating : Scan Unit := do
  let _ ← sign
  text "inf" <|> text "nan"

/-! ### Dates and times -/

/-- A number of exactly `n` digits within bounds. -/
def field (n low high : Nat) : Scan Nat := do
  let value := spelled 10 (← exactly Char.isDigit n)
  if low ≤ value && value ≤ high then return value else failure

/-- Does the year have a 29th of February? -/
def isLeapYear (year : Nat) : Bool := year % 4 = 0 && (year % 100 ≠ 0 || year % 400 = 0)

/-- The number of days of a month. -/
def daysOf (year month : Nat) : Nat :=
  if month = 2 then (if isLeapYear year then 29 else 28)
  else if month = 4 || month = 6 || month = 9 || month = 11 then 30
  else 31

/-- A day of the calendar. -/
def date : Scan Unit := do
  let year ← field 4 0 9999
  char '-'
  let month ← field 2 1 12
  char '-'
  let _ ← field 2 1 (daysOf year month)

/-- A time of day. -/
def time : Scan Unit := do
  let _ ← field 2 0 23
  char ':'
  let _ ← field 2 0 59
  char ':'
  let _ ← field 2 0 60
  let _ ← maybe (do char '.'; run₁ Char.isDigit)

/-- The distance from universal time. -/
def zone : Scan Unit := do
  match ← one fun c => c = 'Z' || c = 'z' || c = '+' || c = '-' with
  | '+' | '-' =>
    let _ ← field 2 0 23
    char ':'
    let _ ← field 2 0 59
  | _ => return

/-- A date, a time or both. -/
def moment : Scan Unit :=
  (do
    date
    let _ ← maybe (do
      let _ ← one fun c => c = 'T' || c = 't' || c = ' '
      time
      let _ ← maybe zone)) <|> time

/-! ### Examples -/

example : (integer "-9_2x".toList).map Prod.fst = some (-92) := by decide +kernel

example : (integer "0xfF".toList).map Prod.fst = some 255 := by decide +kernel

example : (moment "1900-02-29".toList).isNone = true := by decide +kernel

end CodeAtlas.Toml
