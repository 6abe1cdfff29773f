/-!
# Binary floating point numbers

The non-negative numbers of the 64-bit binary format, as a mantissa times a power of two, with rounding
to the nearest such number. Everything is exact arithmetic on natural numbers.
-/

namespace CodeAtlas.Number

/-- Nearest integer to a quotient; of two equally near ones the even one. -/
def roundDiv (num den : Nat) : Nat :=
  let q := num / den
  let r := num % den
  if den < 2 * r || (2 * r = den && q % 2 = 1) then q + 1 else q

/-- The number `mantissa * 2 ^ exponent`. -/
structure Binary64 where
  mantissa : Nat
  exponent : Int
  deriving DecidableEq, Repr

namespace Binary64

/-- The least exponent, that of zero and of the numbers nearest to it. -/
def minExponent : Int := -1074

/-- The greatest exponent. -/
def maxExponent : Int := 971

/-- A mantissa has fewer bits than this many, and exactly one bit fewer unless the exponent is the
least. -/
def mantissaBits : Nat := 53

/-- The least mantissa with as many bits as a mantissa may have. -/
def leastFull : Nat := Nat.pow 2 (mantissaBits - 1)

/-- Zero. -/
def zero : Binary64 := ⟨0, minExponent⟩

/-- `2 ^ e` for `e` at least zero, otherwise one. -/
def raise (e : Int) : Nat := Nat.pow 2 e.toNat

/-- The number as numerator and denominator. -/
def ratio (x : Binary64) : Nat × Nat :=
  (x.mantissa * raise x.exponent, raise (-x.exponent))

/-- The nearest number to `num / den`, or nothing if it is too large. -/
def ofRatio (num den : Nat) : Option Binary64 :=
  if num = 0 then some zero
  else
    let guess : Int := num.log2 - den.log2 - (mantissaBits - 1 : Nat)
    let full (e : Int) : Bool := den * raise e * leastFull ≤ num * raise (-e)
    let e := max minExponent (if full guess then guess else guess - 1)
    let m := roundDiv (num * raise (-e)) (den * raise e)
    let (m, e) := if m = 2 * leastFull then (leastFull, e + 1) else (m, e)
    if maxExponent < e then none else some ⟨m, e⟩

/-- The nearest number to a natural number. -/
def ofNat (n : Nat) : Option Binary64 := ofRatio n 1

/-- The product, rounded; nothing if it is too large. -/
def mul (x y : Binary64) : Option Binary64 :=
  let (a, b) := x.ratio
  let (c, d) := y.ratio
  ofRatio (a * c) (b * d)

/-- The quotient by a number other than zero, rounded; nothing if it is too large. -/
def div (x y : Binary64) : Option Binary64 :=
  let (a, b) := x.ratio
  let (c, d) := y.ratio
  ofRatio (a * d) (b * c)

/-! ### Examples -/

example : ofRatio 1 10 = some ⟨7205759403792794, -56⟩ := by decide

example : ofNat (2 ^ 53 + 1) = some ⟨2 ^ 52, 1⟩ := by decide

example : ofNat (10 ^ 309) = none := by decide +kernel

end Binary64

end CodeAtlas.Number
