import CodeAtlas.Number.Binary64

/-!
# Shortest decimal text

A binary floating point number is written with the fewest digits that read back as the same number, and of
the decimals with so many digits the nearest one. Small and moderate numbers are written positionally,
the others with a power of ten.
-/

namespace CodeAtlas.Number

/-- A decimal: `digits * 10 ^ (exponent - (number of digits - 1))`, so that the first digit stands at
`10 ^ exponent`. -/
structure Decimal where
  digits : Nat
  exponent : Int
  deriving DecidableEq, Repr

namespace Binary64

/-- `10 ^ e` for `e` at least zero, otherwise one. -/
def raiseTen (e : Int) : Nat := Nat.pow 10 e.toNat

/-- The exponent of the first decimal digit of `num / den`. -/
def decimalExponent (num den : Nat) : Int :=
  let guess : Int := ((num.log2 : Int) - den.log2) * 30103 / 100000
  let reaches (e : Int) : Bool := den * raiseTen e ≤ num * raiseTen (-e)
  if reaches (guess + 1) then guess + 1 else if reaches guess then guess else guess - 1

/-- Does the decimal `n * 10 ^ scale` read back as the number? It has to lie within half a step of it,
and the ends of that interval count for even mantissas. -/
def readsBack (x : Binary64) (n : Nat) (scale : Int) : Bool :=
  -- Everything is compared in quarters of the step `2 ^ x.exponent`.
  let unit := x.exponent - 2
  let value := n * raiseTen scale * raise (-unit)
  let per := raiseTen (-scale) * raise unit
  let below := if x.mantissa = leastFull && minExponent < x.exponent then 1 else 2
  let low := (4 * x.mantissa - below) * per
  let high := (4 * x.mantissa + 2) * per
  if x.mantissa % 2 = 0 then low ≤ value && value ≤ high else low < value && value < high

/-- The shortest decimal with `count` digits or more; seventeen always suffice. -/
def shortestFrom (x : Binary64) (num den : Nat) (exponent : Int) : (fuel count : Nat) → Decimal
  | 0, count => ⟨num * raiseTen (-(exponent - count)) / (den * raiseTen (exponent - count)), exponent⟩
  | fuel + 1, count =>
    let scale := exponent - (count - 1 : Nat)
    let top := num * raiseTen (-scale)
    let bottom := den * raiseTen scale
    let down := top / bottom
    let near := roundDiv top bottom
    let far := if near = down then down + 1 else down
    if x.readsBack near scale then ⟨near, exponent⟩
    else if x.readsBack far scale then ⟨far, exponent⟩
    else shortestFrom x num den exponent fuel (count + 1)

/-- The shortest decimal that reads back as the number. -/
def shortest (x : Binary64) : Decimal :=
  let (num, den) := x.ratio
  let exponent := decimalExponent num den
  let d := shortestFrom x num den exponent 17 1
  -- A number just below a power of ten may round up to it.
  if d.digits = Nat.pow 10 (toString d.digits).length.pred && d.digits ≠ 1 then ⟨1, exponent + 1⟩ else d

/-! ### The written form -/

/-- Digits with the point at its place, at least one digit on each side of it. -/
def positional (digits : List Char) (exponent : Int) : List Char :=
  if exponent < 0 then
    '0' :: '.' :: List.replicate (-exponent - 1).toNat '0' ++ digits
  else
    let whole := exponent.toNat + 1
    let fraction := digits.drop whole
    digits.take whole ++ List.replicate (whole - digits.length) '0' ++
      '.' :: (if fraction.isEmpty then ['0'] else fraction)

/-- One digit before the point, and a signed power of ten of two digits or more. -/
def scientific (digits : List Char) (exponent : Int) : List Char :=
  let fraction := digits.drop 1
  let power := (toString exponent.natAbs).toList
  digits.take 1 ++ (if fraction.isEmpty then [] else '.' :: fraction) ++
    'e' :: (if exponent < 0 then '-' else '+') ::
      (List.replicate (2 - power.length) '0' ++ power)

/-- The text of a number: positional when the first digit stands between `10 ^ -5` and `10 ^ 15`. -/
def text (x : Binary64) : String :=
  if x.mantissa = 0 then "0.0"
  else
    let d := x.shortest
    let digits := (toString d.digits).toList
    String.ofList <|
      if -5 ≤ d.exponent && d.exponent ≤ 15 then positional digits d.exponent
      else scientific digits d.exponent

end Binary64

end CodeAtlas.Number
