import CodeAtlas.Number.Shortest
import CodeAtlas.Number.Word

/-!
# Numerals

A JSON number as written: sign, digits before and after the point, power of ten. Its value is a natural
number below `2 ^ 64`, a negative number down to `-2 ^ 63`, or else a floating point number. Digits are
gathered into a significand as long as it stays below `2 ^ 64`; further digits before the point raise the
power of ten, further digits behind it are dropped.
-/

namespace CodeAtlas.Json

/-- A number as written. -/
structure Numeral where
  negative : Bool
  /-- The digits before the point. -/
  whole : List Nat
  /-- The digits behind the point; none if there is no point. -/
  fraction : List Nat
  /-- The power of ten: is it negative, and its digits. -/
  power : Option (Bool × List Nat)
  deriving DecidableEq, Repr

/-- What a numeral stands for. -/
inductive Quantity where
  | natural (n : Nat)
  /-- The number `-n`. -/
  | negative (n : Nat)
  | floating (negative : Bool) (magnitude : Number.Binary64)
  deriving DecidableEq, Repr

namespace Numeral

/-- The bound that a significand stays below. -/
def significandBound : Nat := Number.bound64

/-- The bound that the written power of ten stays below. -/
def powerBound : Nat := Number.bound31

/-- Gather digits before the point: the significand, and how many digits did not fit into it. -/
def gatherWhole (significand : Nat) : List Nat → Nat × Nat
  | [] => (significand, 0)
  | d :: rest =>
    if significand * 10 + d < significandBound then gatherWhole (significand * 10 + d) rest
    else (significand, rest.length + 1)

/-- Gather digits behind the point: the significand, and how many digits fitted into it. -/
def gatherFraction (significand : Nat) : List Nat → Nat × Nat
  | [] => (significand, 0)
  | d :: rest =>
    if significand * 10 + d < significandBound then
      let (total, count) := gatherFraction (significand * 10 + d) rest
      (total, count + 1)
    else (significand, 0)

/-- The written power of ten, or nothing if it is out of bounds. -/
def gatherPower (total : Nat) : List Nat → Option Nat
  | [] => some total
  | d :: rest => if total * 10 + d < powerBound then gatherPower (total * 10 + d) rest else none

/-- The greatest power of ten that is a floating point number. -/
def maxTen : Nat := 308

/-- The floating point number nearest to a power of ten. -/
def tenTo (n : Nat) : Number.Binary64 :=
  (Number.Binary64.ofNat (Nat.pow 10 n)).getD Number.Binary64.zero

/-- A number divided by `10 ^ n`, in steps of at most `10 ^ 308`. After two full steps nothing is left
of a significand. -/
def shrink : (steps : Nat) → Number.Binary64 → (n : Nat) → Option Number.Binary64
  | 0, _, _ => some Number.Binary64.zero
  | steps + 1, x, n =>
    if n ≤ maxTen then x.div (tenTo n)
    else if x.mantissa = 0 then some x
    else (x.div (tenTo maxTen)).bind fun y => shrink steps y (n - maxTen)

/-- The floating point number `significand * 10 ^ exponent`, or nothing if it is too large. -/
def scaled (significand : Nat) (exponent : Int) : Option Number.Binary64 :=
  (Number.Binary64.ofNat significand).bind fun x =>
    if 0 ≤ exponent then
      if exponent.toNat ≤ maxTen then x.mul (tenTo exponent.toNat)
      else if x.mantissa = 0 then some x
      else none
    else shrink 4 x exponent.natAbs

/-- The value of a numeral, or nothing if it is too large for a floating point number. -/
def quantity? (n : Numeral) : Option Quantity :=
  let (significand, raised) := gatherWhole 0 n.whole
  match n.fraction, n.power with
  | [], none =>
    if 0 < raised then (scaled significand raised).map (.floating n.negative)
    else if !n.negative then some (.natural significand)
    else if 0 < significand && significand ≤ Number.bound63 then some (.negative significand)
    else (scaled significand 0).map (.floating true)
  | fraction, power =>
    let (significand, lowered) := gatherFraction significand fraction
    let exponent : Int := raised - lowered
    match power with
    | none => (scaled significand exponent).map (.floating n.negative)
    | some (negative, digits) =>
      match gatherPower 0 digits with
      | some p =>
        (scaled significand (if negative then exponent - p else exponent + p)).map
          (.floating n.negative)
      | none =>
        if significand = 0 || negative then some (.floating n.negative Number.Binary64.zero)
        else none

end Numeral

end CodeAtlas.Json
