/-!
# Numbers of a fixed number of bits
-/

namespace CodeAtlas.Number

/-- Natural numbers of 64 bits are below `2 ^ 64`. -/
def bound64 : Nat := 18446744073709551616

/-- Signed numbers of 64 bits are below `2 ^ 63` and at least its negative. -/
def bound63 : Nat := 9223372036854775808

/-- Signed numbers of 32 bits are below `2 ^ 31` and at least its negative. -/
def bound31 : Nat := 2147483648

/-- Does a number fit into a signed number of which each magnitude stays below a bound? -/
def fitsSigned (bound : Nat) (n : Int) : Bool := -(bound : Int) ≤ n && n < bound

/-! ### Examples -/

example : bound64 = 2 ^ 64 := by decide

example : bound63 = 2 ^ 63 := by decide

example : bound31 = 2 ^ 31 := by decide

end CodeAtlas.Number
