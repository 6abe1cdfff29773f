/-!
# Ranges of code points

A Unicode property is kept as a list of closed ranges of code points; a character has the property when
some range holds it.
-/

namespace CodeAtlas.Text

/-- Does one of the closed ranges hold the character's code point? -/
def inRanges (ranges : List (Nat × Nat)) (c : Char) : Bool :=
  ranges.any fun r => r.1 ≤ c.toNat && c.toNat ≤ r.2

/-- Having the property means lying in one of its ranges. -/
theorem inRanges_iff {ranges : List (Nat × Nat)} {c : Char} :
    inRanges ranges c = true ↔ ∃ r ∈ ranges, r.1 ≤ c.toNat ∧ c.toNat ≤ r.2 := by
  simp [inRanges]

end CodeAtlas.Text
