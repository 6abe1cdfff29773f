/-!
# Looking for a text inside another
-/

namespace CodeAtlas.Text

/-- Does `part` stand somewhere in the text? -/
def contains (part : List Char) : List Char → Bool
  | [] => part.isEmpty
  | c :: text => part.isPrefixOf (c :: text) || contains part text

/-- A text stands in another exactly when it is followed and preceded by something. -/
theorem contains_iff {part text : List Char} : contains part text = true ↔ part <:+: text := by
  induction text with
  | nil => rw [contains, List.isEmpty_iff, List.infix_nil]
  | cons c text ih =>
    rw [contains, Bool.or_eq_true, List.isPrefixOf_iff_prefix, ih, List.infix_cons_iff]

end CodeAtlas.Text
