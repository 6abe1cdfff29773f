import CodeAtlas.Usage.Literal
import Mathlib.Data.Nat.Notation

/-!
# Quoted literals

A line is always read from its start, so what is known at a place depends on all that stands before it.  It does
so through a state alone: reading on is a fold (`QuoteState.scan_append`), and where the state is neutral the
past is forgotten.

A literal is read from one neutral state to the next.  Its quote character leads into the state `inside`, and
each item of its body leads back there (`LiteralBody.scan_eq`).  In between the literal stays open, also in the
middle of an escape (`LiteralBody.quote_scan_take`).
-/

namespace CodeAtlas

/-- What may stand between two quote characters `q`: a character that is neither the quote character nor a
backslash stands for itself, and a backslash takes any one character with it. -/
inductive LiteralBody (q : Char) : List Char → Prop where
  | nil : LiteralBody q []
  | plain {c : Char} {body : List Char} : c ≠ q → c ≠ '\\' → LiteralBody q body → LiteralBody q (c :: body)
  | escape (c : Char) {body : List Char} : LiteralBody q body → LiteralBody q ('\\' :: c :: body)

namespace QuoteState

/-- Inside of a literal that `q` opened. -/
def inside (q : Char) : QuoteState := { quote := some q, escaped := false }

variable {q c : Char} {s : QuoteState}

theorem scan_cons (s : QuoteState) (c : Char) (text : List Char) : s.scan (c :: text) = (s.step c).scan text :=
  rfl

theorem scan_append (s : QuoteState) (a b : List Char) : s.scan (a ++ b) = (s.scan a).scan b :=
  List.foldl_append

theorem ne_backslash_of_isQuote (hq : isQuote q = true) : q ≠ '\\' := by
  intro heq
  rw [heq] at hq
  exact absurd hq (by decide)

theorem step_opening (hq : isQuote q = true) : neutral.step q = inside q := by
  simp [step, neutral, inside, hq, ne_backslash_of_isQuote hq]

theorem step_closing (hq : isQuote q = true) : (inside q).step q = neutral := by
  simp [step, neutral, inside, ne_backslash_of_isQuote hq]

theorem step_plain (hne : c ≠ q) (hplain : c ≠ '\\') : (inside q).step c = inside q := by
  simp [step, inside, hplain, Ne.symm hne]

theorem step_backslash (q : Char) : (inside q).step '\\' = { inside q with escaped := true } := rfl

theorem step_escaped (q c : Char) : { inside q with escaped := true }.step c = inside q := rfl

end QuoteState

open QuoteState

namespace LiteralBody

variable {q : Char} {body : List Char}

theorem scan_eq (h : LiteralBody q body) : (inside q).scan body = inside q := by
  induction h with
  | nil => rfl
  | plain hne hplain _ ih => rw [scan_cons, step_plain hne hplain, ih]
  | escape c _ ih => rw [scan_cons, scan_cons, step_backslash, step_escaped, ih]

/-- Wherever reading stops in a body, the literal is still open. -/
theorem quote_scan_take (h : LiteralBody q body) (k : ℕ) : ((inside q).scan (body.take k)).quote = some q := by
  induction h generalizing k with
  | nil =>
    rw [List.take_nil]
    rfl
  | @plain c body hne hplain _ ih =>
    cases k with
    | zero => rfl
    | succ k =>
      rw [List.take_succ_cons, scan_cons, step_plain hne hplain]
      exact ih k
  | @escape c body _ ih =>
    -- one character further, only the backslash of the escape is read
    match k with
    | 0 => rfl
    | 1 => rfl
    | k + 2 =>
      rw [List.take_succ_cons, List.take_succ_cons, scan_cons, scan_cons, step_backslash, step_escaped]
      exact ih k

/-- Reading a literal leads from one neutral state to the next. -/
theorem scan_quoted (h : LiteralBody q body) (hq : isQuote q = true) :
    neutral.scan (q :: body ++ [q]) = neutral := by
  rw [List.cons_append, scan_cons, step_opening hq, scan_append, h.scan_eq, scan_cons, step_closing hq]
  rfl

end LiteralBody

theorem outsideLiteral_of_neutral {text : List Char} (h : neutral.scan text = neutral) :
    outsideLiteral text = true := by
  rw [outsideLiteral, h]
  rfl

/-- **Quoted literals are recognised.**  Let a text end in the neutral state, and let a literal and anything else
follow it.  The place of the opening quote character is outside of literals.  From right behind it up to the
closing one every place is inside of the literal.  Right behind the closing one the state is neutral again and
the place is outside, and from there on a place is outside of literals exactly if it is so in the rest of the
line alone. -/
theorem outsideLiteral_quoted {p : List Char} (hp : neutral.scan p = neutral) {q : Char}
    (hq : isQuote q = true) {body : List Char} (hbody : LiteralBody q body) (rest : List Char) :
    let line := p ++ (q :: body ++ [q]) ++ rest
    let closing := p.length + 1 + body.length
    outsideLiteral (line.take p.length) = true ∧
      (∀ offset, p.length + 1 ≤ offset → offset ≤ closing → outsideLiteral (line.take offset) = false) ∧
      neutral.scan (line.take (closing + 1)) = neutral ∧
      outsideLiteral (line.take (closing + 1)) = true ∧
      ∀ k, outsideLiteral (line.take (closing + 1 + k)) = outsideLiteral (rest.take k) := by
  intro line closing
  have hquoted : neutral.scan (p ++ (q :: body ++ [q])) = neutral := by
    rw [scan_append, hp, hbody.scan_quoted hq]
  have hlength : (p ++ (q :: body ++ [q])).length = closing + 1 := by
    simp only [List.length_append, List.length_cons, List.length_nil, closing]
    omega
  have hscan : neutral.scan (line.take (closing + 1)) = neutral := by rw [← hlength, List.take_left, hquoted]
  refine ⟨?_, ?_, hscan, outsideLiteral_of_neutral hscan, ?_⟩
  · rw [show line = p ++ (q :: (body ++ (q :: rest))) by simp [line], List.take_left]
    exact outsideLiteral_of_neutral hp
  · intro offset hopening hclosing
    obtain ⟨k, rfl⟩ := Nat.exists_eq_add_of_le hopening
    have hk : k ≤ body.length := by omega
    have htake : line.take (p.length + 1 + k) = p ++ q :: body.take k := by
      rw [show line = p ++ (q :: (body ++ (q :: rest))) by simp [line], Nat.add_assoc,
        List.take_length_add_append, Nat.add_comm 1 k, List.take_succ_cons, List.take_append_of_le_length hk]
    rw [htake, outsideLiteral, scan_append, hp, scan_cons, step_opening hq, hbody.quote_scan_take]
    rfl
  · intro k
    rw [← hlength, List.take_length_add_append, outsideLiteral, scan_append, hquoted]
    rfl

/-- Another quote character and an escaped one stand in the literal, and the last quote character opens a new
one. -/
theorem outsideLiteral_quoted_escaped :
    LiteralBody '\'' "it\\'s \"".toList ∧
      "f('it\\'s \"') + `x".toList = "f(".toList ++ ('\'' :: "it\\'s \"".toList ++ ['\'']) ++ ") + `x".toList ∧
      outsideLiteral ("f('it\\'s \"') + `x".toList.take 2) = true ∧
      (∀ offset, 3 ≤ offset → offset ≤ 10 → outsideLiteral ("f('it\\'s \"') + `x".toList.take offset) = false) ∧
      neutral.scan ("f('it\\'s \"') + `x".toList.take 11) = neutral ∧
      outsideLiteral ("f('it\\'s \"') + `x".toList.take 11) = true ∧
      ∀ k, outsideLiteral ("f('it\\'s \"') + `x".toList.take (11 + k)) = outsideLiteral (") + `x".toList.take k) := by
  have hbody : LiteralBody '\'' "it\\'s \"".toList :=
    .plain (by decide) (by decide) <| .plain (by decide) (by decide) <| .escape '\'' <|
      .plain (by decide) (by decide) <| .plain (by decide) (by decide) <| .plain (by decide) (by decide) .nil
  have hline : "f('it\\'s \"') + `x".toList =
      "f(".toList ++ ('\'' :: "it\\'s \"".toList ++ ['\'']) ++ ") + `x".toList := by decide
  refine ⟨hbody, hline, ?_⟩
  rw [hline]
  exact outsideLiteral_quoted (p := "f(".toList) (by decide) (by decide) hbody ") + `x".toList

end CodeAtlas
