import CodeAtlas.Json.Lexer
import CodeAtlas.Json.Writer
import Mathlib.Algebra.Order.Group.Unbundled.Int
import Mathlib.Data.List.Basic

/-!
# Texts and numbers as they are written

A character of a string literal may be written as itself, by a short escape or by four hexadecimal digits, and a
power of ten may be marked in two ways and signed in three.  For all these texts this file says what the lexer makes
of them and what that stands for.

* `LiteralText t s` — `s` is one of the texts of the literal `t`, and the lexer finds the literal in it
  (`lexText_of_literalText`);
* `RawText.Writes t cs` — the literal writes the characters, and they are read off it (`RawText.Writes.text?_eq`);
* `NumeralText n s` — `s` is one of the texts of the numeral `n`;
* `RawText.ofText s`, `Numeral.ofInt n` — the literal and the numeral that are written for a text and for an
  integer, which have the written texts among theirs (`literalText_ofText`, `numeralText_ofInt`).  The quantity of
  the numeral is the integer as long as that fits into 64 bits (`Numeral.quantity?_ofInt`,
  `Numeral.quantity?_ofInt_neg`).
-/

namespace CodeAtlas.Json

/-! ### String literals -/

/-- The part of a literal that stands for a character: most controls are written as units. -/
def TextPart.ofChar (c : Char) : TextPart :=
  if c.toNat < 0x20 ∧ c ∉ ['\x08', '\x0c', '\n', '\r', '\t'] then .unit c.toNat else .char c

/-- The literal of a text. -/
def RawText.ofText (s : String) : RawText := s.toList.map TextPart.ofChar

theorem hexUnit?_hexDigit : ∀ n < 32,
    hexUnit? '0' '0' (Value.hexDigit (n / 16)) (Value.hexDigit (n % 16)) = some n := by
  decide

/-- The text of a string literal between its quotes, one step for each of its parts. -/
inductive LiteralText : RawText → List Char → Prop where
  | nil : LiteralText [] []
  /-- A character may stand for itself. -/
  | plain {c : Char} {t : RawText} {s : List Char} (hquote : c ≠ '"') (hslash : c ≠ '\\')
      (hcontrol : ¬c.toNat < 0x20) (more : LiteralText t s) : LiteralText (.char c :: t) (c :: s)
  | escape {e c : Char} {t : RawText} {s : List Char} (hshort : shortEscape? e = some c)
      (more : LiteralText t s) : LiteralText (.char c :: t) ('\\' :: e :: s)
  | unit {a b c d : Char} {u : ℕ} {t : RawText} {s : List Char} (hhex : hexUnit? a b c d = some u)
      (more : LiteralText t s) : LiteralText (.unit u :: t) ('\\' :: 'u' :: a :: b :: c :: d :: s)

/-- A character that is written as itself is read as itself. -/
theorem lexText_plain {c : Char} (hquote : c ≠ '"') (hslash : c ≠ '\\') (hcontrol : ¬c.toNat < 0x20)
    (rest : List Char) : lexText (c :: rest) = RawText.prepend (.char c) (lexText rest) := by
  rw [lexText.eq_def]
  split <;> simp_all

theorem lexText_of_literalText {t : RawText} {s : List Char} (h : LiteralText t s) (rest : List Char) :
    lexText (s ++ '"' :: rest) = (t, .ok rest) := by
  induction h with
  | nil => rfl
  | plain hquote hslash hcontrol _ ih =>
    rw [List.cons_append, lexText_plain hquote hslash hcontrol, ih]
    rfl
  | @escape e c t s hshort _ ih =>
    have hstep : lexText ('\\' :: e :: (s ++ '"' :: rest)) =
        RawText.prepend (.char c) (lexText (s ++ '"' :: rest)) := by
      unfold shortEscape? at hshort
      split at hshort
      all_goals cases hshort
      all_goals rfl
    rw [List.cons_append, List.cons_append, hstep, ih]
    rfl
  | unit hhex _ ih =>
    simp only [List.cons_append]
    rw [lexText, hhex]
    simp only [ih]
    rfl

/-- What is written for a character is a text of its part. -/
theorem literalText_escapedChar (c : Char) {t : RawText} {s : List Char} (more : LiteralText t s) :
    LiteralText (.ofChar c :: t) (Value.escapedChar c ++ s) := by
  unfold Value.escapedChar
  split
  case h_8 hquote hslash hb hf hn hr ht =>
    split
    · rename_i hcontrol
      have hpart : TextPart.ofChar c = .unit c.toNat := by
        rw [TextPart.ofChar, if_pos]
        simp only [List.mem_cons, List.not_mem_nil, or_false, not_or]
        exact ⟨hcontrol, hb, hf, hn, hr, ht⟩
      rw [hpart]
      exact .unit (hexUnit?_hexDigit c.toNat hcontrol) more
    · rename_i hcontrol
      have hpart : TextPart.ofChar c = .char c := by
        rw [TextPart.ofChar, if_neg fun h => hcontrol h.1]
      rw [hpart]
      exact .plain hquote hslash hcontrol more
  -- the characters with a short escape
  all_goals exact .escape rfl more

theorem literalText_ofText (s : String) : LiteralText (.ofText s) (s.toList.flatMap Value.escapedChar) := by
  rw [RawText.ofText]
  induction s.toList with
  | nil => exact .nil
  | cons c cs ih => exact literalText_escapedChar c ih

/-- The literal writes the characters.  Each stands for itself or is written by its unit or, outside the basic
plane, by the two units of a pair. -/
inductive RawText.Writes : RawText → List Char → Prop where
  | nil : Writes [] []
  | char {c : Char} {t : RawText} {cs : List Char} (more : Writes t cs) : Writes (.char c :: t) (c :: cs)
  | unit {c : Char} {t : RawText} {cs : List Char} (hc : c.toNat < 0x10000) (more : Writes t cs) :
      Writes (.unit c.toNat :: t) (c :: cs)
  | pair {c : Char} {t : RawText} {cs : List Char} (hc : 0x10000 ≤ c.toNat) (more : Writes t cs) :
      Writes (.unit (0xD800 + (c.toNat - 0x10000) / 0x400) :: .unit (0xDC00 + (c.toNat - 0x10000) % 0x400) :: t)
        (c :: cs)

theorem RawText.chars?_unit {u : ℕ} (hlead : isLead u = false) (htrail : isTrail u = false)
    (rest : RawText) : chars? (.unit u :: rest) = (chars? rest).map (Char.ofNat u :: ·) := by
  cases rest with
  | nil => simp [chars?, hlead, htrail]
  | cons part rest =>
    cases part with
    | char c => simp [chars?, hlead, htrail]
    | unit v => simp [chars?, hlead, htrail]

theorem RawText.Writes.chars?_eq {t : RawText} {cs : List Char} (h : t.Writes cs) : chars? t = some cs := by
  induction h with
  | nil => rfl
  | char _ ih => rw [chars?, ih, Option.map_some]
  | @unit c t cs hc _ ih =>
    -- the halves of pairs are no characters
    have hvalid : c.toNat < 0xD800 ∨ 0xDFFF < c.toNat := by
      rcases c.valid with h | h
      · exact .inl h
      · exact .inr h.1
    have hlead : isLead c.toNat = false := by
      rw [isLead, Bool.and_eq_false_iff, decide_eq_false_iff_not, decide_eq_false_iff_not]
      omega
    have htrail : isTrail c.toNat = false := by
      rw [isTrail, Bool.and_eq_false_iff, decide_eq_false_iff_not, decide_eq_false_iff_not]
      omega
    rw [chars?_unit hlead htrail, ih, Option.map_some, Char.ofNat_toNat]
  | @pair c t cs hc _ ih =>
    have hmax : c.toNat < 0x110000 := by
      rcases c.valid with h | h
      · exact Nat.lt_trans h (by decide)
      · exact h.2
    have hlead : isLead (0xD800 + (c.toNat - 0x10000) / 0x400) = true := by
      rw [isLead, Bool.and_eq_true, decide_eq_true_eq, decide_eq_true_eq]
      omega
    have htrail : isTrail (0xDC00 + (c.toNat - 0x10000) % 0x400) = true := by
      rw [isTrail, Bool.and_eq_true, decide_eq_true_eq, decide_eq_true_eq]
      omega
    have hpaired : paired (0xD800 + (c.toNat - 0x10000) / 0x400) (0xDC00 + (c.toNat - 0x10000) % 0x400) = c := by
      rw [paired, show (0xD800 + (c.toNat - 0x10000) / 0x400 - 0xD800) * 0x400 +
        (0xDC00 + (c.toNat - 0x10000) % 0x400 - 0xDC00) + 0x10000 = c.toNat by omega, Char.ofNat_toNat]
    rw [chars?, if_pos hlead, if_pos htrail, hpaired, ih, Option.map_some]

theorem RawText.Writes.text?_eq {t : RawText} {s : String} (h : t.Writes s.toList) : t.text? = some s := by
  rw [text?, h.chars?_eq, Option.map_some, String.ofList_toList]

theorem RawText.writes_ofText (s : String) : (ofText s).Writes s.toList := by
  rw [ofText]
  induction s.toList with
  | nil => exact .nil
  | cons c cs ih =>
    rw [List.map_cons, TextPart.ofChar]
    split
    · exact .unit (by omega) ih
    · exact .char ih

/-- A text is read off its literal. -/
theorem RawText.text?_ofText (s : String) : (ofText s).text? = some s := (writes_ofText s).text?_eq

/-! ### Numerals -/

namespace Numeral

/-- The digits of a natural number. -/
def digits (n : ℕ) : List ℕ := (Nat.toDigits 10 n).map digitValue

/-- The numeral of an integer. -/
def ofInt (n : Int) : Numeral :=
  { negative := n < 0, whole := digits n.natAbs, fraction := [], power := none }

theorem digitValue_digitChar {d : ℕ} (h : d < 10) : digitValue (Nat.digitChar d) = d := by
  revert d
  decide

theorem digits_of_lt {n : ℕ} (h : n < 10) : digits n = [n] := by
  rw [digits, Nat.toDigits_of_lt_base h, List.map_singleton, digitValue_digitChar h]

theorem digits_of_le {n : ℕ} (h : 10 ≤ n) : digits n = digits (n / 10) ++ [n % 10] := by
  rw [digits, Nat.toDigits_of_base_le (by decide) h, List.map_append, List.map_singleton,
    digitValue_digitChar (Nat.mod_lt n (by decide)), digits]

theorem digits_ne_nil (n : ℕ) : digits n ≠ [] := by
  simp [digits, Nat.toDigits_ne_nil]

/-- Only the number zero starts with a zero. -/
theorem head?_digits {n : ℕ} (h : 0 < n) : (digits n).head? ≠ some 0 := by
  induction n using Nat.strong_induction_on with
  | _ n ih =>
    rcases Nat.lt_or_ge n 10 with hlt | hle
    · rw [digits_of_lt hlt, List.head?_singleton]
      intro heq
      exact absurd (Option.some.inj heq) h.ne'
    · rw [digits_of_le hle, List.head?_append_of_ne_nil _ (digits_ne_nil _)]
      exact ih (n / 10) (by omega) (by omega)

/-- One more digit goes into the significand if there is room for it. -/
theorem gatherWhole_concat {ds : List ℕ} {s t d : ℕ} (h : gatherWhole s ds = (t, 0))
    (ht : t * 10 + d < significandBound) : gatherWhole s (ds ++ [d]) = (t * 10 + d, 0) := by
  induction ds generalizing s with
  | nil =>
    obtain rfl : s = t := congrArg Prod.fst h
    rw [List.nil_append, gatherWhole, if_pos ht, gatherWhole]
  | cons e ds ih =>
    rw [gatherWhole] at h
    split at h
    · rename_i hroom
      rw [List.cons_append, gatherWhole, if_pos hroom, ih h]
    · simp at h

theorem gatherWhole_digits {n : ℕ} (h : n < significandBound) : gatherWhole 0 (digits n) = (n, 0) := by
  induction n using Nat.strong_induction_on with
  | _ n ih =>
    rcases Nat.lt_or_ge n 10 with hlt | hle
    · rw [digits_of_lt hlt, gatherWhole, Nat.zero_mul, Nat.zero_add, if_pos h, gatherWhole]
    · have hsplit : n / 10 * 10 + n % 10 = n := by omega
      rw [digits_of_le hle, gatherWhole_concat (ih (n / 10) (by omega) (by omega)) (by omega), hsplit]

/-- A natural number below `2 ^ 64` is what its numeral stands for. -/
theorem quantity?_ofInt {n : ℕ} (h : n < Number.bound64) :
    (ofInt n).quantity? = some (.natural n) := by
  rw [quantity?]
  simp [ofInt, gatherWhole_digits (show n < significandBound from h)]

/-- A negative number down to `-2 ^ 63` is what its numeral stands for. -/
theorem quantity?_ofInt_neg {n : ℕ} (hpos : 0 < n) (h : n ≤ Number.bound63) :
    (ofInt (-n)).quantity? = some (.negative n) := by
  have hroom : n < significandBound := lt_of_le_of_lt h (by decide)
  rw [quantity?]
  simp [ofInt, gatherWhole_digits hroom, hpos, h]

end Numeral

/-! ### The texts of a numeral -/

/-- The text of one digit or more. -/
structure DigitsText (ds : List ℕ) (s : List Char) : Prop where
  nonempty : s ≠ []
  isDigit : ∀ c ∈ s, c.isDigit = true
  values : s.map digitValue = ds

/-- The text of the digits behind the point, with the point. -/
inductive FractionText : List ℕ → List Char → Prop where
  | none : FractionText [] []
  | digits {ds : List ℕ} {s : List Char} (h : DigitsText ds s) : FractionText ds ('.' :: s)

/-- The text of a power of ten, with its mark. -/
inductive PowerText : Option (Bool × List ℕ) → List Char → Prop where
  | none : PowerText none []
  | unsigned {mark : Char} {ds : List ℕ} {s : List Char} (hmark : mark = 'e' ∨ mark = 'E')
      (h : DigitsText ds s) : PowerText (some (false, ds)) (mark :: s)
  | positive {mark : Char} {ds : List ℕ} {s : List Char} (hmark : mark = 'e' ∨ mark = 'E')
      (h : DigitsText ds s) : PowerText (some (false, ds)) (mark :: '+' :: s)
  | negative {mark : Char} {ds : List ℕ} {s : List Char} (hmark : mark = 'e' ∨ mark = 'E')
      (h : DigitsText ds s) : PowerText (some (true, ds)) (mark :: '-' :: s)

/-- The text of a number: a sign, a zero or digits that start with another one, a fraction and a power. -/
inductive NumeralText : Numeral → List Char → Prop where
  | mk {n : Numeral} {whole fraction power : List Char} (hwhole : DigitsText n.whole whole)
      (hzero : whole.head? = some '0' → whole = ['0']) (hfraction : FractionText n.fraction fraction)
      (hpower : PowerText n.power power) :
      NumeralText n ((if n.negative then ['-'] else []) ++ (whole ++ (fraction ++ power)))

/-! ### The numeral of an integer -/

theorem digitsText_toDigits (n : ℕ) : DigitsText (Numeral.digits n) (Nat.toDigits 10 n) where
  nonempty := Nat.toDigits_ne_nil
  isDigit _ hc := Nat.isDigit_of_mem_toDigits (by decide) (by decide) hc
  values := rfl

/-- Only the number zero is written with a zero at the start. -/
theorem toDigits_eq_zero {n : ℕ} (h : (Nat.toDigits 10 n).head? = some '0') : Nat.toDigits 10 n = ['0'] := by
  rcases Nat.eq_zero_or_pos n with rfl | hpos
  · rfl
  · have hhead := Numeral.head?_digits hpos
    rw [Numeral.digits, List.head?_map, h] at hhead
    exact absurd rfl hhead

theorem numeralText_ofInt (n : Int) : NumeralText (.ofInt n) (toString n).toList := by
  have htext := NumeralText.mk (n := .ofInt n) (digitsText_toDigits n.natAbs) toDigits_eq_zero .none .none
  rw [List.append_nil, List.append_nil] at htext
  rw [Int.toString_eq_repr, Int.repr_eq_if]
  split
  · rename_i hn
    rw [Nat.repr_eq_ofList_toDigits, String.toList_ofList, show n.toNat = n.natAbs by omega]
    simpa [Numeral.ofInt, not_lt.2 hn] using htext
  · rename_i hn
    rw [show (-n).toNat = n.natAbs by omega]
    simpa [Numeral.ofInt, Nat.repr_eq_ofList_toDigits, not_le.1 hn] using htext

/-! ### Lexing numerals -/

/-- The text does not go on with a digit, a point or a power of ten. -/
def Stops (s : List Char) : Prop :=
  ∀ c ∈ s.head?, c.isDigit = false ∧ c ≠ '.' ∧ c ≠ 'e' ∧ c ≠ 'E'

/-- The text does not go on with a digit. -/
def NoDigit (s : List Char) : Prop := ∀ c ∈ s.head?, c.isDigit = false

theorem Stops.noDigit {s : List Char} (h : Stops s) : NoDigit s := fun c hc => (h c hc).1

theorem noDigit_cons {c : Char} (h : c.isDigit = false) (s : List Char) : NoDigit (c :: s) := by
  intro d hd
  obtain rfl : c = d := Option.some.inj hd
  exact h

namespace DigitsText

variable {ds : List ℕ} {s : List Char}

theorem lexDigits_eq (h : DigitsText ds s) {rest : List Char} (hrest : NoDigit rest) :
    lexDigits (s ++ rest) = (ds, rest) := by
  have htake : rest.takeWhile Char.isDigit = [] := by
    cases rest with
    | nil => rfl
    | cons c rest => simp [hrest c rfl]
  have hdrop : rest.dropWhile Char.isDigit = rest := by
    cases rest with
    | nil => rfl
    | cons c rest => simp [hrest c rfl]
  rw [lexDigits, List.takeWhile_append_of_pos h.isDigit, List.dropWhile_append_of_pos h.isDigit, htake, hdrop,
    List.append_nil, h.values]

theorem exists_cons (h : DigitsText ds s) :
    ∃ c s', s = c :: s' ∧ c.isDigit = true ∧ ds = digitValue c :: s'.map digitValue := by
  cases s with
  | nil => exact absurd rfl h.nonempty
  | cons c s => exact ⟨c, s, rfl, h.isDigit c List.mem_cons_self, h.values.symm⟩

/-- Only the digit zero has the value zero. -/
theorem eq_zero_of_digitValue {c : Char} (hc : c.isDigit = true) (h : digitValue c = 0) : c = '0' := by
  have hle : '0'.toNat ≤ c.toNat := by
    simp only [Char.isDigit, Bool.and_eq_true, decide_eq_true_eq] at hc
    exact hc.1
  rw [digitValue] at h
  exact Char.toNat_inj.1 (by omega)

theorem lexWhole_eq (h : DigitsText ds s) (hzero : s.head? = some '0' → s = ['0']) {rest : List Char}
    (hrest : NoDigit rest) : lexWhole (s ++ rest) = .ok (ds, rest) := by
  obtain ⟨c, s, rfl, hc, rfl⟩ := h.exists_cons
  rw [lexWhole, h.lexDigits_eq hrest]
  split
  · rename_i heq
    cases congrArg Prod.fst heq
  · rename_i heq
    -- a zero with digits behind it
    obtain ⟨hvalue, hmore⟩ := List.cons.inj (congrArg Prod.fst heq)
    obtain rfl := eq_zero_of_digitValue hc hvalue
    obtain rfl := (List.cons.inj (hzero rfl)).2
    cases hmore
  · rename_i heq
    rw [heq]

end DigitsText

theorem lexFraction_eq {ds : List ℕ} {s rest : List Char} (h : FractionText ds s) (hrest : NoDigit rest)
    (hpoint : rest.head? ≠ some '.') : lexFraction (s ++ rest) = .ok (ds, rest) := by
  cases h with
  | none =>
    rw [List.nil_append, lexFraction.eq_def]
    split
    · exact absurd rfl hpoint
    · rfl
  | digits h =>
    obtain ⟨c, s, rfl, -, rfl⟩ := h.exists_cons
    rw [List.cons_append, lexFraction, h.lexDigits_eq hrest]

/-- Behind its mark a power of ten has a sign or none, and digits. -/
theorem lexPower_mark {mark : Char} (hmark : mark = 'e' ∨ mark = 'E') {ds : List ℕ} {s rest signed : List Char}
    (h : DigitsText ds s) (hrest : NoDigit rest) (hsigned : lexPower.unsigned signed = s ++ rest) :
    lexPower (mark :: signed) = .ok (some (signed.head? = some '-', ds), rest) := by
  obtain ⟨c, s, rfl, -, rfl⟩ := h.exists_cons
  rcases hmark with rfl | rfl
  · rw [lexPower, hsigned, h.lexDigits_eq hrest]
  · rw [lexPower, hsigned, h.lexDigits_eq hrest]

theorem lexPower_eq {p : Option (Bool × List ℕ)} {s rest : List Char} (h : PowerText p s)
    (hrest : Stops rest) : lexPower (s ++ rest) = .ok (p, rest) := by
  cases h with
  | none =>
    rw [List.nil_append, lexPower.eq_def]
    split
    · exact absurd rfl (hrest 'e' rfl).2.2.1
    · exact absurd rfl (hrest 'E' rfl).2.2.2
    · rfl
  | @unsigned mark ds s hmark h =>
    obtain ⟨c, s', rfl, hc, -⟩ := h.exists_cons
    have hminus : c ≠ '-' := by
      rintro rfl
      cases hc
    have hplus : c ≠ '+' := by
      rintro rfl
      cases hc
    have hsigned : lexPower.unsigned (c :: s' ++ rest) = c :: s' ++ rest := by
      rw [List.cons_append, lexPower.unsigned.eq_def]
      split <;> simp_all
    rw [List.cons_append, lexPower_mark hmark h hrest.noDigit hsigned]
    simp [hminus]
  | positive hmark h => exact lexPower_mark hmark h hrest.noDigit rfl
  | negative hmark h => exact lexPower_mark hmark h hrest.noDigit rfl

/-- A power starts with its mark, so that neither a digit nor a point follows a fraction. -/
theorem PowerText.head_append {p : Option (Bool × List ℕ)} {s rest : List Char} (h : PowerText p s)
    (hrest : Stops rest) : NoDigit (s ++ rest) ∧ (s ++ rest).head? ≠ some '.' := by
  have hmarked : ∀ {mark : Char} (t : List Char), mark = 'e' ∨ mark = 'E' →
      NoDigit (mark :: t) ∧ (mark :: t).head? ≠ some '.' := by
    intro mark t hmark
    rcases hmark with rfl | rfl
    · exact ⟨noDigit_cons (by decide) t, by simp⟩
    · exact ⟨noDigit_cons (by decide) t, by simp⟩
  cases h with
  | none => exact ⟨hrest.noDigit, fun hpoint => (hrest '.' hpoint).2.1 rfl⟩
  | unsigned hmark _ => exact hmarked _ hmark
  | positive hmark _ => exact hmarked _ hmark
  | negative hmark _ => exact hmarked _ hmark

theorem FractionText.noDigit_append {ds : List ℕ} {s rest : List Char} (h : FractionText ds s)
    (hrest : NoDigit rest) : NoDigit (s ++ rest) := by
  cases h with
  | none => exact hrest
  | digits _ => exact noDigit_cons (by decide) _

end CodeAtlas.Json
