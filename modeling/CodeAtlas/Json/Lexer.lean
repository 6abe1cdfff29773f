import CodeAtlas.Json.Token

/-!
# Cutting JSON text into tokens

A text is cut into tokens up to the first place where it cannot go on; that place is itself a token, the
last one. `lex` ends because every token takes at least one character (`lexToken_length`).
-/

namespace CodeAtlas.Json

/-! ### String literals -/

/-- The value of a hexadecimal digit. -/
def hexValue? (c : Char) : Option Nat :=
  if c.isDigit then some (c.toNat - '0'.toNat)
  else if 'a' ≤ c && c ≤ 'f' then some (c.toNat - 'a'.toNat + 10)
  else if 'A' ≤ c && c ≤ 'F' then some (c.toNat - 'A'.toNat + 10)
  else none

/-- The value of four hexadecimal digits. -/
def hexUnit? (a b c d : Char) : Option Nat :=
  match hexValue? a, hexValue? b, hexValue? c, hexValue? d with
  | some a, some b, some c, some d => some (((a * 16 + b) * 16 + c) * 16 + d)
  | _, _, _, _ => none

/-- Why four hexadecimal digits could not be read: too few bytes are left, or they are no digits. -/
def hexFault (rest : List Char) : Fault :=
  if (String.ofList rest).utf8ByteSize < 4 then .truncated else .malformed

/-- The character that a short escape stands for. -/
def shortEscape? : Char → Option Char
  | '"' => some '"'
  | '\\' => some '\\'
  | '/' => some '/'
  | 'b' => some '\x08'
  | 'f' => some '\x0c'
  | 'n' => some '\n'
  | 'r' => some '\r'
  | 't' => some '\t'
  | _ => none

/-- A literal with one more part in front. -/
def RawText.prepend {α : Type} (part : TextPart) (r : RawText × α) : RawText × α :=
  (part :: r.1, r.2)

@[simp] theorem RawText.prepend_snd {α : Type} (part : TextPart) (r : RawText × α) :
    (RawText.prepend part r).2 = r.2 := rfl

/-- Read a string literal behind its opening quote: its parts, and what follows the closing quote or why
there is none. -/
def lexText : List Char → RawText × Except Fault (List Char)
  | [] => ([], .error .truncated)
  | '"' :: rest => ([], .ok rest)
  | ['\\'] => ([], .error .truncated)
  | '\\' :: 'u' :: a :: b :: c :: d :: rest =>
    match hexUnit? a b c d with
    | some u => RawText.prepend (.unit u) (lexText rest)
    | none => ([], .error .malformed)
  | '\\' :: 'u' :: rest => ([], .error (hexFault rest))
  | '\\' :: e :: rest =>
    match shortEscape? e with
    | some c => RawText.prepend (.char c) (lexText rest)
    | none => ([], .error .malformed)
  | c :: rest =>
    if c.toNat < 0x20 then ([], .error .malformed)
    else RawText.prepend (.char c) (lexText rest)

/-- What follows a string literal is shorter than what its opening quote stood before. -/
theorem lexText_length {s rest : List Char} (h : (lexText s).2 = .ok rest) :
    rest.length < s.length := by
  fun_induction lexText s generalizing rest with
  | case2 => simp at h; subst h; simp
  | case4 => rename_i ih; have := ih (by simpa using h); simp; omega
  | case7 => rename_i ih; have := ih (by simpa using h); simp; omega
  | case10 => rename_i ih; have := ih (by simpa using h); simp; omega
  | _ => simp at h

/-! ### Numbers -/

/-- The value of a digit. -/
def digitValue (c : Char) : Nat := c.toNat - '0'.toNat

/-- The digits at the start, and what follows them. -/
def lexDigits (s : List Char) : List Nat × List Char :=
  ((s.takeWhile Char.isDigit).map digitValue, s.dropWhile Char.isDigit)

/-- The power of ten of a number, or nothing if there is none; fails without a digit. -/
def lexPower : List Char → Except Bool (Option (Bool × List Nat) × List Char)
  | 'e' :: rest | 'E' :: rest =>
    match lexDigits (unsigned rest) with
    | ([], after) => .error after.isEmpty
    | (digits, after) => .ok (some (rest.head? = some '-', digits), after)
  | rest => .ok (none, rest)
where
  /-- The text without a sign at its start. -/
  unsigned : List Char → List Char
    | '-' :: rest => rest
    | '+' :: rest => rest
    | rest => rest

/-- The digits behind the point, or none if there is no point; fails on a point without a digit. -/
def lexFraction : List Char → Except Bool (List Nat × List Char)
  | '.' :: rest =>
    match lexDigits rest with
    | ([], after) => .error after.isEmpty
    | (digits, after) => .ok (digits, after)
  | rest => .ok ([], rest)

/-- The digits before the point: a zero alone, or digits that start with another one; fails
otherwise. -/
def lexWhole (s : List Char) : Except Bool (List Nat × List Char) :=
  match lexDigits s with
  | ([], after) => .error after.isEmpty
  | (0 :: _ :: _, _) => .error false
  | (digits, after) => .ok (digits, after)

/-- A number without its sign. A failure says whether the text ends there. -/
def lexUnsigned (negative : Bool) (s : List Char) : Except Bool (Numeral × List Char) := do
  let (whole, s) ← lexWhole s
  let (fraction, s) ← lexFraction s
  let (power, s) ← lexPower s
  return ({ negative, whole, fraction, power }, s)

/-! ### Words -/

/-- What follows the letters of a word, or whether the text ends inside it. -/
def lexWord : (letters s : List Char) → Except Bool (List Char)
  | [], s => .ok s
  | _ :: _, [] => .error true
  | l :: letters, c :: s => if l = c then lexWord letters s else .error false

/-! ### The whole text -/

/-- Is the character blank between tokens? -/
def isSpace (c : Char) : Bool :=
  c = ' ' || c = '\n' || c = '\t' || c = '\r'

/-- The token that the character starts, with what follows it; nothing follows a broken token. -/
def lexToken (c : Char) (rest : List Char) : Token × List Char :=
  match c with
  | '[' => (.openArray, rest)
  | ']' => (.closeArray, rest)
  | '{' => (.openObject, rest)
  | '}' => (.closeObject, rest)
  | ',' => (.comma, rest)
  | ':' => (.colon, rest)
  | '"' =>
    match lexText rest with
    | (parts, .ok rest) => (.text parts, rest)
    | (parts, .error fault) => (.brokenText parts fault, [])
  | 'n' => word .null "ull"
  | 't' => word (.bool true) "rue"
  | 'f' => word (.bool false) "alse"
  | '-' => number true rest
  | c => if c.isDigit then number false (c :: rest) else (.stray, [])
where
  /-- The word whose other letters are given. -/
  word (token : Token) (letters : String) : Token × List Char :=
    match lexWord letters.toList rest with
    | .ok rest => (token, rest)
    | .error atEnd => (.brokenWord atEnd, [])
  /-- The number whose digits start here. -/
  number (negative : Bool) (s : List Char) : Token × List Char :=
    match lexUnsigned negative s with
    | .ok (n, rest) => (.number n, rest)
    | .error atEnd => (.brokenNumber atEnd, [])

/-! ### Lengths -/

theorem lexDigits_length (s : List Char) : (lexDigits s).2.length ≤ s.length :=
  (List.dropWhile_suffix _).length_le

/-- Where digits are read, what follows them is shorter. -/
theorem lexDigits_length_lt {s : List Char} (h : (lexDigits s).1 ≠ []) :
    (lexDigits s).2.length < s.length := by
  cases s with
  | nil => simp [lexDigits] at h
  | cons c rest =>
    by_cases hc : c.isDigit
    · have := (List.dropWhile_suffix (l := rest) Char.isDigit).length_le
      simp [lexDigits, hc]
      omega
    · simp [lexDigits, hc] at h

theorem lexWhole_length {s rest : List Char} {digits : List Nat}
    (h : lexWhole s = .ok (digits, rest)) : rest.length < s.length := by
  have key := lexDigits_length_lt (s := s)
  unfold lexWhole at h
  split at h
  · simp at h
  · simp at h
  · rename_i hne _ heq
    simp only [Except.ok.injEq, Prod.mk.injEq] at h
    rw [heq] at key
    rw [← h.2]
    exact key hne

theorem lexFraction_length {s rest : List Char} {digits : List Nat}
    (h : lexFraction s = .ok (digits, rest)) : rest.length ≤ s.length := by
  unfold lexFraction at h
  split at h
  · rename_i tail
    have key := lexDigits_length tail
    split at h
    · simp at h
    · rename_i heq
      simp only [Except.ok.injEq, Prod.mk.injEq] at h
      rw [heq] at key
      rw [← h.2, List.length_cons]
      exact Nat.le_succ_of_le key
  · simp only [Except.ok.injEq, Prod.mk.injEq] at h
    exact Nat.le_of_eq (congrArg List.length h.2.symm)

theorem lexPower_unsigned_length (s : List Char) : (lexPower.unsigned s).length ≤ s.length := by
  unfold lexPower.unsigned
  split <;> simp

theorem lexPower_length {s rest : List Char} {power : Option (Bool × List Nat)}
    (h : lexPower s = .ok (power, rest)) : rest.length ≤ s.length := by
  unfold lexPower at h
  split at h
  · rename_i tail
    have key := lexDigits_length (lexPower.unsigned tail)
    have drop := lexPower_unsigned_length tail
    split at h
    · simp at h
    · rename_i heq
      simp only [Except.ok.injEq, Prod.mk.injEq] at h
      rw [heq] at key
      rw [← h.2, List.length_cons]
      exact Nat.le_succ_of_le (Nat.le_trans key drop)
  · rename_i tail
    have key := lexDigits_length (lexPower.unsigned tail)
    have drop := lexPower_unsigned_length tail
    split at h
    · simp at h
    · rename_i heq
      simp only [Except.ok.injEq, Prod.mk.injEq] at h
      rw [heq] at key
      rw [← h.2, List.length_cons]
      exact Nat.le_succ_of_le (Nat.le_trans key drop)
  · simp only [Except.ok.injEq, Prod.mk.injEq] at h
    exact Nat.le_of_eq (congrArg List.length h.2.symm)

theorem lexUnsigned_length {negative : Bool} {s rest : List Char} {n : Numeral}
    (h : lexUnsigned negative s = .ok (n, rest)) : rest.length < s.length := by
  unfold lexUnsigned at h
  cases hw : lexWhole s with
  | error _ => simp [hw, bind, Except.bind] at h
  | ok w =>
    cases hf : lexFraction w.2 with
    | error _ => simp [hw, hf, bind, Except.bind] at h
    | ok f =>
      cases hp : lexPower f.2 with
      | error _ => simp [hw, hf, hp, bind, Except.bind] at h
      | ok p =>
        have h₁ := @lexWhole_length s w.2 w.1 hw
        have h₂ := @lexFraction_length w.2 f.2 f.1 hf
        have h₃ := @lexPower_length f.2 p.2 p.1 hp
        simp only [hw, hf, hp, bind, Except.bind, pure, Except.pure, Except.ok.injEq,
          Prod.mk.injEq] at h
        rw [← h.2]
        omega

theorem lexWord_length {letters s rest : List Char} (h : lexWord letters s = .ok rest) :
    rest.length ≤ s.length := by
  induction letters generalizing s with
  | nil => simp [lexWord] at h; simp [h]
  | cons l letters ih =>
    cases s with
    | nil => simp [lexWord] at h
    | cons c s =>
      by_cases hc : l = c
      · simp only [lexWord, hc, if_true] at h
        exact Nat.le_succ_of_le (ih h)
      · simp [lexWord, hc] at h

theorem lexToken_word_length (rest : List Char) (token : Token) (letters : String) :
    (lexToken.word rest token letters).2.length ≤ rest.length := by
  unfold lexToken.word
  split
  · rename_i h; exact lexWord_length h
  · simp

theorem lexToken_number_length (s : List Char) (negative : Bool) :
    (lexToken.number negative s).2.length ≤ s.length - 1 := by
  unfold lexToken.number
  split
  · rename_i h
    have := lexUnsigned_length h
    simp only
    omega
  · simp

/-- A token takes at least the character that starts it. -/
theorem lexToken_length (c : Char) (rest : List Char) :
    (lexToken c rest).2.length ≤ rest.length := by
  unfold lexToken
  split
  · simp
  · simp
  · simp
  · simp
  · simp
  · simp
  · split
    · rename_i h
      exact Nat.le_of_lt (lexText_length (by rw [h]))
    · simp
  · exact lexToken_word_length rest _ _
  · exact lexToken_word_length rest _ _
  · exact lexToken_word_length rest _ _
  · have := lexToken_number_length rest true
    omega
  · split
    · simpa using lexToken_number_length (_ :: rest) false
    · simp

/-- The tokens of a text. -/
def lex : List Char → List Token
  | [] => []
  | c :: rest =>
    if isSpace c then lex rest
    else
      let token := lexToken c rest
      token.1 :: lex token.2
termination_by s => s.length
decreasing_by
  · simp
  · have := lexToken_length c rest
    simp
    omega

end CodeAtlas.Json
