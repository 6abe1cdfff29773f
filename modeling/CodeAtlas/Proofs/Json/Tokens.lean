import CodeAtlas.Proofs.Json.Scalar

/-!
# The tokens of what was written

A value has one list of tokens, whatever the layout of its text.

* `Value.tokens v` — the tokens of a value;
* `Value.laidOut` — the text of a value with blanks where a layout puts them.  The compact and the spread
  text are both of this kind (`Value.compact_eq`, `Value.spreadAt_eq`);
* `Value.Written.lex_eq` — the lexer skips the blanks and finds the tokens of the value in either text.
-/

namespace CodeAtlas.Json

namespace Value

/-! ### Tokens -/

mutual

/-- The tokens of a value. -/
def tokens : Value → List Token
  | .null => [.null]
  | .bool b => [.bool b]
  | .number n => [.number (.ofInt n)]
  | .text s => [.text (.ofText s)]
  | .array [] => [.openArray, .closeArray]
  | .array (v :: rest) => .openArray :: v.tokens ++ itemTokens rest
  | .object [] => [.openObject, .closeObject]
  | .object ((k, v) :: rest) =>
    .openObject :: .text (.ofText k) :: .colon :: v.tokens ++ memberTokens rest

/-- The tokens of the items after the first one, and the end of the array. -/
def itemTokens : List Value → List Token
  | [] => [.closeArray]
  | v :: rest => .comma :: v.tokens ++ itemTokens rest

/-- The tokens of the members after the first one, and the end of the object. -/
def memberTokens : List (String × Value) → List Token
  | [] => [.closeObject]
  | (k, v) :: rest => .comma :: .text (.ofText k) :: .colon :: v.tokens ++ memberTokens rest

end

/-! ### Layouts -/

/-- Where blanks stand in the text of a value. -/
structure Spacing where
  /-- What stands before a member, an item or the end of a container, at each level. -/
  line : ℕ → List Char
  /-- What stands behind a colon. -/
  colon : List Char
  line_blank : ∀ level, ∀ c ∈ line level, isSpace c = true
  colon_blank : ∀ c ∈ colon, isSpace c = true

/-- No blanks at all. -/
def Spacing.none : Spacing where
  line _ := []
  colon := []
  line_blank _ _ h := by cases h
  colon_blank _ h := by cases h

/-- One member or item to a line. -/
def Spacing.lines : Spacing where
  line := indent
  colon := [' ']
  line_blank level c h := by
    rcases List.mem_cons.1 h with rfl | h
    · rfl
    · rw [(List.mem_replicate.1 h).2]
      rfl
  colon_blank c h := by
    rw [List.mem_singleton.1 h]
    rfl

mutual

/-- The text of a value, `level` levels deep, with blanks where the spacing puts them. -/
def laidOut (sp : Spacing) (level : ℕ) : Value → List Char
  | .null => "null".toList
  | .bool b => (if b then "true" else "false").toList
  | .number n => (toString n).toList
  | .text s => literal s
  | .array [] => ['[', ']']
  | .array (v :: rest) =>
    '[' :: (sp.line (level + 1) ++ (v.laidOut sp (level + 1) ++ itemsLaidOut sp level rest))
  | .object [] => ['\x7b', '\x7d']
  | .object ((k, v) :: rest) =>
    '\x7b' :: (sp.line (level + 1) ++ (literal k ++
      ':' :: (sp.colon ++ (v.laidOut sp (level + 1) ++ membersLaidOut sp level rest))))

/-- The items after the first one, and the end of the array. -/
def itemsLaidOut (sp : Spacing) (level : ℕ) : List Value → List Char
  | [] => sp.line level ++ [']']
  | v :: rest =>
    ',' :: (sp.line (level + 1) ++ (v.laidOut sp (level + 1) ++ itemsLaidOut sp level rest))

/-- The members after the first one, and the end of the object. -/
def membersLaidOut (sp : Spacing) (level : ℕ) : List (String × Value) → List Char
  | [] => sp.line level ++ ['\x7d']
  | (k, v) :: rest =>
    ',' :: (sp.line (level + 1) ++ (literal k ++
      ':' :: (sp.colon ++ (v.laidOut sp (level + 1) ++ membersLaidOut sp level rest))))

end

mutual

/-- The compact text has no blanks. -/
theorem compact_eq : ∀ (v : Value) (level : ℕ), v.compact = v.laidOut .none level
  | .null, _ => rfl
  | .bool _, _ => rfl
  | .number _, _ => rfl
  | .text _, _ => rfl
  | .array [], _ => rfl
  | .array (v :: rest), level => by
    rw [compact, laidOut, compact_eq v (level + 1), compactItems_eq rest level]
    rfl
  | .object [], _ => rfl
  | .object ((k, v) :: rest), level => by
    rw [compact, laidOut, compact_eq v (level + 1), compactMembers_eq rest level]
    simp [Spacing.none]

theorem compactItems_eq : ∀ (rest : List Value) (level : ℕ),
    compactItems rest = itemsLaidOut .none level rest
  | [], _ => rfl
  | v :: rest, level => by
    rw [compactItems, itemsLaidOut, compact_eq v (level + 1), compactItems_eq rest level]
    rfl

theorem compactMembers_eq : ∀ (rest : List (String × Value)) (level : ℕ),
    compactMembers rest = membersLaidOut .none level rest
  | [], _ => rfl
  | (k, v) :: rest, level => by
    rw [compactMembers, membersLaidOut, compact_eq v (level + 1), compactMembers_eq rest level]
    simp [Spacing.none]

end

mutual

/-- The spread text has its lines and a blank behind each colon. -/
theorem spreadAt_eq : ∀ (v : Value) (level : ℕ), v.spreadAt level = v.laidOut .lines level
  | .null, _ => rfl
  | .bool _, _ => rfl
  | .number _, _ => rfl
  | .text _, _ => rfl
  | .array [], _ => rfl
  | .array (v :: rest), level => by
    rw [spreadAt, laidOut, spreadAt_eq v (level + 1), spreadItems_eq rest level]
    simp [Spacing.lines]
  | .object [], _ => rfl
  | .object ((k, v) :: rest), level => by
    rw [spreadAt, laidOut, spreadAt_eq v (level + 1), spreadMembers_eq rest level]
    simp [Spacing.lines]

theorem spreadItems_eq : ∀ (rest : List Value) (level : ℕ),
    spreadItems level rest = itemsLaidOut .lines level rest
  | [], _ => rfl
  | v :: rest, level => by
    rw [spreadItems, itemsLaidOut, spreadAt_eq v (level + 1), spreadItems_eq rest level]
    simp [Spacing.lines]

theorem spreadMembers_eq : ∀ (rest : List (String × Value)) (level : ℕ),
    spreadMembers level rest = membersLaidOut .lines level rest
  | [], _ => rfl
  | (k, v) :: rest, level => by
    rw [spreadMembers, membersLaidOut, spreadAt_eq v (level + 1), spreadMembers_eq rest level]
    simp [Spacing.lines]

end

end Value

/-! ### Lexing -/

theorem stops_cons {c : Char} {s : List Char}
    (h : c.isDigit = false ∧ c ≠ '.' ∧ c ≠ 'e' ∧ c ≠ 'E') : Stops (c :: s) := by
  intro d hd
  obtain rfl : c = d := Option.some.inj hd
  exact h

theorem stops_nil : Stops [] := by
  intro c hc
  cases hc

/-- A blank ends a number. -/
theorem stops_of_isSpace {c : Char} {s : List Char} (h : isSpace c = true) : Stops (c :: s) := by
  apply stops_cons
  simp only [isSpace, Bool.or_eq_true, decide_eq_true_eq] at h
  rcases h with ((rfl | rfl) | rfl) | rfl <;> decide

theorem stops_append {blanks s : List Char} (hblanks : ∀ c ∈ blanks, isSpace c = true)
    (hs : Stops s) : Stops (blanks ++ s) := by
  cases blanks with
  | nil => exact hs
  | cons c blanks => exact stops_of_isSpace (hblanks c List.mem_cons_self)

theorem lex_nil : lex [] = [] := by
  rw [lex]

theorem lex_cons {c : Char} (h : isSpace c = false) (rest : List Char) :
    lex (c :: rest) = (lexToken c rest).1 :: lex (lexToken c rest).2 := by
  rw [lex, h]
  rfl

@[simp] theorem lex_openArray (rest : List Char) : lex ('[' :: rest) = .openArray :: lex rest :=
  lex_cons (by decide) rest

@[simp] theorem lex_closeArray (rest : List Char) : lex (']' :: rest) = .closeArray :: lex rest :=
  lex_cons (by decide) rest

@[simp] theorem lex_openObject (rest : List Char) : lex ('\x7b' :: rest) = .openObject :: lex rest :=
  lex_cons (by decide) rest

@[simp] theorem lex_closeObject (rest : List Char) : lex ('\x7d' :: rest) = .closeObject :: lex rest :=
  lex_cons (by decide) rest

@[simp] theorem lex_comma (rest : List Char) : lex (',' :: rest) = .comma :: lex rest :=
  lex_cons (by decide) rest

@[simp] theorem lex_colon (rest : List Char) : lex (':' :: rest) = .colon :: lex rest :=
  lex_cons (by decide) rest

/-- Blanks between tokens are skipped. -/
theorem lex_blanks {blanks : List Char} (h : ∀ c ∈ blanks, isSpace c = true) (rest : List Char) :
    lex (blanks ++ rest) = lex rest := by
  induction blanks with
  | nil => rfl
  | cons c blanks ih =>
    rw [List.cons_append, lex, if_pos (h c List.mem_cons_self)]
    exact ih fun d hd => h d (List.mem_cons_of_mem c hd)

theorem lex_of_literalText {t : RawText} {s : List Char} (h : LiteralText t s) (rest : List Char) :
    lex ('"' :: (s ++ '"' :: rest)) = .text t :: lex rest := by
  rw [lex_cons (by decide), lexToken, lexText_of_literalText h]

theorem lex_literal (s : String) (rest : List Char) :
    lex (Value.literal s ++ rest) = .text (.ofText s) :: lex rest := by
  have happend : Value.literal s ++ rest = '"' :: (s.toList.flatMap Value.escapedChar ++ '"' :: rest) := by
    simp [Value.literal]
  rw [happend, lex_of_literalText (literalText_ofText s)]

/-- A digit starts a number. -/
theorem lexToken_digit {c : Char} (h : c.isDigit = true) (rest : List Char) :
    lexToken c rest = lexToken.number false (c :: rest) := by
  unfold lexToken
  split
  case h_12 => rw [if_pos h]
  -- no other token starts with a digit
  all_goals exact absurd h (by decide)

theorem isSpace_of_isDigit {c : Char} (h : c.isDigit = true) : isSpace c = false := by
  rw [Bool.eq_false_iff]
  intro hspace
  have hstops := stops_of_isSpace (s := []) hspace c rfl
  rw [h] at hstops
  cases hstops.1

theorem lex_of_numeralText {n : Numeral} {s rest : List Char} (h : NumeralText n s) (hrest : Stops rest) :
    lex (s ++ rest) = .number n :: lex rest := by
  obtain ⟨hwhole, hzero, hfraction, hpower⟩ := h
  rename_i whole fraction power
  obtain ⟨negative, wholeDigits, fractionDigits, powerDigits⟩ := n
  have hbehind := hpower.head_append hrest
  have hunsigned : lexUnsigned negative (whole ++ (fraction ++ (power ++ rest))) =
      .ok (⟨negative, wholeDigits, fractionDigits, powerDigits⟩, rest) := by
    rw [lexUnsigned, hwhole.lexWhole_eq hzero (hfraction.noDigit_append hbehind.1)]
    simp only [bind, Except.bind, lexFraction_eq hfraction hbehind.1 hbehind.2, lexPower_eq hpower hrest,
      pure, Except.pure]
  simp only [List.append_assoc]
  cases negative with
  | true =>
    have htoken : lexToken '-' (whole ++ (fraction ++ (power ++ rest))) =
        lexToken.number true (whole ++ (fraction ++ (power ++ rest))) := rfl
    rw [if_pos rfl, List.singleton_append, lex_cons (by decide), htoken, lexToken.number, hunsigned]
  | false =>
    obtain ⟨c, s, rfl, hc, -⟩ := hwhole.exists_cons
    rw [List.cons_append] at hunsigned
    rw [if_neg (by simp), List.nil_append, List.cons_append, lex_cons (isSpace_of_isDigit hc),
      lexToken_digit hc, lexToken.number, hunsigned]

theorem stops_itemsLaidOut (sp : Value.Spacing) (items : List Value) (level : ℕ) (rest : List Char) :
    Stops (Value.itemsLaidOut sp level items ++ rest) := by
  cases items with
  | nil =>
    rw [Value.itemsLaidOut, List.append_assoc]
    exact stops_append (sp.line_blank level) (stops_cons (by decide))
  | cons v items => exact stops_cons (by decide)

theorem stops_membersLaidOut (sp : Value.Spacing) (members : List (String × Value)) (level : ℕ)
    (rest : List Char) : Stops (Value.membersLaidOut sp level members ++ rest) := by
  cases members with
  | nil =>
    rw [Value.membersLaidOut, List.append_assoc]
    exact stops_append (sp.line_blank level) (stops_cons (by decide))
  | cons m members => exact stops_cons (by decide)

theorem lexToken_word {letters : String} (rest : List Char) (token : Token) :
    lexToken.word (letters.toList ++ rest) token letters = (token, rest) := by
  have hword : ∀ ls : List Char, lexWord ls (ls ++ rest) = .ok rest := by
    intro ls
    induction ls with
    | nil => rfl
    | cons l ls ih => rw [List.cons_append, lexWord, if_pos rfl, ih]
  rw [lexToken.word, hword]

mutual

/-- The lexer finds the tokens of a value in its text, whatever the layout. -/
theorem lex_laidOut (sp : Value.Spacing) : ∀ (v : Value) (level : ℕ) {rest : List Char}, Stops rest →
    lex (v.laidOut sp level ++ rest) = v.tokens ++ lex rest
  | .null, level, rest, _ => by
    show lex ('n' :: ("ull".toList ++ rest)) = .null :: lex rest
    rw [lex_cons (by decide), lexToken, lexToken_word]
  | .bool true, level, rest, _ => by
    show lex ('t' :: ("rue".toList ++ rest)) = .bool true :: lex rest
    rw [lex_cons (by decide), lexToken, lexToken_word]
  | .bool false, level, rest, _ => by
    show lex ('f' :: ("alse".toList ++ rest)) = .bool false :: lex rest
    rw [lex_cons (by decide), lexToken, lexToken_word]
  | .number n, level, rest, hrest => lex_of_numeralText (numeralText_ofInt n) hrest
  | .text s, level, rest, _ => lex_literal s rest
  | .array [], level, rest, _ => by
    show lex ('[' :: ']' :: rest) = .openArray :: .closeArray :: lex rest
    rw [lex_openArray, lex_closeArray]
  | .array (v :: items), level, rest, _ => by
    rw [Value.laidOut, Value.tokens]
    simp only [List.cons_append, List.append_assoc]
    rw [lex_openArray, lex_blanks (sp.line_blank _),
      lex_laidOut sp v (level + 1) (stops_itemsLaidOut sp items level rest), lex_itemsLaidOut sp items level]
  | .object [], level, rest, _ => by
    show lex ('\x7b' :: '\x7d' :: rest) = .openObject :: .closeObject :: lex rest
    rw [lex_openObject, lex_closeObject]
  | .object ((k, v) :: members), level, rest, _ => by
    rw [Value.laidOut, Value.tokens]
    simp only [List.cons_append, List.append_assoc]
    rw [lex_openObject, lex_blanks (sp.line_blank _), lex_literal, lex_colon, lex_blanks sp.colon_blank,
      lex_laidOut sp v (level + 1) (stops_membersLaidOut sp members level rest),
      lex_membersLaidOut sp members level]

theorem lex_itemsLaidOut (sp : Value.Spacing) : ∀ (items : List Value) (level : ℕ) {rest : List Char},
    lex (Value.itemsLaidOut sp level items ++ rest) = Value.itemTokens items ++ lex rest
  | [], level, rest => by
    rw [Value.itemsLaidOut, List.append_assoc, lex_blanks (sp.line_blank _), List.singleton_append,
      lex_closeArray, Value.itemTokens, List.singleton_append]
  | v :: items, level, rest => by
    rw [Value.itemsLaidOut, Value.itemTokens]
    simp only [List.cons_append, List.append_assoc]
    rw [lex_comma, lex_blanks (sp.line_blank _),
      lex_laidOut sp v (level + 1) (stops_itemsLaidOut sp items level rest), lex_itemsLaidOut sp items level]

theorem lex_membersLaidOut (sp : Value.Spacing) : ∀ (members : List (String × Value)) (level : ℕ)
    {rest : List Char}, lex (Value.membersLaidOut sp level members ++ rest) =
      Value.memberTokens members ++ lex rest
  | [], level, rest => by
    rw [Value.membersLaidOut, List.append_assoc, lex_blanks (sp.line_blank _), List.singleton_append,
      lex_closeObject, Value.memberTokens, List.singleton_append]
  | (k, v) :: members, level, rest => by
    rw [Value.membersLaidOut, Value.memberTokens]
    simp only [List.cons_append, List.append_assoc]
    rw [lex_comma, lex_blanks (sp.line_blank _), lex_literal, lex_colon, lex_blanks sp.colon_blank,
      lex_laidOut sp v (level + 1) (stops_membersLaidOut sp members level rest),
      lex_membersLaidOut sp members level]

end

/-- The text is one of the two texts of the value. -/
def Value.Written (v : Value) (s : String) : Prop := s = v.compactText ∨ s = v.spreadText

theorem Value.Written.lex_eq {v : Value} {s : String} (h : v.Written s) : lex s.toList = v.tokens := by
  have hlex : ∀ sp, lex (v.laidOut sp 0) = v.tokens := by
    intro sp
    simpa [lex_nil] using lex_laidOut sp v 0 stops_nil
  rcases h with rfl | rfl
  · rw [compactText, String.toList_ofList, compact_eq v 0, hlex]
  · rw [spreadText, String.toList_ofList, spreadAt_eq, hlex]

end CodeAtlas.Json
