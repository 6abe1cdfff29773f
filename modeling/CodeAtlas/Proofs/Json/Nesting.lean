import CodeAtlas.Proofs.Json.Tokens

/-!
# How deep a text nests

* `nestingOf text` — the largest number of containers that are open at one place of a text;
* `Value.nesting v` — the height of a value in containers;
* `Value.Written.nestingOf_eq` — a text of a value nests as deep as the value is high, in either layout.
-/

namespace CodeAtlas.Json

/-! ### Texts -/

namespace Token

/-- The number of open containers behind a token, from the number before it. -/
def openBehind : Token → ℕ → ℕ
  | .openArray, opened => opened + 1
  | .openObject, opened => opened + 1
  | .closeArray, opened => opened - 1
  | .closeObject, opened => opened - 1
  | _, opened => opened

/-- The largest number of containers that are open somewhere among the tokens, `opened` of which are open
before them. -/
def mostOpen : (opened : ℕ) → List Token → ℕ
  | opened, [] => opened
  | opened, t :: rest => max opened (mostOpen (t.openBehind opened) rest)

end Token

/-- The largest number of containers that are open at one place of a text. -/
def nestingOf (text : String) : ℕ := Token.mostOpen 0 (lex text.toList)

/-! ### Values -/

namespace Value

mutual

/-- The height of a value: how many containers there are on the longest way into it. -/
def nesting : Value → ℕ
  | .array items => itemsNesting items + 1
  | .object members => membersNesting members + 1
  | _ => 0

/-- The largest height among the items of an array. -/
def itemsNesting : List Value → ℕ
  | [] => 0
  | v :: rest => max v.nesting (itemsNesting rest)

/-- The largest height among the members of an object. -/
def membersNesting : List (String × Value) → ℕ
  | [] => 0
  | (_, v) :: rest => max v.nesting (membersNesting rest)

end

@[simp] theorem nesting_bool (b : Bool) : (Value.bool b).nesting = 0 := rfl

@[simp] theorem nesting_number (n : Int) : (Value.number n).nesting = 0 := rfl

@[simp] theorem nesting_natural (n : ℕ) : (natural n).nesting = 0 := rfl

@[simp] theorem nesting_text (s : String) : (Value.text s).nesting = 0 := rfl

theorem nesting_array_le_iff {items : List Value} {n : ℕ} :
    (Value.array items).nesting ≤ n + 1 ↔ ∀ v ∈ items, v.nesting ≤ n := by
  rw [nesting, Nat.add_le_add_iff_right]
  induction items with
  | nil => simp [itemsNesting]
  | cons v items ih => rw [itemsNesting, max_le_iff, ih, List.forall_mem_cons]

theorem nesting_object_le_iff {members : List (String × Value)} {n : ℕ} :
    (Value.object members).nesting ≤ n + 1 ↔ ∀ m ∈ members, m.2.nesting ≤ n := by
  rw [nesting, Nat.add_le_add_iff_right]
  induction members with
  | nil => simp [membersNesting]
  | cons m members ih => rw [membersNesting, max_le_iff, ih, List.forall_mem_cons]

theorem nesting_map_le {α : Type} {write : α → Value} {n : ℕ} (l : List α)
    (h : ∀ a, (write a).nesting ≤ n) : (Value.array (l.map write)).nesting ≤ n + 1 := by
  rw [nesting_array_le_iff]
  simp [h]

theorem nesting_texts_le {n : ℕ} (l : List String) : (texts l).nesting ≤ n + 1 :=
  nesting_map_le l fun _ => Nat.zero_le n

theorem forall_mem_member? {α : Type} {P : String × Value → Prop} {name : String} {write : α → Value}
    {o : Option α} : (∀ m ∈ member? name write o, P m) ↔ ∀ a ∈ o, P (name, write a) := by
  cases o with
  | none => simp [member?]
  | some a => simp [member?]

mutual

/-- Along the tokens of a value as many containers are opened as the value is high, and all of them are
closed again. -/
theorem mostOpen_tokens : ∀ (v : Value) (opened : ℕ) (rest : List Token),
    Token.mostOpen opened (v.tokens ++ rest) = max (opened + v.nesting) (Token.mostOpen opened rest)
  | .null, opened, rest => rfl
  | .bool _, opened, rest => rfl
  | .number _, opened, rest => rfl
  | .text _, opened, rest => rfl
  | .array [], opened, rest => by
    show max opened (max (opened + 1) (Token.mostOpen opened rest)) = _
    rw [nesting, itemsNesting]
    omega
  | .array (v :: items), opened, rest => by
    simp only [tokens, List.cons_append, List.append_assoc, Token.mostOpen, Token.openBehind]
    rw [mostOpen_tokens v, mostOpen_itemTokens items, nesting, itemsNesting]
    omega
  | .object [], opened, rest => by
    show max opened (max (opened + 1) (Token.mostOpen opened rest)) = _
    rw [nesting, membersNesting]
    omega
  | .object ((k, v) :: members), opened, rest => by
    simp only [tokens, List.cons_append, List.append_assoc, Token.mostOpen, Token.openBehind]
    rw [mostOpen_tokens v, mostOpen_memberTokens members, nesting, membersNesting]
    omega

/-- The items that follow another one are inside of the array, which their end closes. -/
theorem mostOpen_itemTokens : ∀ (items : List Value) (opened : ℕ) (rest : List Token),
    Token.mostOpen (opened + 1) (itemTokens items ++ rest) =
      max (opened + 1 + itemsNesting items) (Token.mostOpen opened rest)
  | [], opened, rest => rfl
  | v :: items, opened, rest => by
    simp only [itemTokens, List.cons_append, List.append_assoc, Token.mostOpen, Token.openBehind]
    rw [mostOpen_tokens v, mostOpen_itemTokens items, itemsNesting]
    omega

/-- The members that follow another one are inside of the object, which their end closes. -/
theorem mostOpen_memberTokens : ∀ (members : List (String × Value)) (opened : ℕ) (rest : List Token),
    Token.mostOpen (opened + 1) (memberTokens members ++ rest) =
      max (opened + 1 + membersNesting members) (Token.mostOpen opened rest)
  | [], opened, rest => rfl
  | (k, v) :: members, opened, rest => by
    simp only [memberTokens, List.cons_append, List.append_assoc, Token.mostOpen, Token.openBehind]
    rw [mostOpen_tokens v, mostOpen_memberTokens members, membersNesting]
    omega

end

end Value

/-- A text of a value nests as deep as the value is high. -/
theorem Value.Written.nestingOf_eq {v : Value} {s : String} (h : v.Written s) :
    nestingOf s = v.nesting := by
  have hopen := Value.mostOpen_tokens v 0 []
  rw [List.append_nil, Nat.zero_add, Token.mostOpen, Nat.max_zero] at hopen
  rw [nestingOf, h.lex_eq, hopen]

end CodeAtlas.Json
