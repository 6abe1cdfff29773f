import CodeAtlas.Json.Document
import CodeAtlas.Proofs.Json.Tokens

/-!
# Documents of tokens

* `Arranged ts d` — the parser arranges the tokens into the document, whatever follows them.  It needs no more calls
  within each other than twice the number of tokens, which is less than what `parse` allows;
* `Arranged.array`, `Arranged.object` — containers inherit this from their parts;
* `Value.document v`, `Value.arranged_tokens` — the document of a value, all containers closed, and that it is what
  the tokens of the value are arranged into;
* `Value.Written.parse_eq` — either text of a value is parsed into its document, with nothing left over.
-/

namespace CodeAtlas.Json

namespace Document

/-! ### One step of the parser -/

theorem parseValue_openArray {t : Token} (ht : t ≠ .closeArray) (fuel : ℕ) (ts : List Token) :
    parseValue (fuel + 1) (.openArray :: t :: ts) =
      (.array (parseItems fuel (t :: ts)).1 (parseItems fuel (t :: ts)).2.1,
        (parseItems fuel (t :: ts)).2.2) := by
  rw [parseValue]
  intro rest heq
  exact ht (List.cons.inj heq).1

/-- An item that is followed by the end of the array is the last one. -/
theorem parseItems_last {fuel : ℕ} {tokens rest : List Token} {d : Document}
    (h : parseValue fuel tokens = (d, .closeArray :: rest)) :
    parseItems (fuel + 1) tokens = ([d], .closed, rest) := by
  rw [parseItems, h]

/-- Behind an item and a comma the next items follow. -/
theorem parseItems_comma {fuel : ℕ} {tokens ts : List Token} {t : Token} {d : Document}
    (ht : t ≠ .closeArray) (h : parseValue fuel tokens = (d, .comma :: t :: ts)) :
    parseItems (fuel + 1) tokens =
      (d :: (parseItems fuel (t :: ts)).1, (parseItems fuel (t :: ts)).2) := by
  rw [parseItems, h]
  cases t with
  | closeArray => exact absurd rfl ht
  | _ => rfl

theorem parseMembers_last {fuel : ℕ} {afterComma : Bool} {key : RawText} {tokens rest : List Token}
    {d : Document} (h : parseValue fuel tokens = (d, .closeObject :: rest)) :
    parseMembers (fuel + 1) afterComma (.text key :: .colon :: tokens) = ([(key, d)], .closed, rest) := by
  rw [parseMembers, h]

theorem parseMembers_comma {fuel : ℕ} {afterComma : Bool} {key : RawText} {tokens rest : List Token}
    {d : Document} (h : parseValue fuel tokens = (d, .comma :: rest)) :
    parseMembers (fuel + 1) afterComma (.text key :: .colon :: tokens) =
      ((key, d) :: (parseMembers fuel true rest).1, (parseMembers fuel true rest).2) := by
  rw [parseMembers, h]

theorem parseValue_openObject {ts : List Token} (hts : ts.head? ≠ some .closeObject) (fuel : ℕ) :
    parseValue (fuel + 1) (.openObject :: ts) =
      (.object (parseMembers fuel false ts).1 (parseMembers fuel false ts).2.1,
        (parseMembers fuel false ts).2.2) := by
  rw [parseValue]
  rintro rest rfl
  exact hts rfl

end Document

/-! ### Tokens that stand for a document -/

/-- Behind the first part, each part has a separator before it. -/
theorem intercalate_cons {α : Type} (sep part : List α) (parts : List (List α)) :
    sep.intercalate (part :: parts) = part ++ parts.flatMap fun p => sep ++ p := by
  induction parts generalizing part with
  | nil => simp
  | cons next parts ih =>
    rw [List.intercalate_cons_cons, ih, List.flatMap_cons, List.append_assoc, List.append_assoc]

/-- Before the last part, each part has a separator behind it. -/
theorem intercalate_concat {α : Type} (sep : List α) (parts : List (List α)) (part : List α) :
    sep.intercalate (parts ++ [part]) = (parts.flatMap fun p => p ++ sep) ++ part := by
  induction parts with
  | nil => simp
  | cons first parts ih =>
    rw [List.cons_append, List.intercalate_cons_of_ne_nil (by simp), ih, List.flatMap_cons, ← List.append_assoc]

/-- The parser arranges the tokens into the document, whatever follows them. -/
structure Arranged (ts : List Token) (d : Document) : Prop where
  /-- No value starts with the end of an array. -/
  starts : ∃ t ts', ts = t :: ts' ∧ t ≠ .closeArray
  /-- Every call within another one is paid for by a token. -/
  parseValue_append : ∀ {fuel : ℕ} (rest : List Token), 2 * ts.length ≤ fuel →
    Document.parseValue fuel (ts ++ rest) = (d, rest)

namespace Arranged

variable {β : Type} {doc : β → Document} {tokens : β → List Token}

/-- A value of a single token. -/
theorem single {t : Token} {d : Document} (ht : t ≠ .closeArray)
    (h : ∀ fuel rest, Document.parseValue (fuel + 1) (t :: rest) = (d, rest)) : Arranged [t] d where
  starts := ⟨t, [], rfl, ht⟩
  parseValue_append {fuel} rest hfuel := by
    obtain ⟨f, rfl⟩ : ∃ f, fuel = f + 1 := ⟨fuel - 1, by rw [List.length_singleton] at hfuel; omega⟩
    exact h f rest

/-- Behind an item, the parser finds the items that follow it and the end of the array. -/
theorem parseItems_eq {items : List β} (h : ∀ x ∈ items, Arranged (tokens x) (doc x)) {fuel : ℕ}
    {ts rest : List Token} {d : Document}
    (hfuel : 2 * (items.flatMap fun x => .comma :: tokens x).length ≤ fuel)
    (hd : Document.parseValue fuel ts = (d, (items.flatMap fun x => .comma :: tokens x) ++ .closeArray :: rest)) :
    Document.parseItems (fuel + 1) ts = (d :: items.map doc, .closed, rest) := by
  induction items generalizing fuel ts d with
  | nil => exact Document.parseItems_last hd
  | cons x items ih =>
    have hx := h x List.mem_cons_self
    obtain ⟨t, ts', hstart, ht⟩ := hx.starts
    simp only [List.flatMap_cons, List.length_append, List.length_cons] at hfuel
    obtain ⟨f, rfl⟩ : ∃ f, fuel = f + 1 := ⟨fuel - 1, by omega⟩
    have hitem : Document.parseValue f
        (tokens x ++ ((items.flatMap fun x => .comma :: tokens x) ++ .closeArray :: rest)) =
        (doc x, (items.flatMap fun x => .comma :: tokens x) ++ .closeArray :: rest) :=
      hx.parseValue_append _ (by omega)
    have hitems := ih (fun y hy => h y (List.mem_cons_of_mem x hy)) (by omega) hitem
    rw [List.flatMap_cons, List.append_assoc, List.cons_append] at hd
    rw [hstart, List.cons_append] at hd hitems
    rw [Document.parseItems_comma ht hd, hitems, List.map_cons]

theorem array {items : List β} (h : ∀ x ∈ items, Arranged (tokens x) (doc x)) :
    Arranged (.openArray :: ([Token.comma].intercalate (items.map tokens) ++ [.closeArray]))
      (.array (items.map doc) .closed) where
  starts := ⟨_, _, rfl, by decide⟩
  parseValue_append {fuel} rest hfuel := by
    obtain ⟨f, rfl⟩ : ∃ f, fuel = f + 1 := ⟨fuel - 1, by rw [List.length_cons] at hfuel; omega⟩
    cases items with
    | nil => rfl
    | cons x items =>
      have hx := h x List.mem_cons_self
      obtain ⟨t, ts', hstart, ht⟩ := hx.starts
      rw [List.map_cons, intercalate_cons, List.flatMap_map] at hfuel ⊢
      simp only [List.singleton_append, List.length_append, List.length_cons, List.length_nil] at hfuel
      obtain ⟨g, rfl⟩ : ∃ g, f = g + 1 := ⟨f - 1, by omega⟩
      have hitem : Document.parseValue g
          (tokens x ++ ((items.flatMap fun x => .comma :: tokens x) ++ .closeArray :: rest)) =
          (doc x, (items.flatMap fun x => .comma :: tokens x) ++ .closeArray :: rest) :=
        hx.parseValue_append _ (by omega)
      have hitems := parseItems_eq (fun y hy => h y (List.mem_cons_of_mem x hy)) (by omega) hitem
      simp only [List.cons_append, List.append_assoc, List.nil_append]
      rw [hstart, List.cons_append] at hitems ⊢
      rw [Document.parseValue_openArray ht, hitems, List.map_cons]

variable {key : β → RawText}

/-- The tokens of a member. -/
def member (key : β → RawText) (tokens : β → List Token) (x : β) : List Token :=
  .text (key x) :: .colon :: tokens x

/-- The tokens of members that others follow. -/
def leading (key : β → RawText) (tokens : β → List Token) (members : List β) : List Token :=
  members.flatMap fun x => member key tokens x ++ [.comma]

theorem leading_cons (x : β) (members : List β) (rest : List Token) :
    leading key tokens (x :: members) ++ rest =
      .text (key x) :: .colon :: (tokens x ++ .comma :: (leading key tokens members ++ rest)) := by
  simp [leading, member]

/-- The parser takes in the leading members and is left with calls enough for what follows them. -/
theorem parseMembers_leading {members : List β} (h : ∀ x ∈ members, Arranged (tokens x) (doc x)) {fuel : ℕ}
    (hfuel : 2 * (leading key tokens members).length ≤ fuel) (afterComma : Bool) (rest : List Token) :
    ∃ b f, fuel ≤ f + (leading key tokens members).length ∧
      Document.parseMembers fuel afterComma (leading key tokens members ++ rest) =
        ((members.map fun x => (key x, doc x)) ++ (Document.parseMembers f b rest).1,
          (Document.parseMembers f b rest).2) := by
  induction members generalizing fuel afterComma with
  | nil => exact ⟨afterComma, fuel, Nat.le_add_right _ _, rfl⟩
  | cons x members ih =>
    have hlength : (leading key tokens (x :: members)).length =
        (tokens x).length + (leading key tokens members).length + 3 := by
      simp only [leading, member, List.flatMap_cons, List.length_append, List.length_cons, List.length_nil]
      omega
    rw [hlength] at hfuel ⊢
    obtain ⟨f, rfl⟩ : ∃ f, fuel = f + 1 := ⟨fuel - 1, by omega⟩
    have hmore : 2 * (leading key tokens members).length ≤ f := by omega
    obtain ⟨b, g, hg, hmembers⟩ := ih (fun y hy => h y (List.mem_cons_of_mem x hy)) hmore true
    refine ⟨b, g, by omega, ?_⟩
    have hvalue : Document.parseValue f (tokens x ++ .comma :: (leading key tokens members ++ rest)) =
        (doc x, .comma :: (leading key tokens members ++ rest)) :=
      (h x List.mem_cons_self).parseValue_append _ (by omega)
    rw [leading_cons, Document.parseMembers_comma hvalue, hmembers, List.map_cons, List.cons_append]

/-- An object with a member in it does not start with its end. -/
theorem head_leading_ne (members : List β) (k : RawText) (rest : List Token) :
    (leading key tokens members ++ .text k :: rest).head? ≠ some .closeObject := by
  cases members with
  | nil => simp [leading]
  | cons x members => simp [leading_cons]

theorem object {members : List β} (h : ∀ x ∈ members, Arranged (tokens x) (doc x)) :
    Arranged (.openObject :: ([Token.comma].intercalate (members.map (member key tokens)) ++ [.closeObject]))
      (.object (members.map fun x => (key x, doc x)) .closed) where
  starts := ⟨_, _, rfl, by decide⟩
  parseValue_append {fuel} rest hfuel := by
    obtain ⟨f, rfl⟩ : ∃ f, fuel = f + 1 := ⟨fuel - 1, by rw [List.length_cons] at hfuel; omega⟩
    -- the last member is the one that the end of the object follows
    obtain rfl | ⟨members, last, rfl⟩ := members.eq_nil_or_concat
    · rfl
    · rw [List.concat_eq_append] at h hfuel ⊢
      have htokens : [Token.comma].intercalate ((members ++ [last]).map (member key tokens)) =
          leading key tokens members ++ member key tokens last := by
        rw [List.map_append, List.map_singleton, intercalate_concat, List.flatMap_map, leading]
      rw [htokens] at hfuel ⊢
      simp only [member, List.length_append, List.length_cons, List.length_nil] at hfuel
      simp only [member, List.cons_append, List.append_assoc, List.nil_append]
      have hleading : 2 * (leading key tokens members).length ≤ f := by omega
      obtain ⟨b, g, hg, hmembers⟩ := parseMembers_leading (fun y hy => h y (List.mem_append_left _ hy))
        hleading false (.text (key last) :: .colon :: (tokens last ++ .closeObject :: rest))
      obtain ⟨g, rfl⟩ : ∃ g', g = g' + 1 := ⟨g - 1, by omega⟩
      have hlast : Document.parseValue g (tokens last ++ .closeObject :: rest) =
          (doc last, .closeObject :: rest) :=
        (h last (by simp)).parseValue_append _ (by omega)
      rw [Document.parseValue_openObject (head_leading_ne _ _ _), hmembers, Document.parseMembers_last hlast,
        List.map_append, List.map_singleton]

end Arranged

/-! ### Whole values -/

namespace Value

mutual

/-- The document of a value. -/
def document : Value → Document
  | .null => .null
  | .bool b => .bool b
  | .number n => .number (.ofInt n)
  | .text s => .text (.ofText s)
  | .array items => .array (documents items) .closed
  | .object members => .object (memberDocuments members) .closed

/-- The documents of the items of an array. -/
def documents : List Value → List Document
  | [] => []
  | v :: rest => v.document :: documents rest

/-- The members of an object with their documents. -/
def memberDocuments : List (String × Value) → List (RawText × Document)
  | [] => []
  | (k, v) :: rest => (.ofText k, v.document) :: memberDocuments rest

end

theorem documents_eq_map (items : List Value) : documents items = items.map document := by
  induction items with
  | nil => rfl
  | cons v items ih => rw [documents, ih, List.map_cons]

theorem memberDocuments_eq_map (members : List (String × Value)) :
    memberDocuments members = members.map fun m => (.ofText m.1, m.2.document) := by
  induction members with
  | nil => rfl
  | cons m members ih => rw [memberDocuments, ih, List.map_cons]

theorem itemTokens_eq (items : List Value) :
    itemTokens items = (items.flatMap fun v => .comma :: v.tokens) ++ [.closeArray] := by
  induction items with
  | nil => rfl
  | cons v items ih => rw [itemTokens, ih, List.flatMap_cons, List.append_assoc]

theorem tokens_array (items : List Value) :
    (Value.array items).tokens =
      .openArray :: ([Token.comma].intercalate (items.map tokens) ++ [.closeArray]) := by
  cases items with
  | nil => rfl
  | cons v items =>
    rw [tokens, itemTokens_eq, List.map_cons, intercalate_cons, List.flatMap_map, List.append_assoc]
    rfl

theorem memberTokens_eq (members : List (String × Value)) :
    memberTokens members =
      (members.flatMap fun m => .comma :: .text (.ofText m.1) :: .colon :: m.2.tokens) ++ [.closeObject] := by
  induction members with
  | nil => rfl
  | cons m members ih => rw [memberTokens, ih, List.flatMap_cons, List.append_assoc]

theorem tokens_object (members : List (String × Value)) :
    (Value.object members).tokens =
      .openObject :: ([Token.comma].intercalate
        (members.map (Arranged.member (fun m => .ofText m.1) fun m => m.2.tokens)) ++ [.closeObject]) := by
  cases members with
  | nil => rfl
  | cons m members =>
    rw [tokens, memberTokens_eq, List.map_cons, intercalate_cons, List.flatMap_map, List.append_assoc]
    rfl

mutual

/-- The parser arranges the tokens of a value into its document. -/
theorem arranged_tokens : ∀ v : Value, Arranged v.tokens v.document
  | .null => .single (by decide) fun _ _ => rfl
  | .bool _ => .single (by simp) fun _ _ => rfl
  | .number _ => .single (by simp) fun _ _ => rfl
  | .text _ => .single (by simp) fun _ _ => rfl
  | .array items => by
    rw [tokens_array, document, documents_eq_map]
    exact .array (arranged_items items)
  | .object members => by
    rw [tokens_object, document, memberDocuments_eq_map]
    exact .object (arranged_members members)

theorem arranged_items : ∀ (items : List Value), ∀ v ∈ items, Arranged v.tokens v.document
  | v :: items, w, hw => by
    rcases List.mem_cons.1 hw with hfirst | hw
    · rw [hfirst]
      exact arranged_tokens v
    · exact arranged_items items w hw

theorem arranged_members : ∀ (members : List (String × Value)), ∀ m ∈ members,
    Arranged m.2.tokens m.2.document
  | (k, v) :: members, m, hm => by
    rcases List.mem_cons.1 hm with hfirst | hm
    · rw [hfirst]
      exact arranged_tokens v
    · exact arranged_members members m hm

end

end Value

/-- A text of a value is parsed into its document, with nothing left over. -/
theorem Value.Written.parse_eq {v : Value} {s : String} (h : v.Written s) :
    Document.parse s.toList = (v.document, []) := by
  have hparse : Document.parseValue (2 * v.tokens.length + 2) (v.tokens ++ []) = (v.document, []) :=
    v.arranged_tokens.parseValue_append [] (by omega)
  rw [List.append_nil] at hparse
  rw [Document.parse, h.lex_eq]
  exact hparse

end CodeAtlas.Json
