import CodeAtlas.Proofs.Json.AnyOrder
import CodeAtlas.Proofs.Wire.Readers

/-!
# The texts of an entity

An entity has many texts.  Its members may stand in any order and under either of their names, what is not known
may be left out or `null`, a category may be left out if it is the default one, and other members may stand among
them.  The entity may also be an array of its fields.

* `NamedMember` — the text of a member, with the name that its key spells;
* `Entity.ToldBy v given` — the values that are given under the names of the fields are those of `v`;
* `Entity.Begun members` — the members are some of those of an entity, so that nothing in them is wrong;
* `Entity.decode_told` — every text of an entity is read as the entity; a field that is given again, under any of
  its names, and an identifier or a name that is missing are reported.
-/

namespace CodeAtlas

open Json

/-! ### Objects and what they give -/

/-- The text of a member, with the name that its key spells. -/
structure NamedMember extends Member where
  name : String
  key_writes : key.Writes name.toList
  key_quoted : QuotedText key keyText
  value_spelled : Spelled value valueText

namespace NamedMember

/-- The values that members give under one of the names, in the order of the text. -/
def values (members : List NamedMember) (names : List String) : List Document :=
  (members.filter fun m => m.name ∈ names).map fun m => m.value

def pairs (members : List NamedMember) : List (RawText × Document) := members.map fun m => m.pair

/-- The text of an object, with blanks before its first member. -/
def objectText (blanks : List Char) (members : List NamedMember) : List Char :=
  '\x7b' :: (blanks ++ ([','].intercalate (members.map fun m => m.text) ++ ['\x7d']))

/-- The text of an object up to the comma behind a member. -/
def openText (members : List NamedMember) : List Char :=
  '\x7b' :: members.flatMap fun m => m.text ++ [',']

theorem values_append (members more : List NamedMember) (names : List String) :
    values (members ++ more) names = values members names ++ values more names := by
  rw [values, List.filter_append, List.map_append]
  rfl

theorem valuesUnder_pairs (members : List NamedMember) : valuesUnder (pairs members) = values members := by
  funext names
  rw [valuesUnder, pairs, List.filter_map, List.map_map, values]
  simp only [Function.comp_def, Member.pair, key_writes _ |>.text?_eq, Option.any_some]

theorem passable_pairs (members : List NamedMember) : Fields.Passable (pairs members) := by
  intro m hm
  obtain ⟨m, -, rfl⟩ := List.mem_map.1 hm
  exact ⟨by rw [Member.pair, m.key_writes.text?_eq, Option.isSome_some], m.value_spelled.skipFault?_eq_none⟩

theorem quoted_of_mem (members : List NamedMember) :
    ∀ m ∈ members.map toMember, QuotedText m.key m.keyText := by
  intro m hm
  obtain ⟨m, -, rfl⟩ := List.mem_map.1 hm
  exact m.key_quoted

theorem spelled_of_mem (members : List NamedMember) :
    ∀ m ∈ members.map toMember, Spelled m.value m.valueText := by
  intro m hm
  obtain ⟨m, -, rfl⟩ := List.mem_map.1 hm
  exact m.value_spelled

/-- Behind its end nothing of an object's text is looked at. -/
theorem parse_objectText {before inside : List Char} (hbefore : Blanks before) (hinside : Blanks inside)
    (members : List NamedMember) (rest : List Char) :
    Document.parse (before ++ (objectText inside members ++ rest)) = (.object (pairs members) .closed, lex rest) := by
  have hobject : Spelled (.object ((members.map toMember).map Member.pair) .closed)
      ('\x7b' :: (inside ++ ([','].intercalate ((members.map toMember).map Member.text) ++ ['\x7d']))) :=
    .object hinside (quoted_of_mem members) (spelled_of_mem members)
  have hpadded : Spelled _ (before ++ (_ ++ [])) := .padded hbefore hobject blanks_nil
  have hparse : Document.parse (_ ++ rest) = (_, lex rest) :=
    hpadded.parse_append (by rintro ⟨n, hn⟩; cases hn)
  simpa [objectText, pairs, Function.comp_def] using hparse

/-- Behind a key nothing is needed for a member that has the key. -/
theorem exists_parse_openText {before : List Char} (hbefore : Blanks before) (members : List NamedMember)
    {key : RawText} {keyText : List Char} (hkey : QuotedText key keyText) (rest : List Char) :
    ∃ d more ending, (Document.parse (before ++ (openText members ++ (keyText ++ rest)))).1 =
      .object (pairs members ++ (key, d) :: more) ending := by
  have hparse := exists_parse_leading (quoted_of_mem members) (spelled_of_mem members) hbefore hkey rest
  simpa [openText, pairs, List.flatMap_map, Function.comp_def] using hparse

end NamedMember

namespace Entity

/-! ### What tells of an entity -/

/-- A single literal of the text. -/
def IsText (s : String) (ds : List Document) : Prop := ∃ t : RawText, ds = [.text t] ∧ t.Writes s.toList

/-- A single number, written by its digits. -/
def IsLine (n : ℕ) (ds : List Document) : Prop := ds = [.number (.ofInt n)]

/-- What is not known is left out or `null`. -/
def IsOptional {α : Type} (is : α → List Document → Prop) : Option α → List Document → Prop
  | none, ds => ds = [] ∨ ds = [.null]
  | some a, ds => is a ds

/-- The names of each field, in the order of the fields. -/
def fieldNames : List (List String) :=
  [["id"], ["name"], ["file"], ["code"], ["category", "type"], ["start_line", "startLine"],
    ["end_line", "endLine"]]

/-- The values that are given under the names of the fields are those of the entity. -/
structure ToldBy (v : Entity) (given : List String → List Document) : Prop where
  id : IsText v.id (given ["id"])
  name : IsText v.name (given ["name"])
  file : IsOptional IsText v.file (given ["file"])
  code : IsOptional IsText v.code (given ["code"])
  category : IsText v.category (given ["category", "type"]) ∨
    given ["category", "type"] = [] ∧ v.category = "other"
  startLine : IsOptional IsLine v.startLine (given ["start_line", "startLine"])
  endLine : IsOptional IsLine v.endLine (given ["end_line", "endLine"])

/-- The members are some of those of an entity. -/
def Begun (members : List NamedMember) : Prop :=
  ∃ v : Entity, v.Fits ∧ ∃ more, v.ToldBy (NamedMember.values (members ++ more))

/-! ### The fields of an entity -/

/-- The fields that the reader of entities looks for. -/
def fields :=
  Fields.field (.required "id" Reader.text) <|
  .field (.required "name" Reader.text) <|
  .field (.optional "file" Reader.text) <|
  .field (.optional "code" Reader.text) <|
  .field ((Field.defaulted "category" Reader.text defaultCategory).orNamed "type") <|
  .field ((Field.optional "start_line" Reader.natural).orNamed "startLine") <|
  .field ((Field.optional "end_line" Reader.natural).orNamed "endLine") .done

theorem table_fields : fields.table = fieldNames := rfl

theorem nodup_table_fields : fields.table.flatten.Nodup := by
  rw [table_fields]
  decide

theorem reader_eq : reader = (Fields.reader "CodeEntity" fields).map
    fun (id, name, file, code, category, startLine, endLine, ()) =>
      { id, name, file, code, category, startLine, endLine } := rfl

/-- Only the identifier and the name have to be given. -/
theorem missing?_fields (given : List String → List Document) :
    fields.missing? given =
      if (given ["id"]).isEmpty then some "id" else if (given ["name"]).isEmpty then some "name" else none := by
  simp [fields, Fields.missing?, Field.spellings, Field.required, Field.optional, Field.defaulted, Field.orNamed]

theorem IsText.read {s : String} {ds : List Document} (h : IsText s ds) (left : ℕ) :
    ∃ d, ds = [d] ∧ Reader.text left d = .ok s := by
  obtain ⟨t, rfl, ht⟩ := h
  refine ⟨_, rfl, ?_⟩
  show Reader.readText t = _
  rw [Reader.readText, ht.text?_eq]

theorem IsLine.read {n : ℕ} {ds : List Document} (h : IsLine n ds) (hn : n < Number.bound64) (left : ℕ) :
    ∃ d, ds = [d] ∧ Reader.natural left d = .ok n :=
  ⟨_, h, Reads.natural hn⟩

theorem IsOptional.gets {α : Type} {is : α → List Document → Prop} {o : Option α} {ds : List Document} {left : ℕ}
    (h : IsOptional is o ds) {f : Json.Field (Option α)} {r : Reader α} (hreader : f.reader = Reader.optional r)
    (habsent : f.absent = some none) (hread : ∀ a ∈ o, is a ds → ∃ d, ds = [d] ∧ r left d = .ok a)
    (hnull : ∀ a, r left .null ≠ .ok a) : ∃ o', f.Gets left ds o' ∧ (o' <|> f.absent) = some o := by
  cases o with
  | none =>
    rcases h with rfl | rfl
    · exact ⟨none, rfl, habsent⟩
    · exact ⟨some none, ⟨_, rfl, by rw [hreader]; rfl⟩, rfl⟩
  | some a =>
    obtain ⟨d, rfl, hd⟩ := hread a rfl h
    have hoptional : f.reader left d = .ok (some a) := by
      rw [hreader]
      cases d with
      | null => exact absurd hd (hnull a)
      | _ => simp only [Reader.optional, hd]; rfl
    exact ⟨some (some a), ⟨d, rfl, hoptional⟩, rfl⟩

theorem ToldBy.told {v : Entity} {given : List String → List Document} (h : v.ToldBy given) (hv : v.Fits)
    (left : ℕ) :
    fields.Told left given (v.id, v.name, v.file, v.code, v.category, v.startLine, v.endLine, ()) := by
  refine ⟨⟨some v.id, h.id.read left, rfl⟩, ⟨some v.name, h.name.read left, rfl⟩, ?_, ?_, ?_, ?_, ?_, trivial⟩
  · exact h.file.gets rfl rfl (fun _ _ hs => hs.read left) fun _ heq => by cases heq
  · exact h.code.gets rfl rfl (fun _ _ hs => hs.read left) fun _ heq => by cases heq
  · rcases h.category with hcategory | ⟨hempty, hother⟩
    · exact ⟨some v.category, hcategory.read left, rfl⟩
    · exact ⟨none, hempty, by rw [hother]; rfl⟩
  · exact h.startLine.gets rfl rfl (fun n hn h => h.read (hv.startLine n hn) left) fun _ heq => by cases heq
  · exact h.endLine.gets rfl rfl (fun n hn h => h.read (hv.endLine n hn) left) fun _ heq => by cases heq

theorem Begun.exists_draft {members : List NamedMember} (h : Begun members) (left : ℕ) :
    ∃ draft, fields.Drafts left (valuesUnder (NamedMember.pairs members)) draft := by
  obtain ⟨v, hv, more, htold⟩ := h
  obtain ⟨draft, hdraft, -⟩ := (htold.told hv left).exists_draft
  rw [NamedMember.valuesUnder_pairs]
  apply hdraft.exists_of_isPrefix
  intro names
  rw [NamedMember.values_append]
  exact List.prefix_append _ _

/-! ### Texts -/

/-- Where nothing follows in a text, what the reader makes of its document is what is made of it. -/
theorem decode_eq_ok {s : List Char} {d : Document} {v : Entity} (hparse : Document.parse s = (d, []))
    (hread : fields.reader "CodeEntity" maxNesting d =
      .ok (v.id, v.name, v.file, v.code, v.category, v.startLine, v.endLine, ())) :
    decode reader (String.ofList s) = .ok v := by
  have hreader : reader maxNesting d = .ok v := by
    rw [reader_eq, Reader.map, hread]
    rfl
  rw [decode, String.toList_ofList, hparse]
  simp only [hreader]
  rfl

/-- A mismatch is reported, whatever follows. -/
theorem decode_eq_error {s : List Char} {d : Document} {m : Mismatch} (hparse : (Document.parse s).1 = d)
    (hread : fields.reader "CodeEntity" maxNesting d = Reader.reject m) :
    decode reader (String.ofList s) = .error (.mismatch m) := by
  have hreader : reader maxNesting d = .error (.mismatch m) := by
    rw [reader_eq, Reader.map, hread]
    rfl
  rw [decode, String.toList_ofList]
  simp only [hparse, hreader]
  rfl

section Texts

variable {members : List NamedMember} {before inside : List Char}

theorem ToldBy.decode_object {v : Entity} (h : v.ToldBy (NamedMember.values members)) (hv : v.Fits)
    (hbefore : Blanks before) (hinside : Blanks inside) {behind : List Char} (hbehind : Blanks behind) :
    decode reader (String.ofList (before ++ (NamedMember.objectText inside members ++ behind))) = .ok v := by
  have hparse := NamedMember.parse_objectText hbefore hinside members behind
  have hlex : lex behind = [] := by simpa [lex_nil] using lex_blanks hbehind []
  rw [hlex] at hparse
  rw [← NamedMember.valuesUnder_pairs] at h
  exact decode_eq_ok hparse
    ((h.told hv 126).reader_object nodup_table_fields (NamedMember.passable_pairs members) "CodeEntity")

/-- An array gives at each place what an object gives under the names of the field of the place. -/
theorem ToldBy.decode_array {v : Entity} {items : List Document}
    (h : v.ToldBy fun names => items[fieldNames.idxOf names]?.toList) (hv : v.Fits)
    (hlength : items.length ≤ fieldNames.length) {s : List Char} (hs : Spelled (.array items .closed) s) :
    decode reader (String.ofList s) = .ok v := by
  have hparse : Document.parse (s ++ []) = (.array items .closed, lex []) :=
    hs.parse_append (by rintro ⟨n, hn⟩; cases hn)
  rw [List.append_nil, lex_nil] at hparse
  exact decode_eq_ok hparse ((h.told hv 126).ofItems_eq rfl hlength "CodeEntity" fieldNames.length 0)

theorem Begun.decode_duplicate (h : Begun members) {canonical : String} {aliases : List String}
    (hfield : canonical :: aliases ∈ fieldNames)
    (hgiven : NamedMember.values members (canonical :: aliases) ≠ []) {key : RawText} {name : String}
    (hname : name ∈ canonical :: aliases) (hkey : key.Writes name.toList) {keyText : List Char}
    (hquoted : QuotedText key keyText) (hbefore : Blanks before) (rest : List Char) :
    decode reader (String.ofList (before ++ (NamedMember.openText members ++ (keyText ++ rest)))) =
      .error (.mismatch (.duplicateField canonical)) := by
  obtain ⟨d, more, ending, hparse⟩ := NamedMember.exists_parse_openText hbefore members hquoted rest
  obtain ⟨draft, hdraft⟩ := h.exists_draft 126
  rw [← NamedMember.valuesUnder_pairs] at hgiven
  exact decode_eq_error hparse (hdraft.reader_duplicate nodup_table_fields (NamedMember.passable_pairs members)
    hfield hkey.text?_eq hname hgiven d more ending "CodeEntity")

theorem Begun.decode_missing (h : Begun members) {name : String}
    (hmissing : fields.missing? (NamedMember.values members) = some name) (hbefore : Blanks before)
    (hinside : Blanks inside) (rest : List Char) :
    decode reader (String.ofList (before ++ (NamedMember.objectText inside members ++ rest))) =
      .error (.mismatch (.missingField name)) := by
  have hparse := NamedMember.parse_objectText hbefore hinside members rest
  obtain ⟨draft, hdraft⟩ := h.exists_draft 126
  rw [← NamedMember.valuesUnder_pairs] at hmissing
  exact decode_eq_error (congrArg Prod.fst hparse)
    (hdraft.reader_missing nodup_table_fields (NamedMember.passable_pairs members) hmissing "CodeEntity")

end Texts

end Entity

/-! ### An entity with a text of its own -/

/-- A character that may stand for itself in a literal. -/
def isUnescaped (c : Char) : Bool := c ≠ '"' && c ≠ '\\' && 0x20 ≤ c.toNat

theorem literalText_chars {cs : List Char} (h : cs.all isUnescaped = true) :
    LiteralText (cs.map .char) cs := by
  induction cs with
  | nil => exact .nil
  | cons c cs ih =>
    rw [List.all_cons, Bool.and_eq_true] at h
    simp only [isUnescaped, Bool.and_eq_true, decide_eq_true_eq] at h
    exact .plain h.1.1.1 h.1.1.2 (by omega) (ih h.2)

theorem writes_chars (cs : List Char) : RawText.Writes (cs.map .char) cs := by
  induction cs with
  | nil => exact .nil
  | cons c cs ih => exact .char ih

/-- A literal without blanks around it. -/
theorem quotedText_of_literalText {t : RawText} {s : List Char} (h : LiteralText t s) :
    QuotedText t ('"' :: (s ++ ['"'])) := by
  have hquoted : QuotedText t ([] ++ '"' :: (s ++ ['"'])) := .mk blanks_nil h blanks_nil
  exact hquoted

namespace NamedMember

/-- A member with its name between quotes, and a value. -/
def plain (name : String) (hname : name.toList.all isUnescaped = true) {value : Document} {valueText : List Char}
    (hvalue : Spelled value valueText) : NamedMember where
  key := name.toList.map .char
  value := value
  keyText := '"' :: (name.toList ++ ['"'])
  valueText := valueText
  name := name
  key_writes := writes_chars _
  key_quoted := quotedText_of_literalText (literalText_chars hname)
  value_spelled := hvalue

end NamedMember

theorem spelled_chars {s : String} (h : s.toList.all isUnescaped = true) :
    Spelled (.text (s.toList.map .char)) ('"' :: (s.toList ++ ['"'])) :=
  .text (quotedText_of_literalText (literalText_chars h))

theorem digitsText_digit {c : Char} {n : ℕ} (hc : c.isDigit = true) (hn : digitValue c = n) :
    DigitsText [n] [c] :=
  ⟨by simp, by simpa using hc, by simpa using hn⟩

theorem eq_zero_of_head {c : Char} (h : [c].head? = some '0') : [c] = ['0'] := by
  rw [Option.some.inj h]

/-- The number `7`. -/
theorem spelled_seven : Spelled (.number (.ofInt 7)) ['7'] := by
  have hseven : NumeralText ⟨false, [7], [], none⟩ ['7'] :=
    @NumeralText.mk ⟨false, [7], [], none⟩ ['7'] [] [] (digitsText_digit rfl rfl) eq_zero_of_head .none .none
  exact .number hseven

/-- An array with the number `1.5e3` and an empty object in it. -/
theorem spelled_nested :
    Spelled (.array [.number ⟨false, [1], [5], some (false, [3])⟩, .object [] .closed] .closed)
      ['[', '1', '.', '5', 'e', '3', ',', '\x7b', ' ', '\x7d', ']'] := by
  have hnumber : NumeralText ⟨false, [1], [5], some (false, [3])⟩ ['1', '.', '5', 'e', '3'] :=
    @NumeralText.mk ⟨false, [1], [5], some (false, [3])⟩ ['1'] ['.', '5'] ['e', '3'] (digitsText_digit rfl rfl)
      eq_zero_of_head (.digits (digitsText_digit rfl rfl)) (.unsigned (.inl rfl) (digitsText_digit rfl rfl))
  have hempty : Spelled (.object [] .closed) ['\x7b', ' ', '\x7d'] :=
    @Spelled.object [] [' '] (by simp [Blanks, isSpace]) (by simp) (by simp)
  exact @Spelled.array [(_, ['1', '.', '5', 'e', '3']), (_, ['\x7b', ' ', '\x7d'])] [] blanks_nil
    (by simpa using ⟨.number hnumber, hempty⟩)

namespace Entity

def aliased : Entity :=
  { id := "e", name := "n", file := none, code := none, category := "class", startLine := some 7, endLine := none }

/-- The key is written with a unit for its first letter. -/
def aliasedName : NamedMember where
  key := .unit 0x6e :: ['a', 'm', 'e'].map .char
  value := .text ("n".toList.map .char)
  keyText := '"' :: ('\\' :: 'u' :: '0' :: '0' :: '6' :: 'e' :: ['a', 'm', 'e'] ++ ['"'])
  valueText := '"' :: ("n".toList ++ ['"'])
  name := "name"
  key_writes := RawText.Writes.unit (c := 'n') (by decide) (writes_chars ['a', 'm', 'e'])
  key_quoted := quotedText_of_literalText (.unit (by decide) (literalText_chars (by decide)))
  value_spelled := spelled_chars (by decide)

def aliasedMembers : List NamedMember :=
  [.plain "type" (by decide) (spelled_chars (s := "class") (by decide)),
    .plain "id" (by decide) (spelled_chars (s := "e") (by decide)),
    .plain "extra" (by decide) spelled_nested,
    aliasedName,
    .plain "file" (by decide) .null,
    .plain "startLine" (by decide) spelled_seven]

theorem fits_aliased : aliased.Fits where
  startLine n hn := by
    obtain rfl : 7 = n := Option.some.inj hn
    decide
  endLine n hn := by cases hn

theorem toldBy_aliasedMembers : aliased.ToldBy (NamedMember.values aliasedMembers) where
  id := ⟨_, rfl, writes_chars "e".toList⟩
  name := ⟨_, rfl, writes_chars "n".toList⟩
  file := .inr rfl
  code := .inl rfl
  category := .inl ⟨_, rfl, writes_chars "class".toList⟩
  startLine := rfl
  endLine := .inl rfl

/-- The fields of the entity in their order, the last one left out. -/
def aliasedItems : List (Document × List Char) :=
  [(.text ("e".toList.map .char), '"' :: ("e".toList ++ ['"'])),
    (.text ("n".toList.map .char), '"' :: ("n".toList ++ ['"'])), (.null, "null".toList), (.null, "null".toList),
    (.text ("class".toList.map .char), '"' :: ("class".toList ++ ['"'])), (.number (.ofInt 7), ['7'])]

theorem spelled_aliasedItems : ∀ x ∈ aliasedItems, Spelled x.1 x.2 := by
  simp only [aliasedItems, List.forall_mem_cons]
  exact ⟨spelled_chars (by decide), spelled_chars (by decide), .null, .null, spelled_chars (by decide),
    spelled_seven, by simp⟩

theorem toldBy_aliasedItems :
    aliased.ToldBy fun names => (aliasedItems.map Prod.fst)[fieldNames.idxOf names]?.toList where
  id := ⟨_, rfl, writes_chars "e".toList⟩
  name := ⟨_, rfl, writes_chars "n".toList⟩
  file := .inr rfl
  code := .inr rfl
  category := .inl ⟨_, rfl, writes_chars "class".toList⟩
  startLine := rfl
  endLine := .inl rfl

theorem decode_of_toList {s : String} {cs : List Char} {r : Except DecodeError Entity}
    (h : decode reader (String.ofList cs) = r) (hs : s.toList = cs) : decode reader s = r := by
  rw [← h, ← hs, String.ofList_toList]

/-! ### All texts -/

/-- Every text of an entity is read as the entity, be it an object with its members in any order or an array of
its fields.  If nothing before is wrong, a field that is given again is refused at its second name, and an
identifier or a name that is missing where the object ends; nothing behind that is looked at. -/
theorem decode_told :
    (∀ (v : Entity) (members : List NamedMember) (before inside behind : List Char), v.Fits →
      v.ToldBy (NamedMember.values members) → Blanks before → Blanks inside → Blanks behind →
      decode reader (String.ofList (before ++ (NamedMember.objectText inside members ++ behind))) = .ok v) ∧
    (∀ (v : Entity) (items : List Document) (s : List Char), v.Fits → items.length ≤ fieldNames.length →
      v.ToldBy (fun names => items[fieldNames.idxOf names]?.toList) → Spelled (.array items .closed) s →
      decode reader (String.ofList s) = .ok v) ∧
    (∀ (members : List NamedMember) (canonical : String) (aliases : List String) (key : RawText) (name : String)
      (before keyText rest : List Char), Begun members → canonical :: aliases ∈ fieldNames →
      NamedMember.values members (canonical :: aliases) ≠ [] → name ∈ canonical :: aliases →
      key.Writes name.toList → QuotedText key keyText → Blanks before →
      decode reader (String.ofList (before ++ (NamedMember.openText members ++ (keyText ++ rest)))) =
        .error (.mismatch (.duplicateField canonical))) ∧
    (∀ (members : List NamedMember) (before inside rest : List Char), Begun members → Blanks before →
      Blanks inside →
      (NamedMember.values members ["id"] = [] →
        decode reader (String.ofList (before ++ (NamedMember.objectText inside members ++ rest))) =
          .error (.mismatch (.missingField "id"))) ∧
      (NamedMember.values members ["id"] ≠ [] → NamedMember.values members ["name"] = [] →
        decode reader (String.ofList (before ++ (NamedMember.objectText inside members ++ rest))) =
          .error (.mismatch (.missingField "name")))) := by
  refine ⟨?_, ?_, ?_, ?_⟩
  · intro v members before inside behind hv htold hbefore hinside hbehind
    exact htold.decode_object hv hbefore hinside hbehind
  · intro v items s hv hlength htold hs
    exact htold.decode_array hv hlength hs
  · intro members canonical aliases key name before keyText rest hbegun hfield hgiven hname hkey hquoted hbefore
    exact hbegun.decode_duplicate hfield hgiven hname hkey hquoted hbefore rest
  · intro members before inside rest hbegun hbefore hinside
    constructor
    · intro hid
      exact hbegun.decode_missing (by simp [missing?_fields, hid]) hbefore hinside rest
    · intro hid hname
      exact hbegun.decode_missing (by simp [missing?_fields, hid, hname]) hbefore hinside rest

/-- The members in an order of their own, under other names and with one more among them; the array of the
fields; a category that follows a type; a name that is missing; and an identifier that is. -/
theorem decode_told_aliased :
    decode reader (" \x7b\"type\":\"class\",\"id\":\"e\",\"extra\":[1.5e3,\x7b \x7d]," ++
      "\"\\u006eame\":\"n\",\"file\":null,\"startLine\":7\x7d\n") = .ok aliased ∧
    decode reader "[\"e\",\"n\",null,null,\"class\",7]" = .ok aliased ∧
    decode reader "\x7b\"type\":\"class\",\"id\":\"e\",\"category\"?" =
      .error (.mismatch (.duplicateField "category")) ∧
    decode reader "\x7b\"type\":\"class\",\"id\":\"e\"\x7d?" = .error (.mismatch (.missingField "name")) ∧
    decode reader "\x7b\x7d" = .error (.mismatch (.missingField "id")) := by
  obtain ⟨hobject, harray, hduplicate, hmissing⟩ := decode_told
  have hbegun : Begun (aliasedMembers.take 2) :=
    ⟨aliased, fits_aliased, aliasedMembers.drop 2, toldBy_aliasedMembers⟩
  have hblank : Begun [] := ⟨aliased, fits_aliased, aliasedMembers, toldBy_aliasedMembers⟩
  have htype : NamedMember.values (aliasedMembers.take 2) ["category", "type"] ≠ [] := List.cons_ne_nil _ _
  have hid : NamedMember.values (aliasedMembers.take 2) ["id"] ≠ [] := List.cons_ne_nil _ _
  refine ⟨?_, ?_, ?_, ?_, ?_⟩
  · refine decode_of_toList (hobject aliased aliasedMembers [' '] [] ['\n'] fits_aliased toldBy_aliasedMembers
      ?_ blanks_nil ?_) (by decide +kernel)
    · simp [Blanks, isSpace]
    · simp [Blanks, isSpace]
  · exact decode_of_toList (harray aliased _ _ fits_aliased (by decide) toldBy_aliasedItems
      (.array blanks_nil spelled_aliasedItems)) (by decide +kernel)
  · exact decode_of_toList (hduplicate _ "category" ["type"] _ "category" [] _ ['?'] hbegun (by decide) htype
      (by decide) (writes_chars _) (quotedText_of_literalText (literalText_chars (by decide))) blanks_nil)
      (by decide +kernel)
  · exact decode_of_toList ((hmissing _ [] [] ['?'] hbegun blanks_nil blanks_nil).2 hid rfl) (by decide +kernel)
  · exact decode_of_toList ((hmissing _ [] [] [] hblank blanks_nil blanks_nil).1 rfl) (by decide +kernel)

end Entity

end CodeAtlas
