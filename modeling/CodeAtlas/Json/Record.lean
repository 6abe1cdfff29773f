import CodeAtlas.Json.Reader

/-!
# Records

A record is an object whose members are known by name, or an array of its fields in order. A field may
have other names, and it may be left out if it has a value for that case. Unknown members are skipped.
A member that gives a field for the second time is refused when its name is read, before its value; a
field that is missing is noticed when the object closes.
-/

namespace CodeAtlas.Json

/-- A field of a record. -/
structure Field (α : Type) where
  name : String
  /-- Other names under which the field may be given. -/
  aliases : List String
  reader : Reader α
  /-- The value if the field is not given; none if it has to be. -/
  absent : Option α

namespace Field

/-- A field that has to be given. -/
def required {α : Type} (name : String) (reader : Reader α) : Field α :=
  { name, aliases := [], reader, absent := none }

/-- A field with a value for when it is not given. -/
def defaulted {α : Type} (name : String) (reader : Reader α) (value : α) : Field α :=
  { name, aliases := [], reader, absent := some value }

/-- A field that may be left out or `null`. -/
def optional {α : Type} (name : String) (reader : Reader α) : Field (Option α) :=
  { name, aliases := [], reader := Reader.optional reader, absent := some none }

/-- The field with one more name. -/
def orNamed {α : Type} (f : Field α) (name : String) : Field α :=
  { f with aliases := f.aliases ++ [name] }

/-- Does the name mean this field? -/
def answersTo {α : Type} (f : Field α) (name : String) : Bool :=
  name = f.name || f.aliases.contains name

end Field

/-- The fields of a record in order. The first index is the type of a draft, in which each field is given
or not yet given; the second is the type of the finished fields. -/
inductive Fields : Type → Type → Type 1 where
  | done : Fields Unit Unit
  | field {α δ β : Type} (f : Field α) (rest : Fields δ β) : Fields (Option α × δ) (α × β)

namespace Fields

/-- The number of fields. -/
def count {δ β : Type} : Fields δ β → Nat
  | .done => 0
  | .field _ rest => rest.count + 1

/-- The draft in which nothing is given. -/
def blank {δ β : Type} : Fields δ β → δ
  | .done => ()
  | .field _ rest => (none, rest.blank)

/-- The draft with the member taken in, or nothing if no field has its name. -/
def put? {δ β : Type} (left : Nat) (name : String) (d : Document) :
    Fields δ β → δ → Option (Except DecodeError δ)
  | .done, _ => none
  | .field f rest, (given, draft) =>
    if f.answersTo name then
      some <| match given with
        | some _ => Reader.reject (.duplicateField f.name)
        | none => (f.reader left d).map fun a => (some a, draft)
    else (rest.put? left name d draft).map fun result => result.map fun draft => (given, draft)

/-- The fields of a draft; the first one that is missing is reported. -/
def finish {δ β : Type} : Fields δ β → δ → Except DecodeError β
  | .done, _ => .ok ()
  | .field f rest, (given, draft) =>
    match given <|> f.absent with
    | some a => (rest.finish draft).map fun b => (a, b)
    | none => Reader.reject (.missingField f.name)

/-- Take in the members of an object one after the other. -/
def putAll {δ β : Type} (left : Nat) (fields : Fields δ β) (draft : δ) :
    List (RawText × Document) → Except DecodeError δ
  | [] => .ok draft
  | (key, d) :: rest => do
    let name ← Reader.readText key
    match fields.put? left name d draft with
    | some result => putAll left fields (← result) rest
    | none =>
      Reader.orFault () d.skipFault?
      putAll left fields draft rest

/-- The fields from the items of an array, `seen` of which came before. The array has to end with them;
items may be missing at its end where fields need not be given. -/
def ofItems {δ β : Type} (left : Nat) (record : String) (total : Nat) (ending : Ending) :
    Fields δ β → (seen : Nat) → List Document → Except DecodeError β
  | .done, _, [] => Reader.orFault () ending.endFault?
  | .done, _, _ :: _ => Reader.refuse .malformed
  | .field f rest, seen, d :: items => do
    let a ← f.reader left d
    let b ← rest.ofItems left record total ending (seen + 1) items
    return (a, b)
  | .field f rest, seen, [] => do
    Reader.orFault () ending.arrayFault?
    match f.absent with
    | some a => (rest.ofItems left record total ending (seen + 1) []).map fun b => (a, b)
    | none => Reader.reject (.tooShort seen record total)

/-- The reader of a record. -/
def reader {δ β : Type} (record : String) (fields : Fields δ β) : Reader β
  | 0, .object _ _ => Reader.refuse .malformed
  | 0, .array _ _ => Reader.refuse .malformed
  | left + 1, .object members ending => do
    let draft ← fields.putAll left fields.blank members
    Reader.orFault () (ending.objectFault? RawText.fault members.isEmpty)
    fields.finish draft
  | left + 1, .array items ending => fields.ofItems left record fields.count ending 0 items
  | _, d => Reader.wrongType (.record record) d

end Fields

end CodeAtlas.Json
