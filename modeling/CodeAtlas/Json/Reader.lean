import CodeAtlas.Json.Error

/-!
# Readers

A reader turns a document into a value or says why not. It takes the number of containers that may still
be opened: a text nested deeper than that is refused. Readers go through a document in the order of its
text, so that of several problems the first one is reported.
-/

namespace CodeAtlas.Json

/-- The number of containers that may be open at once. -/
def maxNesting : Nat := 127

/-- A reader of values of a type; its first argument is the number of containers that may still be
opened. -/
abbrev Reader (α : Type) := Nat → Document → Except DecodeError α

namespace Reader

/-- Refuse because of a fault of the text. -/
def refuse {α : Type} (f : Fault) : Except DecodeError α := .error (.fault f)

/-- Refuse because of what the text describes. -/
def reject {α : Type} (m : Mismatch) : Except DecodeError α := .error (.mismatch m)

/-- Refuse if there is a fault. -/
def orFault {α : Type} (a : α) : Option Fault → Except DecodeError α
  | none => .ok a
  | some f => refuse f

/-- The text of a literal; a half of a pair that is alone is a fault. -/
def readText (t : RawText) : Except DecodeError String :=
  match t.text? with
  | some s => .ok s
  | none => refuse .malformed

/-- The value of a numeral; one that is too large is a fault. -/
def readQuantity (n : Numeral) : Except DecodeError Quantity :=
  match n.quantity? with
  | some q => .ok q
  | none => refuse .malformed

/-- Refuse a document of the wrong type. A text or a number is read first, and its own fault wins. -/
def wrongType {α : Type} (expected : Expected) : Document → Except DecodeError α
  | .null => reject (.wrongType .null expected)
  | .bool b => reject (.wrongType (.boolean b) expected)
  | .number n => do reject (.wrongType (.quantity (← readQuantity n)) expected)
  | .text t => do reject (.wrongType (.text (← readText t)) expected)
  | .array _ _ => reject (.wrongType .sequence expected)
  | .object _ _ => reject (.wrongType .map expected)
  | .broken token => refuse (Token.fault token)

/-! ### Scalars -/

/-- A text. -/
def text : Reader String
  | _, .text t => readText t
  | _, d => wrongType .text d

/-- A natural number below `2 ^ 64`. -/
def natural : Reader Nat
  | _, .number n => do
    match ← readQuantity n with
    | .natural n => return n
    | .negative n => reject (.outOfRange (-n) .natural)
    | q => reject (.wrongType (.quantity q) .natural)
  | _, d => wrongType .natural d

/-- A signed number of 32 bits. -/
def signed : Reader Int
  | _, .number n => do
    match ← readQuantity n with
    | .natural n => if n < Number.bound31 then return n else reject (.outOfRange n .signed)
    | .negative n => if n ≤ Number.bound31 then return -n else reject (.outOfRange (-n) .signed)
    | q => reject (.wrongType (.quantity q) .signed)
  | _, d => wrongType .signed d

/-- A truth value. -/
def boolean : Reader Bool
  | _, .bool b => .ok b
  | _, d => wrongType .boolean d

/-- A value or `null`. -/
def optional {α : Type} (r : Reader α) : Reader (Option α)
  | _, .null => .ok none
  | left, d => (r left d).map some

/-- The value changed by a function. -/
def map {α β : Type} (f : α → β) (r : Reader α) : Reader β :=
  fun left d => (r left d).map f

/-! ### Lists -/

/-- The values of the items of an array. -/
def readItems {α : Type} (r : Document → Except DecodeError α) :
    List Document → Except DecodeError (List α)
  | [] => .ok []
  | d :: rest => do
    let a ← r d
    let as ← readItems r rest
    return a :: as

/-- An array of values. -/
def list {α : Type} (r : Reader α) : Reader (List α)
  | 0, .array _ _ => refuse .malformed
  | left + 1, .array items ending => do
    let as ← readItems (r left) items
    orFault as ending.arrayFault?
  | _, d => wrongType .sequence d

/-! ### Variants -/

/-- The value that goes with a variant that has none. -/
def nothing : Document → Except DecodeError Unit
  | .null => .ok ()
  | d => wrongType .nothing d

/-- What stands in place of the name of a variant. -/
def variantName : Option Token → Except DecodeError String
  | some .null => wrongType .variant .null
  | some (.bool b) => wrongType .variant (.bool b)
  | some (.number n) => wrongType .variant (.number n)
  | some (.text t) => readText t
  | some .openArray => reject (.wrongType .sequence .variant)
  | some .openObject => reject (.wrongType .map .variant)
  | token => refuse (Token.fault token)

/-- The variant of the name. -/
def lookUp {α : Type} (variants : List (String × α)) (name : String) : Except DecodeError α :=
  match variants.lookup name with
  | some a => .ok a
  | none => reject (.unknownVariant name (variants.map Prod.fst))

/-- One of a fixed list of variants: its name, or an object with its name as only key and `null` as
value. Anything else is a fault of the text. -/
def variant {α : Type} (variants : List (String × α)) : Reader α
  | _, .text t => do lookUp variants (← readText t)
  | 0, .object _ _ => refuse .malformed
  | _ + 1, .object [] .closed => refuse .malformed
  | _ + 1, .object [] (.stopped token _) => do lookUp variants (← variantName token)
  | _ + 1, .object ((key, value) :: more) ending => do
    let a ← lookUp variants (← readText key)
    nothing value
    if more.isEmpty then orFault a ending.endFault? else refuse .malformed
  | _, .broken none => refuse .truncated
  | _, .broken (some (.brokenText read fault)) => refuse (RawText.fault read fault)
  | _, _ => refuse .malformed

end Reader

/-! ### Whole texts -/

/-- The value that a text describes; nothing but blanks may follow it. -/
def decode {α : Type} (r : Reader α) (text : String) : Except DecodeError α := do
  let (document, rest) := Document.parse text.toList
  let a ← r maxNesting document
  if rest.isEmpty then return a else Reader.refuse .malformed

end CodeAtlas.Json
