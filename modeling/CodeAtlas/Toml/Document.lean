import CodeAtlas.Toml.Item

/-!
# Documents

A document is a sequence of lines: comments, headers, and keys with their values. A key belongs to the
table whose header came last.
-/

namespace CodeAtlas.Toml

open Scan

/-! ### Values -/

/-- A number, a date or a time. -/
def quantity : Scan Item :=
  (do moment; return .moment) <|> (do floating; return .floating) <|>
    (do specialFloating; return .floating) <|> (do return .integer (← integer))

/-- An item with what may surround it in an array. -/
def element (value : Scan Item) : Scan Item := do
  gap
  let item ← value
  gap
  return item

/-- The items of an array; a comma may follow the last one. -/
def array (value : Scan Item) : Scan Item := do
  char '['
  let items ← maybe (do
    let first ← element value
    let more ← many (do char ','; element value)
    let _ ← maybe (char ',')
    return first :: more)
  gap
  char ']'
  return .array (items.getD [])

/-- A key with its value in a table that is written in one piece. -/
def pair (value : Scan Item) : Scan (List String × String × Item) := do
  let (first, more) ← key
  char '='
  blanks
  let item ← value
  blanks
  let path := first :: more
  return (path.dropLast, path.getLastD first, item)

/-- A table that is written in one piece. -/
def inlineTable (value : Scan Item) : Scan Item := do
  char '\x7b'
  let pairs ← maybe (do
    let first ← pair value
    let more ← many (do char ','; pair value)
    return first :: more)
  blanks
  char '\x7d'
  match (pairs.getD []).foldlM (fun (entries : Entries) (path, name, item) =>
      entries.addDotted path name item) [] with
  | some entries => return .inline entries
  | none => failure

/-- A value, where `nested` reads an array or a table that is written in one piece. -/
def valueWith (nested : Scan Item) : Scan Item := do
  match ← next? with
  | some '"' | some '\'' => return .text (String.ofList (← anyText))
  | some 't' => do text "true"; return .boolean true
  | some 'f' => do text "false"; return .boolean false
  | some '[' | some '\x7b' => nested
  | _ => quantity

/-- A value in which at most `n` arrays and tables are nested. -/
def value : (n : Nat) → Scan Item
  | 0 => valueWith failure
  | n + 1 => valueWith (array (value n) <|> inlineTable (value n))

/-! ### Lines -/

/-- The tables read so far, and the name of the table whose header came last. -/
structure Document where
  entries : Entries
  current : List String

namespace Document

/-- Nothing read yet. -/
def blank : Document := { entries := [], current := [] }

/-- Give a key of the current table its value. -/
def addPair (d : Document) (path : List String) (name : String) (item : Item) : Option Document := do
  let entries ← d.entries.inside d.current (Entries.addDotted path name item)
  return { d with entries }

/-- Open the table that a header names. -/
def openTable (d : Document) (path : List String) (name : String) : Option Document := do
  let entries ← d.entries.inside path (Entries.openTable name)
  return { entries, current := path ++ [name] }

/-- Open one more of the tables that a header names. -/
def openElement (d : Document) (path : List String) (name : String) : Option Document := do
  let entries ← d.entries.inside path (Entries.openElement name)
  return { entries, current := path ++ [name] }

/-- A header between brackets: where the table stands, and its name. -/
def header (opening closing : String) : Scan (List String × String) := do
  text opening
  let (first, more) ← key
  text closing
  lineRest
  let path := first :: more
  return (path.dropLast, path.getLastD first)

/-- Read one line. -/
def line (d : Document) : Scan Document := do
  match ← next? with
  | none => failure
  | some '#' => do
    comment
    lineEnd
    return d
  | some '\n' | some '\r' => do
    newline
    return d
  | some '[' =>
    if ((← get).drop 1).head? = some '[' then
      let (path, name) ← header "[[" "]]"
      fun s => (d.openElement path name).map (·, s)
    else
      let (path, name) ← header "[" "]"
      fun s => (d.openTable path name).map (·, s)
  | some _ =>
    let (path, name, item) ← pair (value (nestingLimit - 1))
    lineRest
    fun s => (d.addPair path name item).map (·, s)

/-- Read the lines up to the end of the text, at most `n` of them. -/
def linesUpTo : (n : Nat) → Document → Scan Document
  | 0, _ => failure
  | n + 1, d => do
    blanks
    match ← next? with
    | none => return d
    | some _ => linesUpTo n (← d.line)

/-- The entries of a text, if it is a document. -/
def read? (source : String) : Option Entries :=
  let chars := source.toList
  let content := if chars.head? = some '\ufeff' then chars.tail else chars
  (linesUpTo (content.length + 1) blank content).map fun (d, _) => d.entries

end Document

end CodeAtlas.Toml
