import CodeAtlas.Toml.Number

/-!
# Items

What a key may stand for. A table that is written in one piece is closed; one that headers or dotted keys
build up remembers how it came about, because that decides what may still be added to it.

* A key is given a value once.
* A header opens a table once. A table that was only passed through by the headers of tables inside it may
  still be opened.
* A dotted key adds to tables that dotted keys have made.
-/

namespace CodeAtlas.Toml

/-- How an open table came about. -/
inductive Origin where
  /-- A header opened it. -/
  | header
  /-- The header of a table inside it passed through it. -/
  | passed
  /-- Dotted keys made it. -/
  | dotted
  deriving DecidableEq, Repr

/-- What a key stands for. -/
inductive Item where
  | text (s : String)
  | integer (n : Int)
  /-- A floating point number, which is not kept. -/
  | floating
  | boolean (b : Bool)
  /-- A date or a time, which is not kept. -/
  | moment
  | array (items : List Item)
  /-- A table written in one piece. -/
  | inline (entries : List (String × Item))
  /-- A table that is built up. -/
  | table (origin : Origin) (entries : List (String × Item))
  /-- Tables that are each opened by a header of the same name. -/
  | tables (elements : List (List (String × Item)))

/-- The entries of a table. -/
abbrev Entries := List (String × Item)

/-- Change the last member of a list, if there is one. -/
def changeLast {α : Type} (f : α → Option α) : List α → Option (List α)
  | [] => none
  | [a] => (f a).map ([·])
  | a :: rest => (changeLast f rest).map (a :: ·)

namespace Entries

/-- Change what a key stands for, or add the key. -/
def change (name : String) (f : Option Item → Option Item) : Entries → Option Entries
  | [] => (f none).map fun item => [(name, item)]
  | (k, item) :: rest =>
    if k = name then (f (some item)).map fun new => (k, new) :: rest
    else (change name f rest).map ((k, item) :: ·)

/-- Give a key its value. -/
def add (name : String) (item : Item) (entries : Entries) : Option Entries :=
  entries.change name fun
    | none => some item
    | some _ => none

/-- Give a dotted key its value: `path` and then `name`. -/
def addDotted : (path : List String) → (name : String) → Item → Entries → Option Entries
  | [], name, item, entries => entries.add name item
  | part :: path, name, item, entries =>
    entries.change part fun
      | none => (addDotted path name item []).map (.table .dotted)
      | some (.table origin inner) =>
        if origin = .dotted ∨ (origin = .passed ∧ path ≠ []) then
          (addDotted path name item inner).map (.table origin)
        else none
      | some (.tables elements) =>
        if path = [] then none else (changeLast (addDotted path name item) elements).map .tables
      | some _ => none

/-- Change the table that a header names, passing through the tables around it. -/
def inside : (path : List String) → (f : Entries → Option Entries) → Entries → Option Entries
  | [], f, entries => f entries
  | part :: path, f, entries =>
    entries.change part fun
      | none => (inside path f []).map (.table .passed)
      | some (.table origin inner) => (inside path f inner).map (.table origin)
      | some (.tables elements) => (changeLast (inside path f) elements).map .tables
      | some _ => none

/-- Open a table: it is new, or was only passed through. -/
def openTable (name : String) (entries : Entries) : Option Entries :=
  entries.change name fun
    | none => some (.table .header [])
    | some (.table .passed inner) => some (.table .header inner)
    | some _ => none

/-- Open one more of several tables of a name. -/
def openElement (name : String) (entries : Entries) : Option Entries :=
  entries.change name fun
    | none => some (.tables [[]])
    | some (.tables elements) => some (.tables (elements ++ [[]]))
    | some _ => none

end Entries

end CodeAtlas.Toml
