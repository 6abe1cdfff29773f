import CodeAtlas.Toml.Document

/-!
# Settings

Settings stand in a TOML document next to a graph. Each of them may be left out. A key with another name
is ignored, but a setting of the wrong type makes the document invalid.
-/

namespace CodeAtlas

/-- What a document next to a graph sets. -/
structure Settings where
  /-- Patterns of files whose entities are left out. -/
  exclude : Option (List String)
  /-- How far to walk if the command line does not say. -/
  maxDepth : Option Nat
  /-- The categories to keep if the command line names none. -/
  categories : Option (List String)
  /-- Are connections through hidden entities kept? -/
  skipFiltered : Option Bool
  /-- The directory that paths are shown from. -/
  projectRoot : Option String
  deriving DecidableEq, Repr

namespace Settings

open Toml (Item Entries)

/-- Nothing is set. -/
def unset : Settings :=
  { exclude := none, maxDepth := none, categories := none, skipFiltered := none,
    projectRoot := none }

/-- The text that an item is. -/
def text? : Item → Option String
  | .text s => some s
  | _ => none

/-- The texts that an item lists. -/
def texts? : Item → Option (List String)
  | .array items => items.mapM text?
  | _ => none

/-- The natural number that an item is. -/
def natural? : Item → Option Nat
  | .integer (.ofNat n) => some n
  | _ => none

/-- The truth value that an item is. -/
def boolean? : Item → Option Bool
  | .boolean b => some b
  | _ => none

/-- A setting, which may be left out but not have the wrong type. -/
def setting {α : Type} (read : Item → Option α) (name : String) (entries : Entries) :
    Option (Option α) :=
  match entries.lookup name with
  | none => some none
  | some item => (read item).map some

/-- The settings among the entries of a document. -/
def ofEntries? (entries : Entries) : Option Settings := do
  return {
    exclude := ← setting texts? "exclude" entries
    maxDepth := ← setting natural? "max_depth" entries
    categories := ← setting texts? "categories" entries
    skipFiltered := ← setting boolean? "skip_filtered_nodes" entries
    projectRoot := ← setting text? "project_root" entries }

/-- The settings in a text. -/
def ofText? (source : String) : Option Settings := do
  ofEntries? (← Toml.Document.read? source)

end Settings

end CodeAtlas
