import CodeAtlas.Text.Path

/-!
# Files

What reading a file may give, and a tree of directories and files in which paths are looked up. A path is
followed name by name; on the way every name has to be that of a directory, also where the next segment
means nothing or leads upward.
-/

namespace CodeAtlas

/-- What reading a file gives. -/
inductive FileContent where
  /-- There is no such file. -/
  | missing
  /-- There is something that cannot be read as text. -/
  | unreadable
  | text (content : String)
  deriving DecidableEq, Repr

/-- What may stand at a place in a tree of files. -/
inductive FileEntry where
  | directory
  /-- A file that is no text. -/
  | binary
  | text (content : String)
  deriving DecidableEq, Repr

/-- The entries below a directory, each with the names that lead to it. -/
abbrev FileTree := List (List String × FileEntry)

namespace FileTree

/-- The tree with an entry for each of the given paths. -/
def ofPaths (l : List (String × FileEntry)) : FileTree :=
  l.map fun (path, entry) =>
    ((Text.Path.names (Text.Path.segments path.toList)).map String.ofList, entry)

/-- What stands at a place. A directory need not be listed if something is listed below it. -/
def entry? (t : FileTree) (place : List String) : Option FileEntry :=
  if place = [] then some .directory
  else
    match t.lookup place with
    | some entry => some entry
    | none => if t.any fun (names, _) => place.isPrefixOf names then some .directory else none

/-- Follow segments from a place. -/
def follow (t : FileTree) : (place : List String) → (segments : List (List Char)) → Option FileEntry
  | place, [] => t.entry? place
  | place, s :: rest =>
    if t.entry? place = some .directory then
      if Text.Path.isIdle s then follow t place rest
      else if s = ['.', '.'] then
        if place = [] then none else follow t place.dropLast rest
      else follow t (place ++ [String.ofList s]) rest
    else none

/-- Read the file at a path from the directory in which one stands. -/
def read (t : FileTree) (path : String) : FileContent :=
  if path.isEmpty || ['/'].isPrefixOf path.toList then .missing
  else
    match t.follow [] (Text.Path.segments path.toList) with
    | none => .missing
    | some (.text content) => .text content
    | some _ => .unreadable

/-! ### Examples -/

example :
    let t := ofPaths [("graph.json", .text "x"), ("sub/a", .binary)]
    t.read "sub/../graph.json" = .text "x" ∧ t.read "none/../graph.json" = .missing ∧
      t.read "graph.json/" = .missing ∧ t.read "sub" = .unreadable := by
  decide +kernel

end FileTree

end CodeAtlas
