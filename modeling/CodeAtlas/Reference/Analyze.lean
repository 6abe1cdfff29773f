import CodeAtlas.Graph.Index
import CodeAtlas.Graph.Walk
import CodeAtlas.Reference.Basic
import CodeAtlas.Reference.Kind
import CodeAtlas.Text.Path
import CodeAtlas.Text.Sorted
import CodeAtlas.Usage.Scan

/-!
# Finding the references to an entity

The graph is walked outward from the selected entity, along edges in either direction, for a number of
hops. Every entity that is met and has a file and source text is searched for the name of the selected
one. An entity that shares an edge with the selected one and shows no usage in its text is counted with
one usage that stands for that edge.

What the entities contribute is gathered by file. The files with the most usages come first, and files
with equally many in the order of their paths.
-/

namespace CodeAtlas

/-- A way to find the usages of a name in a text. -/
abbrev Extractor := (source name : String) → List Usage

/-- What an entity contributes to the usages in its file. -/
structure Contribution where
  file : String
  entity : Entity
  usages : List Usage
  deriving DecidableEq, Repr

namespace Contribution

/-- The usage that stands for an edge between an entity and the selected one. -/
def edgeUsage (selected neighbour : Entity) (code : String) (edge : Edge) : Usage :=
  let label := edge.labelFrom neighbour.id
  let shown := (Text.lines code.toList).take (2 * Usage.contextRadius + 1)
  { line := 1
    column := 0
    kind := .ofRelationship label
    context := neighbour.name ++ " " ++ label ++ " " ++ selected.name ++ " (from code graph)"
    fullContext := String.ofList (['\n'].intercalate shown)
    scope := some neighbour.name
    pattern := "graph relationship: " ++ label }

/-- The first edge between an entity and the selected one. -/
def sharedEdge? (index : Index) (selected neighbour : Entity) : Option Edge :=
  ((index.touching neighbour.id).find? fun (_, other) => other.id = selected.id).map Prod.fst

/-- The usages of the selected entity in the text of another one. -/
def usagesIn (index : Index) (extract : Extractor) (selected neighbour : Entity) (code : String) :
    List Usage :=
  match extract code selected.name with
  | [] => (sharedEdge? index selected neighbour).toList.map (edgeUsage selected neighbour code)
  | usages => usages

/-- The usage with a note of its distance, if that is more than one hop. -/
def noteDistance (hop : Nat) (u : Usage) : Usage :=
  if 1 < hop then { u with pattern := u.pattern ++ " (depth " ++ toString hop ++ ")" } else u

/-- What an entity met at a distance contributes. -/
def of? (index : Index) (extract : Extractor) (selected : Entity) (hop : Nat) (neighbour : Entity) :
    Option Contribution :=
  match neighbour.file, neighbour.sourceText with
  | some file, some code =>
    match usagesIn index extract selected neighbour code with
    | [] => none
    | usages => some { file, entity := neighbour, usages := usages.map (noteDistance hop) }
  | _, _ => none

/-- The entities met within a number of hops, a list for each distance from one on. -/
def neighbourhood (index : Index) (selected : Entity) (hops : Nat) : List (List Entity) :=
  Walk.levels Entity.id (fun e => (index.touching e.id).map Prod.snd) hops [selected.id] [selected]

/-- All contributions in the order in which their entities are met. -/
def all (extract : Extractor) (selected : Entity) (g : Graph) (hops : Nat) : List Contribution :=
  let index := Index.around selected g
  ((neighbourhood index selected hops).zipIdx 1).flatMap fun (level, hop) =>
    level.filterMap (of? index extract selected hop)

end Contribution

/-! ### Gathering by file -/

namespace ReferenceFile

/-- The path without any leading dots-and-slashes. -/
def dropHere : (path : List Char) → List Char
  | '.' :: '/' :: rest => dropHere rest
  | path => path

/-- The path from the root of the project if it lies below it, and else without a leading part that only
says where it starts. -/
def relativePathOf (root : Option String) (file : String) : String :=
  let path := file.toList
  String.ofList <|
    (root.bind fun base => Text.Path.relativeTo? base.toList path).getD
      ((dropHere path).dropWhile (· = '/'))

/-- The last component of a path; a path without one is its own file name. -/
def fileNameOf (file : String) : String :=
  ((Text.Path.fileName? file.toList).map String.ofList).getD file

/-- Everything that was contributed to one file. -/
def gather (root : Option String) (contributions : List Contribution) (file : String) :
    ReferenceFile :=
  let own := contributions.filter fun c => c.file = file
  let usages := own.flatMap Contribution.usages
  { file
    fileName := fileNameOf file
    relativePath := relativePathOf root file
    usages
    totalUsages := usages.length
    referencing := own.map Contribution.entity }

/-- The files with contributions, the most usages first and equally many in the order of paths. -/
def ofContributions (root : Option String) (contributions : List Contribution) : List ReferenceFile :=
  ((Text.distinctSorted (contributions.map Contribution.file)).map (gather root contributions)).mergeSort
    fun a b => decide (b.totalUsages ≤ a.totalUsages)

/-- The references to an entity within a number of hops, by file. -/
def analyze (extract : Extractor) (root : Option String) (selected : Entity) (g : Graph)
    (hops : Nat) : List ReferenceFile :=
  ofContributions root (Contribution.all extract selected g hops)

end ReferenceFile

end CodeAtlas
