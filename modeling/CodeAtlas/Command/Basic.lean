import CodeAtlas.Report.Layout

/-!
# Commands

What can be asked for on the command line. A file and an entity are given as they are written there.
-/

namespace CodeAtlas

/-- A request with its options. -/
inductive Command where
  /-- Print the tree around an entity. -/
  | tree (graph entity : String) (depth : Option Nat) (categories : List String)
      (skipFiltered : Bool) (expandDepth : Option Int) (layout : Layout)
  /-- List the files that use an entity. -/
  | refs (graph entity : String) (depth : Option Nat) (layout : Layout)
  /-- Filter a graph by category. -/
  | filter (graph : String) (categories : List String) (skipFiltered : Bool) (layout : Layout)
  /-- Count the tree around an entity. -/
  | stats (graph entity : String) (depth : Option Nat) (layout : Layout)
  deriving DecidableEq, Repr

/-- The file that holds the graph. -/
def Command.graphPath : Command → String
  | .tree graph .. => graph
  | .refs graph .. => graph
  | .filter graph .. => graph
  | .stats graph .. => graph

end CodeAtlas
