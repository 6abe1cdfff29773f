/-!
# What a filter reports

A filter that hides entities may put a *bridge* in place of a path through hidden ones, and it counts
what it kept.
-/

namespace CodeAtlas

/-- A connection that stands for a path through hidden entities. It says that its ends were connected,
not how. -/
structure Bridge where
  /-- The ids along the path, both ends included. -/
  path : List String
  source : String
  target : String
  /-- The label of the edge that stands for the path. -/
  relationship : String
  /-- The ids between the ends. -/
  skipped : List String
  deriving DecidableEq, Repr

/-- Counts before and after filtering. -/
structure FilterStats where
  nodesBefore : Nat
  nodesAfter : Nat
  edgesBefore : Nat
  edgesAfter : Nat
  /-- How many bridges were laid. -/
  bridges : Nat
  /-- The categories that were hidden, in increasing order. -/
  hiddenCategories : List String
  deriving DecidableEq, Repr

end CodeAtlas
