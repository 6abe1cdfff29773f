import CodeAtlas.Hierarchy.Tree
import CodeAtlas.Text.Sorted

/-!
# Counting a tree

How many nodes a tree has, how many it shows, and how they spread over depths and categories.
-/

namespace CodeAtlas

/-- Counts of a tree in its present state of expansion. -/
structure TreeStats where
  /-- The nodes reached through children. -/
  totalNodes : Nat
  /-- Those shown. -/
  visibleNodes : Nat
  /-- The parents of the root. -/
  parentNodes : Nat
  /-- How many nodes each depth has, in increasing order of depth. -/
  nodesByDepth : List (Int × Nat)
  /-- How many nodes each category has, in increasing order of category. -/
  nodesByCategory : List (String × Nat)
  deriving DecidableEq, Repr

namespace TreeStats

/-- Each key of the list with the number of its occurrences, in increasing order of keys. -/
def tally {α : Type} [DecidableEq α] (le : α → α → Bool) (keys : List α) : List (α × Nat) :=
  ((Text.distinct keys).mergeSort le).map fun k => (k, keys.count k)

/-- The counts of a tree. -/
def ofTree (t : Tree) : TreeStats :=
  let nodes := t.root.preorder
  { totalNodes := nodes.length
    visibleNodes := t.visibleNodes.length
    parentNodes := t.root.parents.length
    nodesByDepth := tally (fun a b => decide (a ≤ b)) (nodes.map Node.depth)
    nodesByCategory := tally (fun a b => decide (a ≤ b)) (nodes.map fun n => n.entity.category) }

end TreeStats

end CodeAtlas
