import CodeAtlas.Graph.Index
import CodeAtlas.Graph.Walk
import CodeAtlas.Hierarchy.Tree
import CodeAtlas.Number.Word
import CodeAtlas.Text.Sorted

/-!
# Building a hierarchy tree

The tree around a selected entity is found in two steps.

* Entities are *claimed* level by level, edges being followed in both directions. A claim records who
  made it and under which label. Each entity claims its unclaimed neighbours in the order of label, then
  name, then edges of the graph, so every id is claimed once, at its hop distance from the root.
* The claims are *assembled*: below each node hang the nodes that it claimed, in the order of their names.

The parents of the root are found apart, from the edges that enter it.
-/

namespace CodeAtlas

/-- An entity with its place in the tree, before the tree is assembled. -/
structure Claim where
  entity : Entity
  /-- Hops from the root. -/
  hops : Nat
  /-- The label under which the claim was made; the root has none. -/
  relationship : Option String
  /-- The id of the entity that made the claim; the root has none. -/
  claimant : Option String
  deriving DecidableEq, Repr

namespace Claim

/-- The id claimed. -/
def id (c : Claim) : String := c.entity.id

/-- The claim of the root. -/
def root (selected : Entity) : Claim :=
  { entity := selected, hops := 0, relationship := none, claimant := none }

/-- Labels come first and names second. -/
def candidateLe (a b : String × Entity) : Bool :=
  decide (a.1 < b.1) || (a.1 = b.1 && decide (a.2.name ≤ b.2.name))

/-- The neighbours of an id with the labels they are seen under, in the order in which they are
claimed. -/
def candidates (index : Index) (id : String) : List (String × Entity) :=
  ((index.touching id).map fun (edge, other) => (edge.labelFrom id, other)).mergeSort candidateLe

/-- The claims that an entity makes, before those on entities already claimed are struck out. -/
def expand (index : Index) (c : Claim) : List Claim :=
  (candidates index c.id).map fun (label, other) =>
    { entity := other, hops := c.hops + 1, relationship := some label, claimant := some c.id }

/-- The claims below the root, level by level, down to `maxDepth` hops. -/
def levels (index : Index) (selected : Entity) (maxDepth : Nat) : List (List Claim) :=
  Walk.levels Claim.id (expand index) maxDepth [selected.id] [root selected]

/-- All claims in the order in which they were made. -/
def table (index : Index) (selected : Entity) (maxDepth : Nat) : List Claim :=
  root selected :: (levels index selected maxDepth).flatten

end Claim

namespace Node

/-- A number of hops as a depth: the signed 32-bit number with the same last 32 bits, which is the number
itself below `2 ^ 31`. -/
def depthOfHops (hops : Nat) : Int := Int.bmod hops (2 * Number.bound31)

/-- The depth of the parents of the root. -/
def parentDepth : Int := -1

/-- The node of a claim with everything claimed below it. -/
def assemble : (levels : List (List Claim)) → Claim → Node
  | [], c => leaf c
  | next :: deeper, c =>
    let own := next.filter fun d => d.claimant = some c.id
    { leaf c with children := Text.sortOn Node.name (own.map (assemble deeper)) }
where
  /-- The node of a claim that claimed nothing. -/
  leaf (c : Claim) : Node :=
    { entity := c.entity
      depth := depthOfHops c.hops
      relationship := c.relationship
      expanded := c.hops = 0
      children := []
      parents := []
      parentId := c.claimant }

/-- The node that shows a caller of the root. -/
def caller (edge : Edge) (source : Entity) : Node :=
  { entity := source
    depth := parentDepth
    relationship := some (edge.labelFrom source.id)
    expanded := false
    children := []
    parents := []
    parentId := none }

/-- The callers of an id other than itself, each once under the label of its first edge, in the order of
their edges. -/
def callers (index : Index) (id : String) : List Node :=
  Walk.fresh Node.id [id] ((index.incoming id).map fun (edge, source) => caller edge source)

end Node

namespace Tree

/-- The tree of everything within `maxDepth` hops of the selected entity. -/
def build (selected : Entity) (g : Graph) (maxDepth : Nat) : Tree :=
  let index := Index.around selected g
  let levels := Claim.levels index selected maxDepth
  let claims := Claim.root selected :: levels.flatten
  let callers := Node.callers index selected.id
  { root :=
      { Node.assemble levels (Claim.root selected) with parents := Text.sortOn Node.name callers }
    totalNodes := claims.length
    maxDepth := levels.length
    relationshipTypes := Text.distinctSorted
      (claims.filterMap Claim.relationship ++ callers.filterMap Node.relationship)
    filterStats := none
    bridges := none }

end Tree

end CodeAtlas
