import CodeAtlas.Filter.Summary
import CodeAtlas.Graph.Entity

/-!
# Hierarchy trees

A tree shows the surroundings of one entity. Each node holds an entity, how far it is from the root, the
label under which it was reached, and whether its children are shown. The root also lists its parents:
the entities with an edge into it.
-/

namespace CodeAtlas

/-- One position in a hierarchy tree. -/
structure Node where
  entity : Entity
  /-- Hops from the root; `-1` for the parents of the root. A signed 32-bit number. -/
  depth : Int
  /-- The label under which the node was reached; the root has none. -/
  relationship : Option String
  /-- Are the children shown? -/
  expanded : Bool
  children : List Node
  /-- The entities with an edge into this one, listed at the root only. -/
  parents : List Node
  /-- The id of the entity whose child this node is. -/
  parentId : Option String
  deriving BEq, Repr

/-- A view of a graph from one entity. -/
structure Tree where
  root : Node
  /-- The number of nodes reached through children. -/
  totalNodes : Nat
  /-- The greatest depth among them. -/
  maxDepth : Nat
  /-- Every label on a node or a parent, in increasing order. -/
  relationshipTypes : List String
  /-- Present when the tree was built over a filtered graph. -/
  filterStats : Option FilterStats
  /-- Present when filtering laid bridges. -/
  bridges : Option (List Bridge)
  deriving BEq, Repr

namespace Node

/-- The id of the node's entity. -/
def id (n : Node) : String := n.entity.id

/-- The name of the node's entity. -/
def name (n : Node) : String := n.entity.name

mutual

/-- The node and everything below it, each node before its children. -/
def preorder : Node → List Node
  | ⟨entity, depth, relationship, expanded, children, parents, parentId⟩ =>
    ⟨entity, depth, relationship, expanded, children, parents, parentId⟩ :: preorderAll children

/-- The walks of the nodes of a list, one after the other. -/
def preorderAll : List Node → List Node
  | [] => []
  | n :: rest => n.preorder ++ preorderAll rest

end

mutual

/-- The node and what its expansion shows: a node's children appear only where it is expanded. -/
def visible : Node → List Node
  | ⟨entity, depth, relationship, expanded, children, parents, parentId⟩ =>
    ⟨entity, depth, relationship, expanded, children, parents, parentId⟩ ::
      (if expanded then visibleAll children else [])

/-- The visible walks of the nodes of a list, one after the other. -/
def visibleAll : List Node → List Node
  | [] => []
  | n :: rest => n.visible ++ visibleAll rest

end

/-- The first node in preorder with the id. -/
def find? (n : Node) (id : String) : Option Node :=
  n.preorder.find? fun m => m.id = id

end Node

namespace Tree

/-- What the tree shows in its present state of expansion. -/
def visibleNodes (t : Tree) : List Node := t.root.visible

/-- The first node in preorder with the id, shown or not. -/
def find? (t : Tree) (id : String) : Option Node := t.root.find? id

end Tree

end CodeAtlas
