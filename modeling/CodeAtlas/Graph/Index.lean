import CodeAtlas.Graph.Basic

/-!
# The adjacency index

An index answers which edges leave, enter or touch an id. It knows the entities of a graph, one per id,
and optionally one entity more. An edge is *resolved* when both its ends are known; the others dangle and
are never listed. Every answer is in the order of the graph's edges and pairs each edge with the entity
at its other end.
-/

namespace CodeAtlas

/-- An edge both of whose ends are known entities. -/
structure Link where
  edge : Edge
  /-- The entity that the edge leaves. -/
  source : Entity
  /-- The entity that the edge enters. -/
  target : Entity
  deriving DecidableEq, Repr

/-- Known entities, one per id, and the edges between them. -/
structure Index where
  /-- The known entities, no two with the same id. -/
  entities : List Entity
  /-- The resolved edges in graph order. -/
  links : List Link
  /-- How many edges have an unknown end. -/
  dangling : Nat
  deriving Repr

namespace Index

/-- Of the entities with one id, only the first. -/
def firstPerId : List Entity → List Entity
  | [] => []
  | e :: rest => e :: (firstPerId rest).filter fun other => other.id ≠ e.id

/-- The entity with the id in a list. -/
def lookUp (entities : List Entity) (id : String) : Option Entity :=
  entities.find? fun e => e.id = id

/-- The edge with its two ends, if both are among the entities. -/
def resolve (entities : List Entity) (edge : Edge) : Option Link :=
  match lookUp entities edge.source, lookUp entities edge.target with
  | some source, some target => some ⟨edge, source, target⟩
  | _, _ => none

/-- The index of a graph, with one more entity if its id is new. -/
def ofGraph (g : Graph) (extra : Option Entity) : Index :=
  let entities := firstPerId (g.nodes ++ extra.toList)
  { entities
    links := g.edges.filterMap (resolve entities)
    dangling := g.edges.countP fun edge => (resolve entities edge).isNone }

/-- The index of a graph as seen from a selected entity, which may be missing from the graph. -/
def around (selected : Entity) (g : Graph) : Index :=
  ofGraph g (if (g.entity? selected.id).isSome then none else some selected)

/-- The known entity with the id. -/
def entity? (index : Index) (id : String) : Option Entity :=
  lookUp index.entities id

/-- Is the id known? -/
def contains (index : Index) (id : String) : Bool :=
  (index.entity? id).isSome

/-- The edges that leave the id, each with the entity it enters. -/
def outgoing (index : Index) (id : String) : List (Edge × Entity) :=
  index.links.filterMap fun l => if l.edge.source = id then some (l.edge, l.target) else none

/-- The edges that enter the id, each with the entity it leaves. -/
def incoming (index : Index) (id : String) : List (Edge × Entity) :=
  index.links.filterMap fun l => if l.edge.target = id then some (l.edge, l.source) else none

/-- The edges at the id in either direction, each with the entity at its other end; a self-loop is
listed once. -/
def touching (index : Index) (id : String) : List (Edge × Entity) :=
  index.links.filterMap fun l =>
    if l.edge.source = id then some (l.edge, l.target)
    else if l.edge.target = id then some (l.edge, l.source)
    else none

end Index

end CodeAtlas
