import CodeAtlas.Graph.Edge
import CodeAtlas.Graph.Entity

/-!
# Code graphs

A graph is a list of entities and a list of edges, both in the order in which they were recorded. Nothing
is checked: ids may repeat, and edges may name ids of no entity.
-/

namespace CodeAtlas

/-- Entities and the edges between them. -/
structure Graph where
  nodes : List Entity
  edges : List Edge
  deriving DecidableEq, Repr

namespace Graph

/-- The first entity with the id. -/
def entity? (g : Graph) (id : String) : Option Entity :=
  g.nodes.find? fun e => e.id = id

/-- The entity with the least id of the list, the first one of equals. -/
def leastId : List Entity → Option Entity
  | [] => none
  | e :: rest =>
    match leastId rest with
    | none => some e
    | some other => if other.id < e.id then some other else some e

/-- The entity that a query names: the first one with that id, or else, of those with that name, the one
with the least id. -/
def find? (g : Graph) (query : String) : Option Entity :=
  g.entity? query <|> leastId (g.nodes.filter fun e => e.name = query)

end Graph

end CodeAtlas
