import CodeAtlas.Filter.Options
import CodeAtlas.Filter.Summary
import CodeAtlas.Graph.Index
import CodeAtlas.Graph.Walk
import CodeAtlas.Hierarchy.Build

/-!
# Filtering a graph by category

A filter keeps the entities of the allowed categories and the edges between kept ids. On request it also
bridges: where a directed path leads from a kept entity through hidden ones to another kept entity within
three edges, an edge from the first to the last is added. Paths are tried in the order of the kept
entities and, from each, depth first in the order of the graph's edges; the first path of a pair counts.
-/

namespace CodeAtlas

/-- A filtered graph with what was done to it. -/
structure FilterOutcome where
  graph : Graph
  bridges : List Bridge
  stats : FilterStats
  deriving DecidableEq, Repr

namespace Bridge

/-- The longest path, in edges, that a bridge may stand for. -/
def maxHops : Nat := 3

/-- The bridge over a path of ids. -/
def overPath (path : List String) : Bridge :=
  let skipped := path.tail.dropLast
  { path
    source := path.headD ""
    target := path.getLastD ""
    relationship := "remapped_" ++ toString skipped.length ++ "_hops"
    skipped }

/-- The edge that a bridge adds to the graph. -/
def edge (b : Bridge) : Edge :=
  { source := b.source, target := b.target, relationship := some b.relationship }

/-- All paths without repetition that continue `path` from the id `last` over at most `hops` edges,
through hidden ids only, up to the first kept one, in the order of the graph's edges. A path of a single
edge is no detour and is left out. -/
def detours (index : Index) (kept : String → Bool) :
    (hops : Nat) → (path : List String) → (last : String) → List (List String)
  | 0, _, _ => []
  | hops + 1, path, last =>
    (index.outgoing last).flatMap fun (_, next) =>
      if next.id ∈ path then []
      else if kept next.id then
        if path.length < 2 then [] else [path ++ [next.id]]
      else detours index kept hops (path ++ [next.id]) next.id

/-- The bridges from the given start ids, the first one for each pair of ends. -/
def between (index : Index) (kept : String → Bool) (starts : List String) : List Bridge :=
  firstPerPair [] ((starts.flatMap fun id => detours index kept maxHops [id] id).map overPath)
where
  /-- Of the bridges, the first one with each pair of ends that is not among `seen`. -/
  firstPerPair (seen : List (String × String)) : List Bridge → List Bridge
    | [] => []
    | b :: rest =>
      if (b.source, b.target) ∈ seen then firstPerPair seen rest
      else b :: firstPerPair ((b.source, b.target) :: seen) rest

end Bridge

namespace Graph

/-- The graph as it is, with the counts of a filter that hides nothing. -/
def unfiltered (g : Graph) : FilterOutcome :=
  { graph := g
    bridges := []
    stats :=
      { nodesBefore := g.nodes.length
        nodesAfter := g.nodes.length
        edgesBefore := g.edges.length
        edgesAfter := g.edges.length
        bridges := 0
        hiddenCategories := [] } }

/-- The graph with the entities for which `keep` holds and the edges between them, bridged if asked
for. -/
def restrict (g : Graph) (keep : Entity → Bool) (bridged : Bool) : FilterOutcome :=
  let nodes := g.nodes.filter keep
  let keptIds := nodes.map Entity.id
  let kept := fun id => keptIds.contains id
  let bridges := if bridged then Bridge.between (Index.ofGraph g none) kept keptIds else []
  let edges := (g.edges.filter fun e => kept e.source && kept e.target) ++ bridges.map Bridge.edge
  { graph := { nodes, edges }
    bridges
    stats :=
      { nodesBefore := g.nodes.length
        nodesAfter := nodes.length
        edgesBefore := g.edges.length
        edgesAfter := edges.length
        bridges := bridges.length
        hiddenCategories := Text.distinctSorted
          ((g.nodes.filter fun e => !keep e).map Entity.category) } }

/-- The graph filtered by category. An entity with the id `pinned` is kept whatever its category. -/
def filterPinned (g : Graph) (options : FilterOptions) (pinned : Option String) : FilterOutcome :=
  if options.active then
    g.restrict (fun e => options.categories.contains e.category || pinned = some e.id)
      options.skipHidden
  else g.unfiltered

/-- The graph filtered by category. -/
def filterByCategory (g : Graph) (options : FilterOptions) : FilterOutcome :=
  g.filterPinned options none

end Graph

namespace Tree

/-- The tree around the selected entity in the filtered graph, where the selected entity is kept whatever
its category. -/
def buildFiltered (selected : Entity) (g : Graph) (maxDepth : Nat) (options : FilterOptions) : Tree :=
  if options.active then
    let outcome := g.filterPinned options (some selected.id)
    { build selected outcome.graph maxDepth with
      filterStats := some outcome.stats
      bridges := if options.skipHidden then some outcome.bridges else none }
  else build selected g maxDepth

end Tree

end CodeAtlas
