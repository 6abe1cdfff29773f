import CodeAtlas.Hierarchy.Stats
import CodeAtlas.Hierarchy.Tree
import CodeAtlas.Json.Record
import CodeAtlas.Json.Writer
import CodeAtlas.Wire.Filter

/-!
# Trees as JSON

A node is written with its children and, if it has any, its parents. Reading goes as deep as containers
may nest: a node and the list of its children are two containers, so that sixty-four levels of nodes are
more than any text within the limit can hold.
-/

namespace CodeAtlas

open Json (Value Reader Field Fields)

namespace Node

mutual

/-- The node as JSON; what is not there is left out. -/
def toValue : Node → Value
  | ⟨entity, depth, relationship, expanded, children, parents, parentId⟩ =>
    .object <|
      [("entity", entity.toValue), ("depth", .number depth)] ++
      Value.member? "relationship" .text relationship ++
      [("is_expanded", .bool expanded), ("children", .array (toValues children))] ++
      (if parents.isEmpty then [] else [("parents", .array (toValues parents))]) ++
      Value.member? "parent_id" .text parentId

/-- The nodes of a list as JSON. -/
def toValues : List Node → List Value
  | [] => []
  | n :: rest => n.toValue :: toValues rest

end

/-- Read a node with at most `levels` levels of nodes, its own included. -/
def readerUpTo : (levels : Nat) → Reader Node
  | 0 => fun _ _ => Reader.refuse .malformed
  | levels + 1 =>
    (Fields.reader "HierarchyNode" <|
      .field (.required "entity" Entity.reader) <|
      .field (.required "depth" Reader.signed) <|
      .field (.optional "relationship" Reader.text) <|
      .field (.required "is_expanded" Reader.boolean) <|
      .field (.defaulted "children" (Reader.list (readerUpTo levels)) []) <|
      .field (.defaulted "parents" (Reader.list (readerUpTo levels)) []) <|
      .field (.optional "parent_id" Reader.text) .done).map
      fun (entity, depth, relationship, expanded, children, parents, parentId, ()) =>
        { entity, depth, relationship, expanded, children, parents, parentId }

/-- Read a node. -/
def reader : Reader Node := readerUpTo 64

end Node

namespace Tree

/-- The tree as JSON; what is not there is left out. -/
def toValue (t : Tree) : Value :=
  .object <|
    [("root_node", t.root.toValue),
     ("total_nodes", Value.natural t.totalNodes),
     ("max_depth", Value.natural t.maxDepth),
     ("relationship_types", Value.texts t.relationshipTypes)] ++
    Value.member? "filter_stats" FilterStats.toValue t.filterStats ++
    Value.member? "remapped_connections" (fun l => .array (l.map Bridge.toValue)) t.bridges

/-- Read a tree. -/
def reader : Reader Tree :=
  (Fields.reader "HierarchyTree" <|
    .field (.required "root_node" Node.reader) <|
    .field (.required "total_nodes" Reader.natural) <|
    .field (.required "max_depth" Reader.natural) <|
    .field (.required "relationship_types" (Reader.list Reader.text)) <|
    .field (.optional "filter_stats" FilterStats.reader) <|
    .field (.optional "remapped_connections" (Reader.list Bridge.reader)) .done).map
    fun (root, totalNodes, maxDepth, relationshipTypes, filterStats, bridges, ()) =>
      { root, totalNodes, maxDepth, relationshipTypes, filterStats, bridges }

end Tree

namespace TreeStats

/-- The counts as JSON, every object in the order of its keys as texts. -/
def toValue (s : TreeStats) : Value :=
  .object [
    ("nodes_by_category", .object (s.nodesByCategory.map fun (k, n) => (k, Value.natural n))),
    ("nodes_by_depth", .object (Text.sortOn Prod.fst
      (s.nodesByDepth.map fun (k, n) => (toString k, Value.natural n)))),
    ("parent_nodes", Value.natural s.parentNodes),
    ("total_nodes", Value.natural s.totalNodes),
    ("visible_nodes", Value.natural s.visibleNodes)]

end TreeStats

end CodeAtlas
