import CodeAtlas.Filter.Apply
import CodeAtlas.Filter.Options
import CodeAtlas.Filter.Summary
import CodeAtlas.Json.Record
import CodeAtlas.Json.Writer
import CodeAtlas.Wire.Graph

/-!
# Filters as JSON

The JSON form of filter options, of what a filter reports, and of its outcome.
-/

namespace CodeAtlas

open Json (Value Reader Field Fields)

namespace FilterOptions

/-- The options as JSON. -/
def toValue (o : FilterOptions) : Value :=
  .object [
    ("categories", Value.texts o.categories.members),
    ("skip_filtered_nodes", .bool o.skipHidden)]

/-- Read options; categories may come in any order and more than once. -/
def reader : Reader FilterOptions :=
  (Fields.reader "FilterOptions" <|
    .field (.defaulted "categories" (Reader.list Reader.text) []) <|
    .field (.defaulted "skip_filtered_nodes" Reader.boolean false) .done).map
    fun (categories, skipHidden, ()) => FilterOptions.ofList categories skipHidden

end FilterOptions

namespace FilterStats

/-- The counts as JSON. -/
def toValue (s : FilterStats) : Value :=
  .object [
    ("original_nodes", Value.natural s.nodesBefore),
    ("filtered_nodes", Value.natural s.nodesAfter),
    ("original_edges", Value.natural s.edgesBefore),
    ("filtered_edges", Value.natural s.edgesAfter),
    ("remapped_connections", Value.natural s.bridges),
    ("filtered_categories", Value.texts s.hiddenCategories)]

/-- Read counts. -/
def reader : Reader FilterStats :=
  (Fields.reader "FilterStats" <|
    .field (.required "original_nodes" Reader.natural) <|
    .field (.required "filtered_nodes" Reader.natural) <|
    .field (.required "original_edges" Reader.natural) <|
    .field (.required "filtered_edges" Reader.natural) <|
    .field (.required "remapped_connections" Reader.natural) <|
    .field (.required "filtered_categories" (Reader.list Reader.text)) .done).map
    fun (nodesBefore, nodesAfter, edgesBefore, edgesAfter, bridges, hiddenCategories, ()) =>
      { nodesBefore, nodesAfter, edgesBefore, edgesAfter, bridges, hiddenCategories }

end FilterStats

namespace Bridge

/-- The bridge as JSON. -/
def toValue (b : Bridge) : Value :=
  .object [
    ("original_path", Value.texts b.path),
    ("remapped_source", .text b.source),
    ("remapped_target", .text b.target),
    ("relationship", .text b.relationship),
    ("skipped_nodes", Value.texts b.skipped)]

/-- Read a bridge. -/
def reader : Reader Bridge :=
  (Fields.reader "RemappedConnection" <|
    .field (.required "original_path" (Reader.list Reader.text)) <|
    .field (.required "remapped_source" Reader.text) <|
    .field (.required "remapped_target" Reader.text) <|
    .field (.required "relationship" Reader.text) <|
    .field (.required "skipped_nodes" (Reader.list Reader.text)) .done).map
    fun (path, source, target, relationship, skipped, ()) =>
      { path, source, target, relationship, skipped }

end Bridge

namespace FilterOutcome

/-- The outcome as JSON. -/
def toValue (o : FilterOutcome) : Value :=
  .object [
    ("graph", o.graph.toValue),
    ("remapped_connections", .array (o.bridges.map Bridge.toValue)),
    ("stats", o.stats.toValue)]

end FilterOutcome

end CodeAtlas
