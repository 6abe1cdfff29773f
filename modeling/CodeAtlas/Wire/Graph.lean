import CodeAtlas.Graph.Basic
import CodeAtlas.Json.Record
import CodeAtlas.Json.Writer

/-!
# Graphs as JSON

The JSON form of entities, edges and graphs: how they are written, and how they are read. A category may
also be called a type, and line numbers may be spelled in either of two ways.
-/

namespace CodeAtlas

open Json (Value Reader Field Fields)

namespace Entity

/-- The entity as JSON; what is not known is left out. -/
def toValue (e : Entity) : Value :=
  .object <|
    [("id", .text e.id), ("name", .text e.name)] ++
    Value.member? "file" .text e.file ++
    Value.member? "code" .text e.code ++
    [("category", .text e.category)] ++
    Value.member? "start_line" Value.natural e.startLine ++
    Value.member? "end_line" Value.natural e.endLine

/-- Read an entity. -/
def reader : Reader Entity :=
  (Fields.reader "CodeEntity" <|
    .field (.required "id" Reader.text) <|
    .field (.required "name" Reader.text) <|
    .field (.optional "file" Reader.text) <|
    .field (.optional "code" Reader.text) <|
    .field ((Field.defaulted "category" Reader.text Entity.defaultCategory).orNamed "type") <|
    .field ((Field.optional "start_line" Reader.natural).orNamed "startLine") <|
    .field ((Field.optional "end_line" Reader.natural).orNamed "endLine") .done).map
    fun (id, name, file, code, category, startLine, endLine, ()) =>
      { id, name, file, code, category, startLine, endLine }

end Entity

namespace Edge

/-- The edge as JSON; a missing label is left out. -/
def toValue (e : Edge) : Value :=
  .object <|
    [("source", .text e.source), ("target", .text e.target)] ++
    Value.member? "relationship" .text e.relationship

/-- Read an edge. -/
def reader : Reader Edge :=
  (Fields.reader "Edge" <|
    .field (.required "source" Reader.text) <|
    .field (.required "target" Reader.text) <|
    .field ((Field.optional "relationship" Reader.text).orNamed "type") .done).map
    fun (source, target, relationship, ()) => { source, target, relationship }

end Edge

namespace Graph

/-- The graph as JSON. -/
def toValue (g : Graph) : Value :=
  .object [
    ("nodes", .array (g.nodes.map Entity.toValue)),
    ("edges", .array (g.edges.map Edge.toValue))]

/-- Read a graph. -/
def reader : Reader Graph :=
  (Fields.reader "GraphModel" <|
    .field (.defaulted "nodes" (Reader.list Entity.reader) []) <|
    .field (.defaulted "edges" (Reader.list Edge.reader) []) .done).map
    fun (nodes, edges, ()) => { nodes, edges }

end Graph

end CodeAtlas
