import CodeAtlas.Json.Record
import CodeAtlas.Json.Writer
import CodeAtlas.Reference.Basic
import CodeAtlas.Usage.Basic
import CodeAtlas.Wire.Graph

/-!
# Usages and references as JSON
-/

namespace CodeAtlas

open Json (Value Reader Field Fields)

namespace UsageKind

/-- Read a kind by its name. -/
def reader : Reader UsageKind :=
  Reader.variant (all.map fun k => (k.name, k))

end UsageKind

namespace Usage

/-- The usage as JSON; a missing scope is left out. -/
def toValue (u : Usage) : Value :=
  .object <|
    [("line", Value.natural u.line),
     ("column", Value.natural u.column),
     ("kind", .text u.kind.name),
     ("context", .text u.context),
     ("full_context", .text u.fullContext)] ++
    Value.member? "function_scope" .text u.scope ++
    [("usage_pattern", .text u.pattern)]

/-- Read a usage. -/
def reader : Reader Usage :=
  (Fields.reader "Usage" <|
    .field (.required "line" Reader.natural) <|
    .field (.required "column" Reader.natural) <|
    .field (.required "kind" UsageKind.reader) <|
    .field (.required "context" Reader.text) <|
    .field (.required "full_context" Reader.text) <|
    .field (.optional "function_scope" Reader.text) <|
    .field (.required "usage_pattern" Reader.text) .done).map
    fun (line, column, kind, context, fullContext, scope, pattern, ()) =>
      { line, column, kind, context, fullContext, scope, pattern }

end Usage

namespace ReferenceFile

/-- The file as JSON. -/
def toValue (f : ReferenceFile) : Value :=
  .object [
    ("file", .text f.file),
    ("file_name", .text f.fileName),
    ("relative_path", .text f.relativePath),
    ("usages", .array (f.usages.map Usage.toValue)),
    ("total_usages", Value.natural f.totalUsages),
    ("referencing_nodes", .array (f.referencing.map Entity.toValue))]

/-- Read a file. -/
def reader : Reader ReferenceFile :=
  (Fields.reader "ReferenceFile" <|
    .field (.required "file" Reader.text) <|
    .field (.required "file_name" Reader.text) <|
    .field (.required "relative_path" Reader.text) <|
    .field (.required "usages" (Reader.list Usage.reader)) <|
    .field (.required "total_usages" Reader.natural) <|
    .field (.required "referencing_nodes" (Reader.list Entity.reader)) .done).map
    fun (file, fileName, relativePath, usages, totalUsages, referencing, ()) =>
      { file, fileName, relativePath, usages, totalUsages, referencing }

end ReferenceFile

end CodeAtlas
