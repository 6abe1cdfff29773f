import CodeAtlas.Report.Layout
import CodeAtlas.Wire.Usage

/-!
# Reports on references
-/

namespace CodeAtlas

namespace ReferenceFile

/-- A usage as a compact line below its file. -/
def usageLine (f : ReferenceFile) (u : Usage) : String :=
  "  ref " ++ f.relativePath ++ ":" ++ toString u.line ++ ":" ++ toString u.column ++ " " ++
    u.kind.name ++ " " ++ u.pattern

/-- The file and its usages as compact lines. -/
def compactLines (f : ReferenceFile) : List String :=
  ("file " ++ f.relativePath ++ " " ++ toString f.totalUsages) :: f.usages.map f.usageLine

/-- All files as compact lines. -/
def compactReport (files : List ReferenceFile) : List String :=
  let total := files.foldl (fun n f => n + f.totalUsages) 0
  files.flatMap compactLines ++
    [toString total ++ " usages in " ++ toString files.length ++ " files"]

/-- All usages as a table; the column of kinds is headed but not filled up. -/
def tableReport (files : List ReferenceFile) : List String :=
  let fileWidth := Report.width 4 (files.map ReferenceFile.relativePath)
  let row (file line kind pattern scope : String) : String :=
    Report.row [Text.padRight fileWidth file, Text.padLeft 6 line, kind,
      Text.padRight 24 pattern, scope]
  Report.header (row "FILE" "LINE" (Text.padRight 11 "KIND") "PATTERN" "SCOPE") ++
    files.flatMap fun f => f.usages.map fun u =>
      row f.relativePath (toString u.line) u.kind.name u.pattern (u.scope.getD "-")

/-- The report on references. -/
def report (layout : Layout) (files : List ReferenceFile) : String :=
  match layout with
  | .compact => Report.ofLines (compactReport files)
  | .table => Report.ofLines (tableReport files)
  | .json => Report.ofValue (.array (files.map toValue))

end ReferenceFile

end CodeAtlas
