import CodeAtlas.Json.Writer
import CodeAtlas.Text.Pad

/-!
# Layouts of reports

A report is written compactly, as a table or as JSON. The columns of a table are as wide as the UTF-8 form
of their widest cell is long, at least as wide as a given minimum, and filled with blanks counted in
characters.
-/

namespace CodeAtlas

/-- How a report is written. -/
inductive Layout where
  | compact
  | table
  | json
  deriving DecidableEq, Repr

namespace Report

/-- The lines, each with its end. -/
def ofLines (lines : List String) : String :=
  String.join (lines.map (· ++ "\n"))

/-- A value as JSON. -/
def ofValue (v : Json.Value) : String := ofLines [v.spreadText]

/-- The width of a column. -/
def width (least : Nat) (cells : List String) : Nat :=
  (cells.map String.utf8ByteSize).foldl max least

/-- The header of a table and the rule below it. -/
def header (row : String) : List String :=
  [row, Text.repeated row.utf8ByteSize "-"]

/-- A row of cells, two blanks between neighbours. -/
def row (cells : List String) : String := "  ".intercalate cells

end Report

end CodeAtlas
