import CodeAtlas.Report.Layout
import CodeAtlas.Wire.Filter

/-!
# Reports on filtering
-/

namespace CodeAtlas

namespace FilterOutcome

/-- Two counts, before and after. -/
def change (before after : Nat) : String := toString before ++ " -> " ++ toString after

/-- The outcome as compact lines. -/
def compactReport (o : FilterOutcome) : List String :=
  ["nodes " ++ change o.stats.nodesBefore o.stats.nodesAfter,
    "edges " ++ change o.stats.edgesBefore o.stats.edgesAfter] ++
    (if o.stats.hiddenCategories.isEmpty then []
      else ["removed " ++ ",".intercalate o.stats.hiddenCategories]) ++
    (o.bridges.map fun b =>
      "remap " ++ b.source ++ " -> " ++ b.target ++ " via " ++ ",".intercalate b.skipped ++ " " ++
        b.relationship) ++
    [toString o.bridges.length ++ " remapped connections"]

/-- The bridges as a table. -/
def bridgeTable (bridges : List Bridge) : List String :=
  let sourceWidth := Report.width 6 (bridges.map Bridge.source)
  let targetWidth := Report.width 6 (bridges.map Bridge.target)
  let row (source target relationship skipped : String) : String :=
    Report.row [Text.padRight sourceWidth source, Text.padRight targetWidth target,
      Text.padRight 16 relationship, skipped]
  Report.header (row "SOURCE" "TARGET" "RELATIONSHIP" "SKIPPED") ++
    bridges.map fun b => row b.source b.target b.relationship (" -> ".intercalate b.skipped)

/-- The outcome under headings, with a table of the bridges if there are any. -/
def tableReport (o : FilterOutcome) : List String :=
  ["Nodes:      " ++ change o.stats.nodesBefore o.stats.nodesAfter,
    "Edges:      " ++ change o.stats.edgesBefore o.stats.edgesAfter,
    "Removed:    " ++ ", ".intercalate o.stats.hiddenCategories] ++
    if o.bridges.isEmpty then [] else "" :: bridgeTable o.bridges

/-- The report on the outcome of a filter. -/
def report (layout : Layout) (o : FilterOutcome) : String :=
  match layout with
  | .compact => Report.ofLines o.compactReport
  | .table => Report.ofLines o.tableReport
  | .json => Report.ofValue o.toValue

end FilterOutcome

end CodeAtlas
