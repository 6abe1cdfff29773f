import CodeAtlas.Report.Layout
import CodeAtlas.Wire.Tree

/-!
# Reports on trees

The visible part of a tree, with the callers of its root on top, and the counts of a tree.
-/

namespace CodeAtlas

open Json (Value)

namespace Node

/-- Does the node show its children, hide them, or have none? -/
def marker (n : Node) : String :=
  if n.children.isEmpty then " " else if n.expanded then "-" else "+"

/-- Two blanks for each level below the root. -/
def indent (n : Node) : String := Text.repeated n.depth.toNat "  "

/-- The node's name under its parent's. -/
def label (n : Node) : String := n.indent ++ n.marker ++ " " ++ n.name

/-- The node as a compact line. -/
def compactLine (n : Node) : String :=
  n.label ++ " [" ++ n.entity.category ++ "]" ++ ((n.relationship.map (" " ++ ·)).getD "")

/-- The node as a compact line above the root. -/
def callerLine (n : Node) : String :=
  "^ " ++ n.name ++ " [" ++ n.entity.category ++ "] " ++ n.relationship.getD ""

end Node

namespace Tree

/-- The nodes of a report: the callers of the root and then what is visible. -/
def reportNodes (t : Tree) : List Node := t.root.parents ++ t.visibleNodes

/-- The tree as compact lines. -/
def compactReport (t : Tree) : List String :=
  t.root.parents.map Node.callerLine ++ t.visibleNodes.map Node.compactLine ++
    [toString t.visibleNodes.length ++ " of " ++ toString t.totalNodes ++ " nodes shown"] ++
    t.bridges.toList.map fun l => toString l.length ++ " remapped connections"

/-- The tree as a table. -/
def tableReport (t : Tree) : List String :=
  let nodes := t.reportNodes
  let nameWidth := Report.width 4 (nodes.map Node.label)
  let categoryWidth := Report.width 8 (nodes.map fun n => n.entity.category)
  let row (name category depth relationship file : String) : String :=
    Report.row [Text.padRight nameWidth name, Text.padRight categoryWidth category,
      Text.padLeft 5 depth, Text.padRight 12 relationship, file]
  Report.header (row "NAME" "CATEGORY" "DEPTH" "RELATIONSHIP" "FILE") ++
    nodes.map fun n =>
      row n.label n.entity.category (toString n.depth) (n.relationship.getD "-") (n.entity.file.getD "-")

/-- The report on a tree. -/
def report (layout : Layout) (t : Tree) : String :=
  match layout with
  | .compact => Report.ofLines t.compactReport
  | .table => Report.ofLines t.tableReport
  | .json => Report.ofValue t.toValue

end Tree

namespace TreeStats

/-- The counts as compact lines. -/
def compactReport (t : Tree) (s : TreeStats) : List String :=
  ["total " ++ toString s.totalNodes ++ " visible " ++ toString s.visibleNodes ++
      " parents " ++ toString s.parentNodes ++ " max_depth " ++ toString t.maxDepth] ++
    (s.nodesByDepth.map fun (depth, n) => "depth " ++ toString depth ++ " " ++ toString n) ++
    (s.nodesByCategory.map fun (category, n) => "category " ++ category ++ " " ++ toString n) ++
    if t.relationshipTypes.isEmpty then []
    else ["relationships " ++ ",".intercalate t.relationshipTypes]

/-- The counts under headings. -/
def tableReport (t : Tree) (s : TreeStats) : List String :=
  ["=== " ++ t.root.name ++ " ===",
    "Total nodes:    " ++ toString s.totalNodes,
    "Visible nodes:  " ++ toString s.visibleNodes,
    "Parents:        " ++ toString s.parentNodes,
    "Max depth:      " ++ toString t.maxDepth,
    "",
    "--- By Depth ---"] ++
    (s.nodesByDepth.map fun (depth, n) => "  " ++ Text.padLeft 3 (toString depth) ++ "  " ++ toString n) ++
    ["", "--- By Category ---"] ++
    s.nodesByCategory.map fun (category, n) => "  " ++ Text.padRight 12 category ++ " " ++ toString n

/-- The counts with the root of the tree as JSON. -/
def reportValue (t : Tree) (s : TreeStats) : Value :=
  .object [
    ("max_depth", Value.natural t.maxDepth),
    ("relationship_types", Value.texts t.relationshipTypes),
    ("root", .text t.root.id),
    ("stats", s.toValue)]

/-- The report on the counts of a tree. -/
def report (layout : Layout) (t : Tree) : String :=
  let s := ofTree t
  match layout with
  | .compact => Report.ofLines (s.compactReport t)
  | .table => Report.ofLines (s.tableReport t)
  | .json => Report.ofValue (s.reportValue t)

end TreeStats

end CodeAtlas
