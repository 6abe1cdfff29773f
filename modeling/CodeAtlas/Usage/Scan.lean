import CodeAtlas.Text.Lines
import CodeAtlas.Text.Pad
import CodeAtlas.Text.Search
import CodeAtlas.Usage.Pattern
import CodeAtlas.Usage.Scope

/-!
# Scanning a text for a symbol

A text is scanned line by line. On each line every rule is asked in order; a column that an earlier rule
has claimed is not reported again. In the end the usages are put in the order of lines and columns. Texts and
lines in which the symbol does not stand at all are passed over.
-/

namespace CodeAtlas

/-- An occurrence that a rule recognises. -/
structure Hit where
  rule : UsageRule
  site : Site
  /-- The column of the occurrence, counted once. -/
  column : Nat
  column_eq : column = site.start.column

namespace Hit

/-- The occurrence at a site of a rule. -/
def of (rule : UsageRule) (site : Site) : Hit := ⟨rule, site, site.start.column, rfl⟩

/-- Let one more rule claim what it recognises, except for columns already claimed. -/
def claim (symbol line : List Char) (claimed : List Hit) (rule : UsageRule) : List Hit :=
  claimed ++ ((rule.sites symbol line).map (of rule)).filter fun new =>
    !claimed.any fun h => h.column = new.column

/-- All occurrences on a line that one of the rules claims, rule by rule. -/
def claimed (rules : List UsageRule) (symbol line : List Char) : List Hit :=
  rules.foldl (claim symbol line) []

end Hit

namespace Usage

/-- How many lines of context are shown on each side. -/
def contextRadius : Nat := 3

/-- A line of context: marked if it is the line of the usage, and numbered from one. -/
def contextRow (index : Nat) (marked : Bool) (line : List Char) : List Char :=
  (if marked then '>' else ' ') :: ' ' ::
    (Text.padLeft 4 (toString (index + 1))).toList ++ " | ".toList ++ line

/-- The line at an index with its neighbours. -/
def contextWindow (lines : List (List Char)) (index : Nat) : List Char :=
  let first := index - contextRadius
  let shown := (lines.drop first).take (index + contextRadius + 1 - first)
  ['\n'].intercalate <|
    shown.zipIdx.map fun (line, i) => contextRow (first + i) (first + i = index) line

/-- The usage that a hit on the line at an index stands for. -/
def atHit (lines : List (List Char)) (index : Nat) (scope : Option String) (line : List Char) (h : Hit) :
    Usage :=
  { line := index + 1
    column := h.column
    kind := h.rule.kind
    context := String.ofList (Text.trim line)
    fullContext := String.ofList (contextWindow lines index)
    scope
    pattern := UsagePattern.describe h.rule.kind h.rule.label line h.site }

/-- The usages on the line at an index, in the order in which they are claimed. -/
def onLine (rules : List UsageRule) (symbol : List Char) (lines : List (List Char)) (index : Nat)
    (scope : Option String) (line : List Char) : List Usage :=
  if Text.contains symbol line then (Hit.claimed rules symbol line).map (atHit lines index scope line)
  else []

/-- Lines come first and columns second. -/
def placeLe (u v : Usage) : Bool :=
  decide (u.line < v.line) || (u.line = v.line && decide (u.column ≤ v.column))

/-- The usages of a symbol in a text. A blank symbol has none. -/
def find (fits : UsageRule.Capacity) (source symbol : String) : List Usage :=
  if Text.isBlankText symbol || !Text.contains symbol.toList source.toList then []
  else
    let rules := UsageRule.made fits symbol.toList
    let lines := Text.lines source.toList
    ((lines.zipIdx.zip (Scope.ofLines none lines)).flatMap fun ((line, index), scope) =>
      onLine rules symbol.toList lines index scope line).mergeSort placeLe

end Usage

end CodeAtlas
