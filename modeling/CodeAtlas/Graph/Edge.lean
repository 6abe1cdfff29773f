import CodeAtlas.Text.Blank

/-!
# Edges

An edge leads from one entity id to another and may carry a label such as "imports". An id may belong to
no entity; such an edge is never followed.
-/

namespace CodeAtlas

/-- A directed connection between two entity ids. -/
structure Edge where
  /-- The id it leaves. -/
  source : String
  /-- The id it enters. -/
  target : String
  /-- Its label, if it has one. -/
  relationship : Option String
  deriving DecidableEq, Repr

namespace Edge

/-- The edge as seen from the id `viewer`. A label that is blank is no label; an edge without one reads
"calls" from its source and "called by" from anywhere else. -/
def labelFrom (e : Edge) (viewer : String) : String :=
  match e.relationship.filter fun label => !Text.isBlankText label with
  | some label => label
  | none => if e.source = viewer then "calls" else "called by"

end Edge

end CodeAtlas
