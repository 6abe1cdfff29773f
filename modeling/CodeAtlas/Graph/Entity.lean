import CodeAtlas.Text.Blank

/-!
# Entities

An entity is one named unit of code: a function, a class, a file. Edges name it by its id. Where it is
declared, its source text and its lines are known only if whoever made the graph recorded them.
-/

namespace CodeAtlas

/-- One named unit of code. -/
structure Entity where
  /-- What edges refer to. -/
  id : String
  /-- The name as written in source text. -/
  name : String
  /-- The file that declares the entity. -/
  file : Option String
  /-- The entity's source text. -/
  code : Option String
  /-- What sort of unit it is; any text is allowed. -/
  category : String
  /-- Its first line in the file, counted from one. -/
  startLine : Option Nat
  /-- Its last line in the file, counted from one. -/
  endLine : Option Nat
  deriving DecidableEq, Repr

namespace Entity

/-- The category of an entity that states none. -/
def defaultCategory : String := "other"

/-- The source text; text of blanks alone counts as none. -/
def sourceText (e : Entity) : Option String :=
  e.code.filter fun code => !Text.isBlankText code

end Entity

end CodeAtlas
