import CodeAtlas.Graph.Entity
import CodeAtlas.Usage.Basic

/-!
# References

The usages of an entity that were found in one file.
-/

namespace CodeAtlas

/-- The usages of an entity in one file. -/
structure ReferenceFile where
  /-- The path of the file as entities state it. -/
  file : String
  /-- The last component of the path. -/
  fileName : String
  /-- The path from the root of the project. -/
  relativePath : String
  usages : List Usage
  totalUsages : Nat
  /-- The entities of the file that contributed usages. -/
  referencing : List Entity
  deriving DecidableEq, Repr

end CodeAtlas
