import CodeAtlas.Text.Sorted

/-!
# Filter options

Which categories a filter keeps, and whether it bridges the gaps that the hidden ones leave. Categories
form a set, kept as an increasing list so that equal sets are equal values.
-/

namespace CodeAtlas

/-- A set of categories. -/
structure CategorySet where
  /-- The members in increasing order. -/
  members : List String
  increasing : members.Pairwise (· < ·)
  deriving Repr

namespace CategorySet

@[ext] theorem ext {s t : CategorySet} (h : s.members = t.members) : s = t := by
  cases s; cases t; simp_all

instance : DecidableEq CategorySet := fun s t =>
  if h : s.members = t.members then isTrue (ext h)
  else isFalse fun eq => h (by rw [eq])

/-- The set of the categories of a list. -/
def ofList (l : List String) : CategorySet :=
  ⟨Text.distinctSorted l, Text.pairwise_distinctSorted l⟩

/-- Is the category in the set? -/
def contains (s : CategorySet) (category : String) : Bool :=
  s.members.contains category

@[simp] theorem contains_ofList {l : List String} {category : String} :
    (ofList l).contains category = true ↔ category ∈ l := by
  simp [ofList, contains]

end CategorySet

/-- What to keep and whether to bridge. -/
structure FilterOptions where
  /-- The categories to keep; none at all means that nothing is filtered. -/
  categories : CategorySet
  /-- Lay bridges between kept entities that only hidden ones connect. -/
  skipHidden : Bool
  deriving DecidableEq, Repr

namespace FilterOptions

/-- Options from a list of categories in any order. -/
def ofList (categories : List String) (skipHidden : Bool) : FilterOptions :=
  { categories := CategorySet.ofList categories, skipHidden }

/-- Does the filter hide anything at all? -/
def active (o : FilterOptions) : Bool :=
  !o.categories.members.isEmpty

end FilterOptions

end CodeAtlas
