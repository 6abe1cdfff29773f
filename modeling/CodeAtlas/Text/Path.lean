/-!
# Paths

A path is read as components. A slash at the very start is the root, and a lone dot as the first segment
is the place where one stands; behind that, empty segments and lone dots mean nothing, and every other
segment is a name. Two paths that are spelled differently may so have the same components.

What is left of a path below a base keeps its spelling, except for meaningless segments at its ends.
-/

namespace CodeAtlas.Text.Path

/-- The segments of a text between slashes, where `read` holds the characters of the open segment, last
one first. -/
def segmentsFrom : (read : List Char) → List Char → List (List Char)
  | read, [] => [read.reverse]
  | read, c :: rest =>
    if c = '/' then read.reverse :: segmentsFrom [] rest else segmentsFrom (c :: read) rest

/-- The segments of a text between slashes. -/
def segments (text : List Char) : List (List Char) := segmentsFrom [] text

/-- Does the segment mean nothing inside a path? -/
def isIdle (segment : List Char) : Bool := segment = [] || segment = ['.']

/-- Where a path starts. -/
inductive Anchor where
  /-- At the root. -/
  | root
  /-- At the place where one stands, which the path says by a dot. -/
  | here
  /-- At the place where one stands, which the path does not say. -/
  | unspoken
  deriving DecidableEq, Repr

/-- A path split after its anchor. -/
structure Split where
  anchor : Anchor
  segments : List (List Char)
  deriving DecidableEq, Repr

/-- Split a path after its anchor. -/
def split : (path : List Char) → Split
  | '/' :: rest => ⟨.root, segments rest⟩
  | path =>
    match segments path with
    | ['.'] :: rest => ⟨.here, rest⟩
    | all => ⟨.unspoken, all⟩

/-- The names in a list of segments. -/
def names (l : List (List Char)) : List (List Char) := l.filter fun s => !isIdle s

/-- The last component of a path, if it is a name and does not lead upward. -/
def fileName? (path : List Char) : Option (List Char) :=
  (names (split path).segments).getLast?.filter fun s => s ≠ ['.', '.']

/-- The segments without meaningless ones at the end. -/
def trimLast (l : List (List Char)) : List (List Char) :=
  (l.reverse.dropWhile isIdle).reverse

/-- The segments with slashes between them. -/
def join (l : List (List Char)) : List Char := ['/'].intercalate l

namespace Split

/-- The path as it is spelled, without meaningless segments at the end. -/
def spell (parts : Split) : List Char :=
  match parts.anchor with
  | .root => '/' :: join (trimLast parts.segments)
  | .here => join (['.'] :: trimLast parts.segments)
  | .unspoken => join (trimLast parts.segments)

end Split

/-- The path without its last component, if that is not the root. -/
def parent? (path : List Char) : Option (List Char) :=
  let parts := split path
  match trimLast parts.segments, parts.anchor with
  | [], .here => some []
  | [], _ => none
  | l, anchor => some (Split.spell ⟨anchor, l.dropLast⟩)

/-! ### Below a base -/

/-- What follows the given names in a list of segments. -/
def below : (base : List (List Char)) → (l : List (List Char)) → Option (List (List Char))
  | [], l => some l
  | _ :: _, [] => none
  | name :: base, s :: l =>
    if isIdle s then below (name :: base) l
    else if s = name then below base l
    else none

/-- The path from a base to a place below it. -/
def relativeTo? (base path : List Char) : Option (List Char) :=
  let upper := split base
  let lower := split path
  if upper.anchor = .unspoken ∧ names upper.segments = [] then some lower.spell
  else if upper.anchor = lower.anchor then
    (below (names upper.segments) lower.segments).map fun rest =>
      join (trimLast (rest.dropWhile isIdle))
  else none

/-! ### Examples -/

example : relativeTo? "/repo/".toList "//repo/./src//a.ts".toList = some "src//a.ts".toList := by decide

example : relativeTo? "/rep".toList "/repo/a.ts".toList = none := by decide

example : parent? "src/./a.ts/".toList = some "src".toList := by decide

example : fileName? "src/a.ts/.".toList = some "a.ts".toList := by decide

example : fileName? "src/..".toList = none := by decide

end CodeAtlas.Text.Path
