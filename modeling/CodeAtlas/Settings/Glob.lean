/-!
# Patterns of paths

A pattern is a sequence of parts. A question mark stands for any character and a star for any run of
characters, slashes included. Brackets list characters and ranges of them, all others if the list starts
with an exclamation mark. Two stars stand for any number of whole directories; they have to fill the space
between slashes. Every other character stands for itself.

A path is matched from its end: for each part the places are found from which that part and all later
ones match the rest of the path.
-/

namespace CodeAtlas

/-- A part of a pattern. -/
inductive GlobPart where
  /-- A character that is in one of the ranges, or in none of them if the part is negated. -/
  | oneOf (negated : Bool) (ranges : List (Char × Char))
  /-- Any character. -/
  | anyChar
  /-- Any run of characters. -/
  | anyRun
  /-- Any number of whole directories, or everything up to the end. -/
  | anyDirectories
  deriving DecidableEq, Repr

/-- A pattern of paths. -/
abbrev Glob := List GlobPart

namespace Glob

/-! ### Reading a pattern -/

/-- The ranges in a list between brackets; a single character is a range too. -/
def ranges : List Char → List (Char × Char)
  | low :: '-' :: high :: rest => (low, high) :: ranges rest
  | c :: rest => (c, c) :: ranges rest
  | [] => []

/-- The characters up to the first closing bracket, and those behind it. -/
def bracketed? : List Char → Option (List Char × List Char)
  | [] => none
  | ']' :: rest => some ([], rest)
  | c :: rest => (bracketed? rest).map fun (inner, rest) => (c :: inner, rest)

/-- The list behind an opening bracket, in which the first character may be a closing one. -/
def list? : List Char → Option (GlobPart × List Char)
  | '!' :: c :: rest => (bracketed? rest).map fun (inner, rest) => (.oneOf true (ranges (c :: inner)), rest)
  | ['!'] => none
  | c :: rest => (bracketed? rest).map fun (inner, rest) => (.oneOf false (ranges (c :: inner)), rest)
  | [] => none

/-- What follows two stars that fill the space between slashes, without the slash. -/
def afterDirectories? (previous : Option Char) (rest : List Char) : Option (List Char) :=
  if previous = none ∨ previous = some '/' then
    match rest with
    | [] => some []
    | '/' :: rest => some rest
    | _ => none
  else none

/-- Read the rest of a pattern, in at most `n` steps, behind a character if there is one. -/
def readUpTo : (n : Nat) → (previous : Option Char) → List Char → Option Glob
  | _, _, [] => some []
  | 0, _, _ :: _ => none
  | n + 1, previous, c :: rest =>
    match c with
    | '?' => (readUpTo n (some c) rest).map (.anyChar :: ·)
    | '[' =>
      match list? rest with
      | none => none
      | some (part, rest) => (readUpTo n (some ']') rest).map (part :: ·)
    | '*' =>
      match rest with
      | '*' :: '*' :: _ => none
      | '*' :: rest =>
        match afterDirectories? previous rest with
        | none => none
        | some rest => (readUpTo n (some '/') rest).map (.anyDirectories :: ·)
      | rest => (readUpTo n (some c) rest).map (.anyRun :: ·)
    | c => (readUpTo n (some c) rest).map (.oneOf false [(c, c)] :: ·)

/-- The pattern that a text spells. -/
def ofText? (text : String) : Option Glob :=
  let chars := text.toList
  readUpTo chars.length none chars

/-! ### Matching -/

/-- Is the character in one of the ranges? -/
def inRanges (l : List (Char × Char)) (c : Char) : Bool :=
  l.any fun (low, high) => low ≤ c && c ≤ high

/-- For each place whether a mark stands there or further on. -/
def anyLater : List Bool → List Bool
  | [] => []
  | b :: rest =>
    let later := anyLater rest
    (b || later.headD false) :: later

/-- The marks one place earlier, kept where the character between the two places is accepted. -/
def stepBack (accepts : Char → Bool) : (path : List Char) → (marks : List Bool) → List Bool
  | c :: path, _ :: marks => (accepts c && marks.headD false) :: stepBack accepts path marks
  | _, _ => [false]

/-- The places of a path from which a part matches, when `marks` are those from which all later parts
match. -/
def marksBefore (path : List Char) (part : GlobPart) (marks : List Bool) : List Bool :=
  match part with
  | .oneOf negated ranges => stepBack (fun c => inRanges ranges c != negated) path marks
  | .anyChar => stepBack (fun _ => true) path marks
  | .anyRun => anyLater marks
  | .anyDirectories =>
    let atEnd := marks.getLastD false
    List.zipWith (fun here later => here || later || atEnd) marks
      (anyLater (stepBack (· = '/') path marks))

/-- The places of a path from which a pattern matches all the rest. -/
def marks (path : List Char) (glob : Glob) : List Bool :=
  glob.foldr (marksBefore path) (List.replicate path.length false ++ [true])

/-- Does the pattern match the path? -/
def accepts (glob : Glob) (path : String) : Bool :=
  (marks path.toList glob).headD false

/-! ### Examples -/

example : (ofText? "src/**/*.ts").map (·.accepts "src/a/b/c.ts") = some true := by decide

example : (ofText? "src/**/*.ts").map (·.accepts "src/c.ts") = some true := by decide

example : ofText? "a**" = none := by decide

example : (ofText? "[!]a-c]").map (·.accepts "d") = some true := by decide

end Glob

end CodeAtlas
