/-!
# Walking outward level by level

A breadth-first walk claims each key once. The items of a level are expanded in order, and of all that
they lead to the first item with each key not seen before makes up the next level. The walk ends after a
given number of levels, or earlier when a level would be empty.
-/

namespace CodeAtlas.Walk

/-- Of the candidates, the first one with each key that is not among `seen`. -/
def fresh {α : Type} (key : α → String) (seen : List String) : List α → List α
  | [] => []
  | a :: rest =>
    if key a ∈ seen then fresh key seen rest
    else a :: fresh key (key a :: seen) rest

/-- The levels after a frontier, at most `n` of them and none empty; `seen` holds every key claimed so
far. -/
def levels {α : Type} (key : α → String) (expand : α → List α) :
    (n : Nat) → (seen : List String) → (frontier : List α) → List (List α)
  | 0, _, _ => []
  | n + 1, seen, frontier =>
    match fresh key seen (frontier.flatMap expand) with
    | [] => []
    | a :: next => (a :: next) :: levels key expand n ((a :: next).map key ++ seen) (a :: next)

end CodeAtlas.Walk
