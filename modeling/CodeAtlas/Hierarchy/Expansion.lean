import CodeAtlas.Hierarchy.Tree

/-!
# Expanding and collapsing

Every step changes only which nodes are expanded. A bulk step decides it for each node of the tree from
the node itself, parents of the root included. A toggle flips one node: the first in preorder with the
id.
-/

namespace CodeAtlas

/-- A change to what a tree shows. -/
inductive ExpansionStep where
  /-- Flip the first node with the id. -/
  | toggle (id : String)
  /-- Expand exactly the nodes shallower than the depth. -/
  | expandToDepth (depth : Int)
  /-- Expand every node. -/
  | expandAll
  /-- Collapse every node but those at depth zero. -/
  | collapseAll
  deriving DecidableEq, Repr

namespace Node

mutual

/-- Every node of the tree expanded or collapsed as `flag` says, in children and parents alike. -/
def setExpanded (flag : Node → Bool) : Node → Node
  | ⟨entity, depth, relationship, expanded, children, parents, parentId⟩ =>
    { entity, depth, relationship, parentId
      expanded := flag ⟨entity, depth, relationship, expanded, children, parents, parentId⟩
      children := setExpandedAll flag children
      parents := setExpandedAll flag parents }

/-- The same for every tree of a list. -/
def setExpandedAll (flag : Node → Bool) : List Node → List Node
  | [] => []
  | n :: rest => n.setExpanded flag :: setExpandedAll flag rest

end

mutual

/-- The tree with the first node of the id flipped, or nothing if no node has it. -/
def toggle? (id : String) : Node → Option Node
  | ⟨entity, depth, relationship, expanded, children, parents, parentId⟩ =>
    if entity.id = id then
      some { entity, depth, relationship, children, parents, parentId, expanded := !expanded }
    else
      (toggleFirst? id children).map fun children =>
        { entity, depth, relationship, expanded, children, parents, parentId }

/-- The list with the first tree that has the id toggled there, or nothing if none has it. -/
def toggleFirst? (id : String) : List Node → Option (List Node)
  | [] => none
  | n :: rest =>
    match n.toggle? id with
    | some toggled => some (toggled :: rest)
    | none => (toggleFirst? id rest).map (n :: ·)

end

end Node

namespace Tree

/-- The tree with the first node of the id flipped; an unknown id changes nothing. -/
def toggle (t : Tree) (id : String) : Tree :=
  { t with root := (t.root.toggle? id).getD t.root }

/-- The tree with exactly the nodes above the depth expanded. -/
def expandToDepth (t : Tree) (depth : Int) : Tree :=
  { t with root := t.root.setExpanded fun n => n.depth < depth }

/-- The tree with every node expanded. -/
def expandAll (t : Tree) : Tree :=
  { t with root := t.root.setExpanded fun _ => true }

/-- The tree with only the nodes at depth zero expanded. -/
def collapseAll (t : Tree) : Tree :=
  { t with root := t.root.setExpanded fun n => n.depth = 0 }

/-- The tree after one step. -/
def step (t : Tree) : ExpansionStep → Tree
  | .toggle id => t.toggle id
  | .expandToDepth depth => t.expandToDepth depth
  | .expandAll => t.expandAll
  | .collapseAll => t.collapseAll

/-- The tree after a sequence of steps. -/
def steps (t : Tree) (s : List ExpansionStep) : Tree :=
  s.foldl step t

end Tree

end CodeAtlas
