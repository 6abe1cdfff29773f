import CodeAtlas.Proofs.Graph.Hop
import CodeAtlas.Proofs.Hierarchy.Position
import Mathlib.Algebra.Ring.Parity
import Mathlib.Data.List.Induction

/-!
# What a sequence of steps leaves expanded

Steps change flags and nothing else, and the flag of a node after a sequence of them can be read off the
sequence: the last bulk step decides it, and each toggle after that which meets the node flips it
(`Tree.steps_flags`).

One step is looked at first.  `step_of_bulk` says that a bulk step sets every flag from the depth of its
node; `Node.flagAt?_toggle` says that a toggle flips one flag.  Neither moves the first position of an id,
because that depends on the shape alone, so toggles keep meeting the node that they met in the tree before
the first step.  The run follows by induction on the last step of the sequence (`flagAt?_steps`).
-/

namespace CodeAtlas

namespace ExpansionStep

/-- What a bulk step makes of the flag of a node at some depth; a toggle is no bulk step. -/
def bulkFlag? : ExpansionStep → Option (Int → Bool)
  | .toggle _ => none
  | .expandToDepth d => some fun depth => depth < d
  | .expandAll => some fun _ => true
  | .collapseAll => some fun depth => depth = 0

/-- The id that a toggle flips. -/
def toggledId? : ExpansionStep → Option String
  | .toggle id => some id
  | _ => none

/-- What the last bulk step of a sequence makes of the flags. -/
def lastBulk? (s : List ExpansionStep) : Option (Int → Bool) := s.reverse.findSome? bulkFlag?

/-- The ids toggled after the last bulk step, latest first. -/
def recentToggles (s : List ExpansionStep) : List String :=
  (s.reverse.takeWhile fun x => x.bulkFlag?.isNone).filterMap toggledId?

/-- The flag of a node before the toggles after the last bulk step: what that step makes of it, or the flag
at the start if there was none. -/
def settled (s : List ExpansionStep) (n : Node) : Bool :=
  match lastBulk? s with
  | some flag => flag n.depth
  | none => n.expanded

variable {s : List ExpansionStep} {x : ExpansionStep}

theorem settled_append_bulk {flag : Int → Bool} (h : x.bulkFlag? = some flag) (n : Node) :
    settled (s ++ [x]) n = flag n.depth := by
  simp [settled, lastBulk?, h]

theorem recentToggles_append_bulk {flag : Int → Bool} (h : x.bulkFlag? = some flag) :
    recentToggles (s ++ [x]) = [] := by
  simp [recentToggles, h]

theorem settled_append_toggle (id : String) (n : Node) :
    settled (s ++ [.toggle id]) n = settled s n := by
  have hlast : lastBulk? (s ++ [.toggle id]) = lastBulk? s := by
    rw [lastBulk?, List.reverse_concat]
    rfl
  rw [settled, hlast]
  rfl

theorem recentToggles_append_toggle (id : String) :
    recentToggles (s ++ [.toggle id]) = id :: recentToggles s := by
  simp [recentToggles, bulkFlag?, toggledId?]

end ExpansionStep

open ExpansionStep

namespace Node

/-- The node at the position is met by an odd number of the toggles. -/
def Flipped (n : Node) (toggles : List String) (p : List Branch) : Prop :=
  ∃ id, n.FirstAt id p ∧ Odd (toggles.count id)

theorem not_flipped_nil (n : Node) (p : List Branch) : ¬n.Flipped [] p := by
  rintro ⟨id, -, hodd⟩
  simp at hodd

/-- One more toggle changes whether a node is flipped exactly if it meets the node. -/
theorem flipped_cons {n m : Node} {p : List Branch} (hm : n.nodeAt? p = some m) (id : String)
    (toggles : List String) :
    n.Flipped (id :: toggles) p ↔ ¬(n.Flipped toggles p ↔ n.FirstAt id p) := by
  by_cases hid : n.FirstAt id p
  · -- only the id of the node there counts
    have hflipped : ∀ l : List String, n.Flipped l p ↔ Odd (l.count id) := by
      intro l
      constructor
      · rintro ⟨id', hid', hodd⟩
        rwa [← hid.id_eq hm, hid'.id_eq hm]
      · intro hodd
        exact ⟨id, hid, hodd⟩
    rw [hflipped, hflipped, List.count_cons_self, Nat.odd_add_one]
    simp [hid]
  · have hsame : n.Flipped (id :: toggles) p ↔ n.Flipped toggles p := by
      refine exists_congr fun id' => and_congr_right fun hid' => ?_
      have hne : id ≠ id' := by
        rintro rfl
        exact hid hid'
      rw [List.count_cons_of_ne hne]
    rw [hsame]
    simp [hid]

end Node

namespace Tree

/-! ### One step -/

theorem step_of_bulk {x : ExpansionStep} {flag : Int → Bool} (h : x.bulkFlag? = some flag) (t : Tree) :
    t.step x = { t with root := t.root.setExpanded fun n => flag n.depth } := by
  cases x with
  | toggle id => cases h
  | expandToDepth d =>
    obtain rfl := Option.some.inj h
    rfl
  | expandAll =>
    obtain rfl := Option.some.inj h
    rfl
  | collapseAll =>
    obtain rfl := Option.some.inj h
    rfl

theorem shape_step (t : Tree) (x : ExpansionStep) : (t.step x).root.shape = t.root.shape := by
  cases x with
  | toggle id => exact Node.shape_toggle id t.root
  | expandToDepth d => exact Node.shape_setExpanded _ t.root
  | expandAll => exact Node.shape_setExpanded _ t.root
  | collapseAll => exact Node.shape_setExpanded _ t.root

theorem step_eq (t : Tree) (x : ExpansionStep) : t.step x = { t with root := (t.step x).root } := by
  cases x <;> rfl

/-! ### A sequence of steps -/

theorem steps_append (t : Tree) (s s' : List ExpansionStep) :
    t.steps (s ++ s') = (t.steps s).steps s' :=
  List.foldl_append

theorem steps_concat (t : Tree) (s : List ExpansionStep) (x : ExpansionStep) :
    t.steps (s ++ [x]) = (t.steps s).step x :=
  steps_append t s [x]

/-- Steps keep the shape of the tree. -/
theorem shape_steps (t : Tree) (s : List ExpansionStep) :
    (t.steps s).root.shape = t.root.shape := by
  induction s using List.reverseRecOn with
  | nil => rfl
  | append_singleton s x ih => rw [steps_concat, shape_step, ih]

/-- Steps keep everything but the nodes. -/
theorem steps_eq (t : Tree) (s : List ExpansionStep) :
    t.steps s = { t with root := (t.steps s).root } := by
  induction s using List.reverseRecOn with
  | nil => rfl
  | append_singleton s x ih =>
    rw [steps_concat, step_eq]
    rw [ih]

/-- The flag of a node after a sequence of steps: what was settled, and the other way round if the node was
flipped since. -/
theorem flagAt?_steps (t : Tree) (s : List ExpansionStep) {p : List Branch} {n : Node}
    (hn : t.root.nodeAt? p = some n) :
    ∃ x, (t.steps s).root.flagAt? p = some x ∧
      (x ≠ settled s n ↔ t.root.Flipped (recentToggles s) p) := by
  induction s using List.reverseRecOn with
  | nil =>
    refine ⟨n.expanded, ?_, ?_⟩
    · show t.root.flagAt? p = _
      rw [Node.flagAt?, hn]
      rfl
    · have hnot := Node.not_flipped_nil t.root p
      simp [settled, lastBulk?, recentToggles, hnot]
  | append_singleton s x ih =>
    obtain ⟨y, hy, hflip⟩ := ih
    have hshape := shape_steps t s
    rw [steps_concat]
    cases hx : x.bulkFlag? with
    | some flag =>
      refine ⟨flag n.depth, ?_, ?_⟩
      · rw [step_of_bulk hx]
        show ((t.steps s).root.setExpanded fun n => flag n.depth).flagAt? p = _
        rw [Node.setExpanded_depth_of_shape hshape, Node.flagAt?_setExpanded, hn]
        rfl
      · have hnot := Node.not_flipped_nil t.root p
        rw [settled_append_bulk hx, recentToggles_append_bulk hx]
        simp [hnot]
    | none =>
      obtain ⟨id, rfl⟩ : ∃ id, x = .toggle id := by
        cases x with
        | toggle id => exact ⟨id, rfl⟩
        | _ => cases hx
      classical
      have htoggle := Node.flagAt?_toggle id (t.steps s).root p
      rw [Node.firstAt_congr hshape, hy] at htoggle
      rw [settled_append_toggle, recentToggles_append_toggle, Node.flipped_cons hn, ← hflip]
      by_cases hid : t.root.FirstAt id p
      · rw [if_pos hid] at htoggle
        refine ⟨!y, htoggle, ?_⟩
        cases y <;> cases settled s n <;> simp [hid]
      · rw [if_neg hid] at htoggle
        refine ⟨y, htoggle, ?_⟩
        simp [hid]

/-! ### Laws of steps -/

/-- A bulk step undoes what was done before. -/
theorem steps_absorb {x : ExpansionStep} {flag : Int → Bool} (hx : x.bulkFlag? = some flag) (t : Tree)
    (s s' : List ExpansionStep) : t.steps (s ++ x :: s') = t.steps (x :: s') := by
  have hstep : (t.steps s).step x = t.step x := by
    rw [step_of_bulk hx, step_of_bulk hx, Node.setExpanded_depth_of_shape (shape_steps t s)]
    rw [steps_eq t s]
  rw [steps_append]
  show ((t.steps s).step x).steps s' = (t.step x).steps s'
  rw [hstep]

theorem shape_toggle_toggle (t : Tree) (a b : String) :
    ((t.toggle a).toggle b).root.shape = t.root.shape :=
  shape_steps t [.toggle a, .toggle b]

open Classical in
theorem flagAt?_toggle_toggle (t : Tree) (a b : String) (p : List Branch) :
    ((t.toggle a).toggle b).root.flagAt? p =
      if t.root.FirstAt b p then
        (if t.root.FirstAt a p then (t.root.flagAt? p).map not else t.root.flagAt? p).map not
      else if t.root.FirstAt a p then (t.root.flagAt? p).map not else t.root.flagAt? p := by
  have ha := Node.flagAt?_toggle a t.root p
  have hb := Node.flagAt?_toggle b (t.toggle a).root p
  have hshape : (t.toggle a).root.shape = t.root.shape := Node.shape_toggle a t.root
  rw [Node.firstAt_congr hshape] at hb
  rw [← ha]
  exact hb

theorem toggle_comm (t : Tree) (a b : String) : (t.toggle a).toggle b = (t.toggle b).toggle a := by
  have hroot : ((t.toggle a).toggle b).root = ((t.toggle b).toggle a).root := by
    apply Node.eq_of_shape_of_flags
    · rw [shape_toggle_toggle, shape_toggle_toggle]
    · intro p
      rw [flagAt?_toggle_toggle, flagAt?_toggle_toggle]
      by_cases ha : t.root.FirstAt a p <;> by_cases hb : t.root.FirstAt b p <;> simp [ha, hb]
  show { t with root := ((t.toggle a).toggle b).root } = { t with root := ((t.toggle b).toggle a).root }
  rw [hroot]

theorem toggle_toggle (t : Tree) (a : String) : (t.toggle a).toggle a = t := by
  have hroot : ((t.toggle a).toggle a).root = t.root := by
    apply Node.eq_of_shape_of_flags (shape_toggle_toggle t a a)
    intro p
    rw [flagAt?_toggle_toggle]
    by_cases ha : t.root.FirstAt a p
    · simp [ha, Option.map_map, Function.comp_def]
    · simp [ha]
  show { t with root := ((t.toggle a).toggle a).root } = t
  rw [hroot]

theorem toggle_of_find?_eq_none {t : Tree} {id : String} (h : t.find? id = none) : t.toggle id = t := by
  rw [toggle, Node.toggle?_eq_none_of_find? h]
  rfl

/-- **The flags after a sequence of steps.**  Nothing but flags changes, in the children and in the parents
of every node.  A flag differs from what the last bulk step settled, or from the flag at the start if there
was none, exactly if the node is the first with some id in preorder and that id was toggled an odd number of
times since.  So a bulk step makes up for everything before it, toggles commute and undo themselves, and
toggling an unknown id does nothing. -/
theorem steps_flags (t : Tree) :
    (∀ s : List ExpansionStep,
      { t.steps s with root := t.root } = t ∧
      ∀ p : List Branch, Option.Rel
        (fun m n => m.SameButExpanded n ∧
          (m.expanded ≠ settled s n ↔
            ∃ id, t.root.FirstAt id p ∧ Odd ((recentToggles s).count id)))
        ((t.steps s).root.nodeAt? p) (t.root.nodeAt? p)) ∧
    (∀ (s s' : List ExpansionStep) (x : ExpansionStep), x.bulkFlag?.isSome →
      t.steps (s ++ x :: s') = t.steps (x :: s')) ∧
    (∀ a b, (t.toggle a).toggle b = (t.toggle b).toggle a) ∧
    (∀ a, (t.toggle a).toggle a = t) ∧
    (∀ id, t.find? id = none → t.toggle id = t) := by
  refine ⟨fun s => ⟨?_, fun p => ?_⟩, ?_, toggle_comm t, toggle_toggle t, fun id => toggle_of_find?_eq_none⟩
  · rw [steps_eq]
  · have hrel := Node.rel_nodeAt?_of_shape (shape_steps t s) p
    cases hn : t.root.nodeAt? p with
    | none =>
      rw [hn] at hrel
      cases hm : (t.steps s).root.nodeAt? p with
      | none => exact Option.Rel.none
      | some m =>
        rw [hm] at hrel
        cases hrel
    | some n =>
      obtain ⟨x, hx, hflip⟩ := flagAt?_steps t s hn
      obtain ⟨m, hm, rfl⟩ := Option.map_eq_some_iff.1 hx
      rw [hn, hm] at hrel
      rw [hm]
      cases hrel with
      | some hshape => exact Option.Rel.some ⟨Node.sameButExpanded_of_shape hshape, hflip⟩
  · intro s s' x hx
    obtain ⟨flag, hflag⟩ := Option.isSome_iff_exists.1 hx
    exact steps_absorb hflag t s s'

/-- A tree with an id three times, depths of no order and a parent that has a parent. -/
def knotted : Tree :=
  let node (id : String) (depth : Int) (children parents : List Node) : Node :=
    { entity := Entity.plain id "function", depth, relationship := none, expanded := false,
      children, parents, parentId := none }
  { root := node "a" 0 [node "b" 5 [node "a" (-3) [] []] [], node "b" 1 [] []]
      [node "c" (-1) [] [node "a" 7 [] []]]
    totalNodes := 4
    maxDepth := 9
    relationshipTypes := []
    filterStats := none
    bridges := none }

theorem steps_flags_knotted :
    knotted.find? "c" = none ∧ knotted.toggle "c" = knotted ∧
      (ExpansionStep.expandToDepth 2).bulkFlag?.isSome ∧
      knotted.steps [.toggle "b", .expandToDepth 2, .toggle "a"] =
        knotted.steps [.expandToDepth 2, .toggle "a"] :=
  ⟨rfl, (steps_flags knotted).2.2.2.2 "c" rfl, rfl,
    (steps_flags knotted).2.1 [.toggle "b"] [.toggle "a"] (.expandToDepth 2) rfl⟩

end Tree

end CodeAtlas
