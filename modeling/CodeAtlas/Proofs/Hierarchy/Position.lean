import CodeAtlas.Hierarchy.Expansion
import CodeAtlas.Proofs.Hierarchy.Assembly
import Mathlib.Data.List.Lex

/-!
# Positions in a tree

A node has two lists of nodes below it, and a *position* says how to get from one node to another: which
list to take, and which place in it, step by step.

* `Node.nodeAt? n p` — the node at a position, and `Node.flagAt? n p` its flag;
* `Node.shape n` — the node with every flag lowered.  Nodes of one shape agree on everything but flags
  (`sameButExpanded_of_shape`), and a node is known by its shape and its flags (`eq_of_shape_of_flags`);
* `Node.FirstAt n id p` — of the positions reached through children, `p` is the first in preorder whose node
  has the id.  Preorder is the lexicographic order of the places taken, so no walk is needed to say it.

The last part says what setting all flags and what toggling an id does at every position.
-/

namespace CodeAtlas

/-- One step down a tree: into the children or into the parents, to a place in the list. -/
inductive Branch where
  | child (place : ℕ)
  | parent (place : ℕ)
  deriving DecidableEq, Repr

namespace Node

variable {m n : Node} {id : String} {p : List Branch} {q : List ℕ}

/-! ### The node at a position -/

def below? (n : Node) : Branch → Option Node
  | .child i => n.children[i]?
  | .parent i => n.parents[i]?

/-- The node that a position leads to. -/
def nodeAt? : Node → List Branch → Option Node
  | n, [] => some n
  | n, b :: p => (n.below? b).bind fun c => c.nodeAt? p

/-- The flag of the node that a position leads to. -/
def flagAt? (n : Node) (p : List Branch) : Option Bool := (n.nodeAt? p).map Node.expanded

theorem nodeAt?_nil (n : Node) : n.nodeAt? [] = some n := by
  rw [nodeAt?]

theorem nodeAt?_cons (n : Node) (b : Branch) (p : List Branch) :
    n.nodeAt? (b :: p) = (n.below? b).bind fun c => c.nodeAt? p := by
  rw [nodeAt?]

theorem flagAt?_nil (n : Node) : n.flagAt? [] = some n.expanded := by
  rw [flagAt?, nodeAt?_nil]
  rfl

theorem flagAt?_cons (n : Node) (b : Branch) (p : List Branch) :
    n.flagAt? (b :: p) = (n.below? b).bind fun c => c.flagAt? p := by
  rw [flagAt?, nodeAt?_cons]
  cases n.below? b with
  | none => rfl
  | some c => rfl

/-- What holds of a node whenever it holds of all that stands below it holds of every node. -/
theorem below_induction {P : Node → Prop}
    (step : ∀ n : Node, (∀ b c, n.below? b = some c → P c) → P n) : ∀ n : Node, P n
  | ⟨entity, depth, relationship, expanded, children, parents, parentId⟩ => by
    apply step
    intro b c hc
    cases b with
    | child i =>
      have hmem : c ∈ children := List.mem_of_getElem? hc
      exact below_induction step c
    | parent i =>
      have hmem : c ∈ parents := List.mem_of_getElem? hc
      exact below_induction step c

/-- Two nodes with equal fields and equal nodes below them are equal. -/
theorem eq_of_below (hentity : m.entity = n.entity) (hdepth : m.depth = n.depth)
    (hrelationship : m.relationship = n.relationship) (hparentId : m.parentId = n.parentId)
    (hexpanded : m.expanded = n.expanded) (hbelow : ∀ b, m.below? b = n.below? b) : m = n := by
  have hchildren : m.children = n.children := List.ext_getElem? fun i => hbelow (.child i)
  have hparents : m.parents = n.parents := List.ext_getElem? fun i => hbelow (.parent i)
  cases m
  cases n
  simp_all

/-- The nodes reached through children are those of the preorder walk. -/
theorem mem_preorder_iff : m ∈ n.preorder ↔ ∃ q : List ℕ, n.nodeAt? (q.map .child) = some m := by
  induction n using below_induction with
  | step n ih =>
  rw [preorder_eq, List.mem_cons, List.mem_flatMap]
  constructor
  · rintro (rfl | ⟨c, hc, hm⟩)
    · exact ⟨[], nodeAt?_nil _⟩
    · obtain ⟨i, hi⟩ := List.mem_iff_getElem?.1 hc
      obtain ⟨q, hq⟩ := (ih (.child i) c hi).1 hm
      refine ⟨i :: q, ?_⟩
      rw [List.map_cons, nodeAt?_cons, below?, hi]
      exact hq
  · rintro ⟨q, hq⟩
    cases q with
    | nil =>
      rw [List.map_nil, nodeAt?_nil] at hq
      exact Or.inl (Option.some.inj hq).symm
    | cons i q =>
      rw [List.map_cons, nodeAt?_cons] at hq
      obtain ⟨c, hc, hm⟩ := Option.bind_eq_some_iff.1 hq
      exact Or.inr ⟨c, List.mem_of_getElem? hc, (ih (.child i) c hc).2 ⟨q, hm⟩⟩

/-! ### Setting all flags -/

theorem setExpandedAll_eq_map (f : Node → Bool) (l : List Node) :
    setExpandedAll f l = l.map (setExpanded f) := by
  induction l with
  | nil => rfl
  | cons n rest ih => rw [setExpandedAll, ih, List.map_cons]

theorem setExpanded_eq (f : Node → Bool) (n : Node) :
    n.setExpanded f =
      { n with
        expanded := f n
        children := n.children.map (setExpanded f)
        parents := n.parents.map (setExpanded f) } := by
  cases n
  rw [setExpanded, setExpandedAll_eq_map, setExpandedAll_eq_map]

theorem below?_setExpanded (f : Node → Bool) (n : Node) (b : Branch) :
    (n.setExpanded f).below? b = (n.below? b).map (setExpanded f) := by
  rw [setExpanded_eq]
  cases b with
  | child i => exact List.getElem?_map
  | parent i => exact List.getElem?_map

theorem nodeAt?_setExpanded (f : Node → Bool) (n : Node) (p : List Branch) :
    (n.setExpanded f).nodeAt? p = (n.nodeAt? p).map (setExpanded f) := by
  induction p generalizing n with
  | nil => rfl
  | cons b p ih =>
    rw [nodeAt?_cons, nodeAt?_cons, below?_setExpanded]
    cases n.below? b with
    | none => rfl
    | some c => exact ih c

theorem flagAt?_setExpanded (f : Node → Bool) (n : Node) (p : List Branch) :
    (n.setExpanded f).flagAt? p = (n.nodeAt? p).map f := by
  have hflag : ∀ c : Node, (c.setExpanded f).expanded = f c := by
    intro c
    rw [setExpanded_eq]
  rw [flagAt?, nodeAt?_setExpanded, Option.map_map]
  congr 1
  funext c
  exact hflag c

/-- Of two settings the later one counts; it sees the nodes that the earlier one left. -/
theorem setExpanded_setExpanded (f g : Node → Bool) (n : Node) :
    (n.setExpanded f).setExpanded g = n.setExpanded fun c => g (c.setExpanded f) := by
  induction n using below_induction with
  | step n ih =>
  apply eq_of_below
  case hbelow =>
    intro b
    rw [below?_setExpanded, below?_setExpanded, below?_setExpanded, Option.map_map]
    cases hb : n.below? b with
    | none => rfl
    | some c => exact congrArg some (ih b c hb)
  all_goals simp only [setExpanded_eq]

theorem depth_setExpanded (f : Node → Bool) (n : Node) : (n.setExpanded f).depth = n.depth := by
  rw [setExpanded_eq]

/-! ### Shapes -/

/-- The node with every flag lowered. -/
def shape (n : Node) : Node := n.setExpanded fun _ => false

theorem shape_setExpanded (f : Node → Bool) (n : Node) : (n.setExpanded f).shape = n.shape :=
  setExpanded_setExpanded f _ n

theorem below?_shape (n : Node) (b : Branch) : n.shape.below? b = (n.below? b).map shape :=
  below?_setExpanded _ n b

/-- A setting that reads depths alone does not see the flags. -/
theorem setExpanded_depth_of_shape (h : m.shape = n.shape) (flag : Int → Bool) :
    (m.setExpanded fun c => flag c.depth) = n.setExpanded fun c => flag c.depth := by
  have hshape : ∀ c : Node,
      (c.setExpanded fun c => flag c.depth) = c.shape.setExpanded fun c => flag c.depth := by
    intro c
    rw [shape, setExpanded_setExpanded]
    simp only [depth_setExpanded]
  rw [hshape m, hshape n, h]

/-- The two nodes have equal data and as many children and parents; their flags may differ. -/
structure SameButExpanded (m n : Node) : Prop where
  entity : m.entity = n.entity
  depth : m.depth = n.depth
  relationship : m.relationship = n.relationship
  parentId : m.parentId = n.parentId
  children : m.children.length = n.children.length
  parents : m.parents.length = n.parents.length

theorem sameButExpanded_of_shape (h : m.shape = n.shape) : m.SameButExpanded n := by
  rw [shape, shape, setExpanded_eq, setExpanded_eq, Node.mk.injEq] at h
  obtain ⟨hentity, hdepth, hrelationship, -, hchildren, hparents, hparentId⟩ := h
  have hlengths := congrArg List.length hchildren
  have hlengths' := congrArg List.length hparents
  rw [List.length_map, List.length_map] at hlengths hlengths'
  exact ⟨hentity, hdepth, hrelationship, hparentId, hlengths, hlengths'⟩

/-- Nodes of one shape have the same positions, with nodes of one shape there. -/
theorem rel_nodeAt?_of_shape (h : m.shape = n.shape) (p : List Branch) :
    Option.Rel (fun a b => a.shape = b.shape) (m.nodeAt? p) (n.nodeAt? p) := by
  have hp : (m.nodeAt? p).map shape = (n.nodeAt? p).map shape := by
    have := congrArg (fun c => c.nodeAt? p) h
    rwa [shape, shape, nodeAt?_setExpanded, nodeAt?_setExpanded] at this
  cases hm : m.nodeAt? p with
  | none =>
    rw [hm] at hp
    rw [Option.map_eq_none_iff.1 hp.symm]
    exact Option.Rel.none
  | some a =>
    rw [hm] at hp
    obtain ⟨b, hb, hab⟩ := Option.map_eq_some_iff.1 hp.symm
    rw [hb]
    exact Option.Rel.some hab.symm

/-- A node is known by its shape and its flags. -/
theorem eq_of_shape_of_flags (hshape : m.shape = n.shape)
    (hflags : ∀ p, m.flagAt? p = n.flagAt? p) : m = n := by
  induction m using below_induction generalizing n with
  | step m ih =>
  have hsame := sameButExpanded_of_shape hshape
  have hroot := hflags []
  rw [flagAt?_nil, flagAt?_nil] at hroot
  refine eq_of_below hsame.entity hsame.depth hsame.relationship hsame.parentId
    (Option.some.inj hroot) ?_
  intro b
  have hb : (m.below? b).map shape = (n.below? b).map shape := by
    rw [← below?_shape, ← below?_shape, hshape]
  cases hm : m.below? b with
  | none =>
    rw [hm] at hb
    exact (Option.map_eq_none_iff.1 hb.symm).symm
  | some c =>
    rw [hm] at hb
    obtain ⟨d, hd, hcd⟩ := Option.map_eq_some_iff.1 hb.symm
    rw [hd, ih b c hm hcd.symm]
    intro p
    have hp := hflags (b :: p)
    rw [flagAt?_cons, flagAt?_cons, hm, hd] at hp
    exact hp

/-! ### The first node with an id -/

/-- The places taken in the children lead to a node with the id. -/
def HasAt (n : Node) (id : String) (q : List ℕ) : Prop :=
  ∃ m, n.nodeAt? (q.map .child) = some m ∧ m.id = id

theorem hasAt_nil : n.HasAt id [] ↔ n.id = id := by
  simp [HasAt, nodeAt?_nil]

theorem hasAt_cons {i : ℕ} :
    n.HasAt id (i :: q) ↔ ∃ c, n.children[i]? = some c ∧ c.HasAt id q := by
  simp only [HasAt, List.map_cons, nodeAt?_cons, below?, Option.bind_eq_some_iff]
  constructor
  · rintro ⟨m, ⟨c, hc, hm⟩, hid⟩
    exact ⟨c, hc, m, hm, hid⟩
  · rintro ⟨c, hc, m, hm, hid⟩
    exact ⟨m, ⟨c, hc, hm⟩, hid⟩

theorem hasAt_of_shape (h : m.shape = n.shape) (hm : m.HasAt id q) : n.HasAt id q := by
  obtain ⟨a, ha, hid⟩ := hm
  have hrel := rel_nodeAt?_of_shape h (q.map .child)
  rw [ha] at hrel
  cases hn : n.nodeAt? (q.map .child) with
  | none =>
    rw [hn] at hrel
    cases hrel
  | some b =>
    rw [hn] at hrel
    cases hrel with
    | some hab =>
      refine ⟨b, hn, ?_⟩
      rw [← hid, Node.id, Node.id, (sameButExpanded_of_shape hab).entity]

/-- Of the places in the children that lead to the id, these come first. -/
structure IsFirst (n : Node) (id : String) (q : List ℕ) : Prop where
  has : n.HasAt id q
  first : ∀ q', n.HasAt id q' → q ≤ q'

theorem IsFirst.unique {q' : List ℕ} (h : n.IsFirst id q) (h' : n.IsFirst id q') : q = q' :=
  le_antisymm (h.first q' h'.has) (h'.first q h.has)

/-- The position leads through children to the first node in preorder that has the id. -/
def FirstAt (n : Node) (id : String) (p : List Branch) : Prop :=
  ∃ q : List ℕ, p = q.map .child ∧ n.IsFirst id q

theorem IsFirst.firstAt_iff (h : n.IsFirst id q) : n.FirstAt id p ↔ p = q.map .child := by
  constructor
  · rintro ⟨q', hp, h'⟩
    rw [hp, h.unique h']
  · intro hp
    exact ⟨q, hp, h⟩

theorem FirstAt.id_eq (h : n.FirstAt id p) (hm : n.nodeAt? p = some m) : m.id = id := by
  obtain ⟨q, rfl, ⟨a, ha, hid⟩, -⟩ := h
  rw [ha] at hm
  rw [← hid, Option.some.inj hm]

/-- Flags do not decide which node is the first. -/
theorem firstAt_congr (h : m.shape = n.shape) : m.FirstAt id p ↔ n.FirstAt id p := by
  have hfirst : ∀ {m n : Node}, m.shape = n.shape → m.FirstAt id p → n.FirstAt id p := by
    rintro m n h ⟨q, hp, hq⟩
    refine ⟨q, hp, hasAt_of_shape h hq.has, ?_⟩
    intro q' hq'
    exact hq.first q' (hasAt_of_shape h.symm hq')
  exact ⟨hfirst h, hfirst h.symm⟩

/-! ### Toggling an id -/

theorem toggle?_eq (id : String) (n : Node) :
    n.toggle? id =
      if n.id = id then some { n with expanded := !n.expanded }
      else (toggleFirst? id n.children).map fun children => { n with children } := by
  cases n
  rw [toggle?]
  rfl

theorem toggleFirst?_eq_none {l : List Node} (h : toggleFirst? id l = none) :
    ∀ c ∈ l, c.toggle? id = none := by
  induction l with
  | nil => simp
  | cons c rest ih =>
    rw [toggleFirst?] at h
    cases hc : c.toggle? id with
    | some c' =>
      rw [hc] at h
      cases h
    | none =>
      rw [hc] at h
      rw [List.forall_mem_cons]
      exact ⟨hc, ih (Option.map_eq_none_iff.1 h)⟩

/-- A list is toggled at the first of its nodes that can be. -/
theorem toggleFirst?_eq_some {l l' : List Node} (h : toggleFirst? id l = some l') :
    ∃ i c c', l[i]? = some c ∧ c.toggle? id = some c' ∧ l' = l.set i c' ∧
      ∀ j < i, ∀ d, l[j]? = some d → d.toggle? id = none := by
  induction l generalizing l' with
  | nil => cases h
  | cons c rest ih =>
    rw [toggleFirst?] at h
    cases hc : c.toggle? id with
    | some c' =>
      rw [hc] at h
      refine ⟨0, c, c', rfl, hc, (Option.some.inj h).symm, ?_⟩
      intro j hj
      omega
    | none =>
      rw [hc] at h
      obtain ⟨rest', hrest, rfl⟩ := Option.map_eq_some_iff.1 h
      obtain ⟨i, d, d', hd, htoggle, rfl, hbefore⟩ := ih hrest
      refine ⟨i + 1, d, d', hd, htoggle, rfl, ?_⟩
      intro j hj e he
      cases j with
      | zero => exact Option.some.inj he ▸ hc
      | succ j => exact hbefore j (by omega) e he

/-- Where nothing is toggled, no place in the children has the id. -/
theorem not_hasAt_of_toggle?_eq_none (h : n.toggle? id = none) : ¬n.HasAt id q := by
  induction q generalizing n with
  | nil =>
    intro hid
    rw [toggle?_eq, if_pos (hasAt_nil.1 hid)] at h
    cases h
  | cons i q ih =>
    intro hid
    obtain ⟨c, hc, hq⟩ := hasAt_cons.1 hid
    rw [toggle?_eq] at h
    split at h
    · cases h
    · exact ih (toggleFirst?_eq_none (Option.map_eq_none_iff.1 h) c (List.mem_of_getElem? hc)) hq

/-- The first places with an id below a node that does not have it itself. -/
theorem IsFirst.cons {i : ℕ} {c : Node} (hid : n.id ≠ id) (hc : n.children[i]? = some c)
    (hq : c.IsFirst id q)
    (hbefore : ∀ j < i, ∀ d, n.children[j]? = some d → ∀ q', ¬d.HasAt id q') :
    n.IsFirst id (i :: q) := by
  refine ⟨hasAt_cons.2 ⟨c, hc, hq.has⟩, ?_⟩
  intro q' hq'
  cases q' with
  | nil => exact absurd (hasAt_nil.1 hq') hid
  | cons j q' =>
    obtain ⟨d, hd, hdq⟩ := hasAt_cons.1 hq'
    have hij : ¬j < i := fun hji => hbefore j hji d hd q' hdq
    rw [← not_lt, List.cons_lt_cons_iff]
    rintro (hji | ⟨rfl, hlt⟩)
    · exact hij hji
    · have hcd : c = d := Option.some.inj (hc.symm.trans hd)
      exact absurd (hq.first q' (hcd ▸ hdq)) (not_le.2 hlt)

theorem below?_set_children {i : ℕ} {c : Node} (c' : Node) (hc : n.children[i]? = some c)
    (b : Branch) :
    below? { n with children := n.children.set i c' } b =
      if b = .child i then some c' else n.below? b := by
  cases b with
  | parent j => rfl
  | child j =>
    have hlt : i < n.children.length := (List.getElem?_eq_some_iff.1 hc).1
    show (n.children.set i c')[j]? = _
    rw [List.getElem?_set]
    by_cases hij : i = j
    · simp [hij, hij ▸ hlt]
    · simp [below?, hij, Ne.symm hij]

/-- **A toggle flips the first node with the id** and leaves everything else as it was. -/
theorem toggle?_eq_some (h : n.toggle? id = some m) :
    ∃ q, n.IsFirst id q ∧ m.shape = n.shape ∧
      ∀ p, m.flagAt? p = if p = q.map .child then (n.flagAt? p).map not else n.flagAt? p := by
  induction n using below_induction generalizing m with
  | step n ih =>
  rw [toggle?_eq] at h
  split at h
  · rename_i hid
    obtain rfl := Option.some.inj h
    refine ⟨[], ⟨hasAt_nil.2 hid, fun q' _ => not_lt.1 (List.not_lt_nil q')⟩, ?_, ?_⟩
    · rw [shape, shape, setExpanded_eq, setExpanded_eq]
    · intro p
      cases p with
      | nil => rfl
      | cons b p =>
        rw [if_neg (by simp), flagAt?_cons, flagAt?_cons]
        cases b with
        | child i => rfl
        | parent i => rfl
  · rename_i hid
    obtain ⟨children', hchildren, rfl⟩ := Option.map_eq_some_iff.1 h
    obtain ⟨i, c, c', hc, htoggle, rfl, hbefore⟩ := toggleFirst?_eq_some hchildren
    obtain ⟨q, hq, hshape, hflags⟩ := ih (.child i) c hc htoggle
    have hbelow := below?_set_children c' hc
    refine ⟨i :: q, hq.cons hid hc ?_, ?_, ?_⟩
    · intro j hj d hd q'
      exact not_hasAt_of_toggle?_eq_none (hbefore j hj d hd)
    · refine eq_of_below ?_ ?_ ?_ ?_ ?_ ?_
      case refine_6 =>
        intro b
        rw [below?_shape, below?_shape, hbelow]
        split
        · rename_i hb
          rw [hb, below?, hc]
          exact congrArg some hshape
        · rfl
      all_goals simp only [shape, setExpanded_eq]
    · intro p
      cases p with
      | nil =>
        rw [if_neg (by simp), flagAt?_nil, flagAt?_nil]
      | cons b p =>
        rw [flagAt?_cons, flagAt?_cons, hbelow, List.map_cons]
        by_cases hb : b = .child i
        · have hbc : n.below? b = some c := by
            rw [hb]
            exact hc
          rw [if_pos hb, hbc]
          simp only [Option.bind_some, hb, List.cons.injEq, true_and]
          exact hflags p
        · simp [hb]

/-- Toggled or not, a node keeps its shape. -/
theorem shape_toggle (id : String) (n : Node) : ((n.toggle? id).getD n).shape = n.shape := by
  cases h : n.toggle? id with
  | none => rfl
  | some m =>
    obtain ⟨q, -, hshape, -⟩ := toggle?_eq_some h
    exact hshape

open Classical in
/-- A toggle flips the flag at the first position of the id, and no other one. -/
theorem flagAt?_toggle (id : String) (n : Node) (p : List Branch) :
    ((n.toggle? id).getD n).flagAt? p =
      if n.FirstAt id p then (n.flagAt? p).map not else n.flagAt? p := by
  cases h : n.toggle? id with
  | none =>
    have hnot : ¬n.FirstAt id p := by
      rintro ⟨q, -, hq⟩
      exact not_hasAt_of_toggle?_eq_none h hq.has
    rw [if_neg hnot]
    rfl
  | some m =>
    obtain ⟨q, hq, -, hflags⟩ := toggle?_eq_some h
    rw [Option.getD_some, hflags]
    simp only [hq.firstAt_iff]

/-- A toggle of an id that no node below has changes nothing. -/
theorem toggle?_eq_none_of_find? (h : n.find? id = none) : n.toggle? id = none := by
  cases ht : n.toggle? id with
  | none => rfl
  | some m =>
    obtain ⟨q, ⟨⟨a, ha, hid⟩, -⟩, -⟩ := toggle?_eq_some ht
    rw [find?, List.find?_eq_none] at h
    exact absurd hid (by simpa using h a (mem_preorder_iff.2 ⟨q, ha⟩))

end Node

end CodeAtlas
