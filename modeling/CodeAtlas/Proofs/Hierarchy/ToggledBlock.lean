import CodeAtlas.Proofs.Hierarchy.VisibleDepth
import CodeAtlas.Proofs.Text.StableSort

/-!
# What a toggle shows or hides

A tree shows the nodes whose proper ancestors are all expanded, in preorder.  `Node.rows` lists them together with
their positions, and `Node.Listing` says of such a list what it has to be: the positions increase, and they are the
ones with nothing collapsed on the way (`Node.OpenTo`).  So the walk that collects the visible nodes can be forgotten
(`Node.listing_iff`).

A toggle flips the flag of one node, the first one with the id.  If something above it is collapsed, nobody notices.
Otherwise the listing changes in one place: what the children of the node show is put in behind the node or taken out
there, as one block.  `Node.Exchanges.child` carries such a change from a child to its parent, and
`Node.visible_toggle?` carries it from the node to the root.  The flags below the node are those from before, so the
block that comes back is the block that went away.
-/

namespace CodeAtlas

namespace Node

variable {m n : Node} {id : String} {q : List ℕ}

/-! ### Positions with nothing collapsed above them -/

/-- Every proper ancestor of the position is expanded. -/
def OpenTo (n : Node) (q : List ℕ) : Prop :=
  ∀ q', q' <+: q → q' ≠ q → n.flagAt? (q'.map .child) = some true

theorem openTo_nil (n : Node) : n.OpenTo [] := by
  intro q' hprefix hne
  exact absurd (List.prefix_nil.1 hprefix) hne

theorem openTo_cons {i : ℕ} {c : Node} (hc : n.children[i]? = some c) :
    n.OpenTo (i :: q) ↔ n.expanded = true ∧ c.OpenTo q := by
  have hflag : ∀ q', n.flagAt? ((i :: q').map .child) = c.flagAt? (q'.map .child) := by
    intro q'
    rw [List.map_cons, flagAt?_cons, below?, hc, Option.bind_some]
  constructor
  · intro h
    constructor
    · have hroot := h [] List.nil_prefix (List.cons_ne_nil i q).symm
      rw [List.map_nil, flagAt?_nil] at hroot
      exact Option.some.inj hroot
    · intro q' hprefix hne
      rw [← hflag]
      exact h (i :: q') (List.cons_prefix_cons.2 ⟨rfl, hprefix⟩) (by simpa using hne)
  · intro h q' hprefix hne
    obtain ⟨hexpanded, hopen⟩ := h
    cases q' with
    | nil => rw [List.map_nil, flagAt?_nil, hexpanded]
    | cons j q' =>
      obtain ⟨rfl, hprefix'⟩ := List.cons_prefix_cons.1 hprefix
      rw [hflag]
      exact hopen q' hprefix' (by simpa using hne)

/-! ### Visible nodes with their positions -/

mutual

/-- The node and what its expansion shows, each with the places that lead to it. -/
def rows : Node → List (List ℕ × Node)
  | ⟨entity, depth, relationship, expanded, children, parents, parentId⟩ =>
    ([], ⟨entity, depth, relationship, expanded, children, parents, parentId⟩) ::
      (if expanded then rowsFrom 0 children else [])

/-- The rows of the nodes of a list, the first of which stands at a place. -/
def rowsFrom : (place : ℕ) → List Node → List (List ℕ × Node)
  | _, [] => []
  | place, n :: rest => n.rows.map (fun r => (place :: r.1, r.2)) ++ rowsFrom (place + 1) rest

end

theorem rowsFrom_eq (place : ℕ) (l : List Node) :
    rowsFrom place l = (l.zipIdx place).flatMap fun x => x.1.rows.map fun r => (x.2 :: r.1, r.2) := by
  induction l generalizing place with
  | nil => rfl
  | cons n rest ih => rw [rowsFrom, ih, List.zipIdx_cons, List.flatMap_cons]

theorem rows_eq (n : Node) :
    n.rows = ([], n) ::
      if n.expanded then n.children.zipIdx.flatMap fun x => x.1.rows.map fun r => (x.2 :: r.1, r.2) else [] := by
  cases n
  rw [rows, rowsFrom_eq]

theorem cons_mem_rows {i : ℕ} :
    (i :: q, m) ∈ n.rows ↔ n.expanded = true ∧ ∃ c, n.children[i]? = some c ∧ (q, m) ∈ c.rows := by
  rw [rows_eq, List.mem_cons]
  constructor
  · rintro (h | h)
    · cases h
    · split at h
      · rename_i hexpanded
        obtain ⟨⟨c, j⟩, hc, hrow⟩ := List.mem_flatMap.1 h
        obtain ⟨r, hr, heq⟩ := List.mem_map.1 hrow
        obtain ⟨hplaces, rfl⟩ := Prod.mk.inj heq
        obtain ⟨rfl, rfl⟩ := List.cons.inj hplaces
        exact ⟨hexpanded, c, List.mem_zipIdx_iff_getElem?.1 hc, hr⟩
      · cases h
  · rintro ⟨hexpanded, c, hc, hr⟩
    refine .inr ?_
    rw [if_pos hexpanded]
    exact List.mem_flatMap.2 ⟨(c, i), List.mem_zipIdx_iff_getElem?.2 hc, List.mem_map_of_mem hr⟩

theorem nil_mem_rows : ([], m) ∈ n.rows ↔ n = m := by
  rw [rows_eq, List.mem_cons]
  constructor
  · rintro (h | h)
    · exact (Prod.mk.inj h).2.symm
    · split at h
      · obtain ⟨x, -, hr⟩ := List.mem_flatMap.1 h
        obtain ⟨r, -, heq⟩ := List.mem_map.1 hr
        cases heq
      · cases h
  · rintro rfl
    exact .inl rfl

/-- The rows are the positions of the tree with nothing collapsed above them. -/
theorem mem_rows : (q, m) ∈ n.rows ↔ n.nodeAt? (q.map .child) = some m ∧ n.OpenTo q := by
  induction q generalizing n with
  | nil =>
    rw [nil_mem_rows, List.map_nil, nodeAt?_nil, Option.some.injEq]
    exact (and_iff_left (openTo_nil n)).symm
  | cons i q ih =>
    rw [cons_mem_rows, List.map_cons, nodeAt?_cons, below?]
    constructor
    · rintro ⟨hexpanded, c, hc, hr⟩
      obtain ⟨hm, hopen⟩ := ih.1 hr
      rw [hc]
      exact ⟨hm, (openTo_cons hc).2 ⟨hexpanded, hopen⟩⟩
    · rintro ⟨hm, hopen⟩
      obtain ⟨c, hc, hm⟩ := Option.bind_eq_some_iff.1 hm
      obtain ⟨hexpanded, hopen⟩ := (openTo_cons hc).1 hopen
      exact ⟨hexpanded, c, hc, ih.2 ⟨hm, hopen⟩⟩

/-- Without their positions, the rows are the visible nodes. -/
theorem map_snd_rows (n : Node) : n.rows.map Prod.snd = n.visible := by
  induction n using below_induction with
  | step n ih =>
  rw [rows_eq, visible_eq, List.map_cons]
  congr 1
  by_cases hexpanded : n.expanded = true
  · have hchildren : n.children.flatMap visible = n.children.zipIdx.flatMap fun x => x.1.visible := by
      conv_lhs => rw [← List.zipIdx_map_fst 0 n.children, List.flatMap_map]
    rw [if_pos hexpanded, if_pos hexpanded, hchildren, List.map_flatMap]
    refine List.flatMap_congr fun x hx => ?_
    rw [List.map_map, ← ih (.child x.2) x.1 (List.mem_zipIdx_iff_getElem?.1 hx)]
    rfl
  · rw [if_neg hexpanded, if_neg hexpanded, List.map_nil]

/-- The rows are in preorder. -/
theorem pairwise_rows (n : Node) : n.rows.Pairwise fun r s => r.1 < s.1 := by
  induction n using below_induction with
  | step n ih =>
  rw [rows_eq, List.pairwise_cons]
  constructor
  · intro s hs
    split at hs
    · obtain ⟨x, -, hs⟩ := List.mem_flatMap.1 hs
      obtain ⟨r, -, rfl⟩ := List.mem_map.1 hs
      exact List.nil_lt_cons _ _
    · cases hs
  · split
    · rw [List.pairwise_flatMap]
      constructor
      · intro x hx
        rw [List.pairwise_map]
        refine (ih (.child x.2) x.1 (List.mem_zipIdx_iff_getElem?.1 hx)).imp ?_
        intro r s hrs
        exact List.cons_lt_cons_iff.2 (.inr ⟨rfl, hrs⟩)
      · refine (Text.pairwise_zipIdx n.children).imp ?_
        intro x y hxy r hr s hs
        obtain ⟨r, -, rfl⟩ := List.mem_map.1 hr
        obtain ⟨s, -, rfl⟩ := List.mem_map.1 hs
        exact List.cons_lt_cons_iff.2 (.inl hxy)
    · exact List.Pairwise.nil

/-- The list gives the nodes whose proper ancestors are all expanded, each with its position, in preorder. -/
structure Listing (n : Node) (l : List (List ℕ × Node)) : Prop where
  mem : ∀ q m, (q, m) ∈ l ↔ n.nodeAt? (q.map .child) = some m ∧ n.OpenTo q
  sorted : l.Pairwise fun r s => r.1 < s.1

theorem listing_rows (n : Node) : n.Listing n.rows :=
  ⟨fun _ _ => mem_rows, pairwise_rows n⟩

theorem Listing.unique {l l' : List (List ℕ × Node)} (h : n.Listing l) (h' : n.Listing l') : l = l' := by
  have hnodup : ∀ {l : List (List ℕ × Node)}, n.Listing l → l.Nodup := by
    intro l h
    refine h.sorted.imp ?_
    intro r s hlt heq
    exact lt_irrefl r.1 (heq ▸ hlt)
  have hperm : l.Perm l' := (List.perm_ext_iff_of_nodup (hnodup h) (hnodup h')).2 fun r => by
    rw [h.mem r.1 r.2, h'.mem r.1 r.2]
  refine List.Perm.eq_of_pairwise ?_ h.sorted h'.sorted hperm
  intro r s _ _ hrs hsr
  exact absurd hsr (lt_asymm hrs)

/-- The visible nodes are those of the one listing that there is. -/
theorem listing_iff {shown : List Node} : (∃ l, n.Listing l ∧ l.map Prod.snd = shown) ↔ shown = n.visible := by
  rw [← map_snd_rows]
  constructor
  · rintro ⟨l, hl, rfl⟩
    rw [hl.unique (listing_rows n)]
  · rintro rfl
    exact ⟨n.rows, listing_rows n, rfl⟩

/-! ### The node that is toggled -/

theorem mem_preorder_of_mem_visible (h : m ∈ n.visible) : m ∈ n.preorder := by
  rw [← map_snd_rows] at h
  obtain ⟨r, hr, rfl⟩ := List.mem_map.1 h
  exact mem_preorder_iff.2 ⟨r.1, (mem_rows.1 hr).1⟩

/-- What a node does not have, it does not show. -/
theorem id_ne_of_mem_visible (h : ∀ q, ¬n.HasAt id q) (hm : m ∈ n.visible) : m.id ≠ id := by
  obtain ⟨q, hq⟩ := mem_preorder_iff.1 (mem_preorder_of_mem_visible hm)
  intro hid
  exact h q ⟨m, hq, hid⟩

theorem isFirst_nil (h : n.id = id) : n.IsFirst id [] :=
  ⟨hasAt_nil.2 h, fun q' _ => not_lt.1 (List.not_lt_nil q')⟩

theorem find?_eq_none_iff : n.find? id = none ↔ ∀ q, ¬n.HasAt id q := by
  rw [find?, List.find?_eq_none]
  constructor
  · rintro h q ⟨m, hq, hid⟩
    exact h m (mem_preorder_iff.2 ⟨q, hq⟩) (decide_eq_true hid)
  · intro h m hm hid
    obtain ⟨q, hq⟩ := mem_preorder_iff.1 hm
    exact h q ⟨m, hq, of_decide_eq_true hid⟩

section Child

variable {i : ℕ} {c : Node} (hc : n.children[i]? = some c)

include hc

theorem children_split : n.children = n.children.take i ++ c :: n.children.drop (i + 1) := by
  obtain ⟨hi, hci⟩ := List.getElem?_eq_some_iff.1 hc
  rw [← hci, ← List.drop_eq_getElem_cons hi, List.take_append_drop]

/-- The walk below an expanded node passes through each of its children. -/
theorem visible_split (hexpanded : n.expanded = true) :
    n.visible = n :: ((n.children.take i).flatMap visible ++ c.visible ++
      (n.children.drop (i + 1)).flatMap visible) := by
  conv_lhs => rw [visible_eq, if_pos hexpanded, children_split hc]
  rw [List.flatMap_append, List.flatMap_cons, List.append_assoc]

/-- Exchanging a child exchanges its part of the walk. -/
theorem visible_set_child (hexpanded : n.expanded = true) (c' : Node) :
    Node.visible { n with children := n.children.set i c' } =
      { n with children := n.children.set i c' } :: ((n.children.take i).flatMap visible ++ c'.visible ++
        (n.children.drop (i + 1)).flatMap visible) := by
  have hi : i < n.children.length := (List.getElem?_eq_some_iff.1 hc).1
  have hsplit := visible_split (n := { n with children := n.children.set i c' }) (List.getElem?_set_self hi) hexpanded
  rwa [List.take_set_of_le (Nat.le_refl i), List.drop_set_of_lt (Nat.lt_succ_self i)] at hsplit

/-- A child is searched when the children before it have been. -/
theorem find?_split (hid : n.id ≠ id) (hbefore : ∀ d ∈ n.children.take i, d.find? id = none)
    (hfound : (c.find? id).isSome) : n.find? id = c.find? id := by
  have hnone : ((n.children.take i).flatMap preorder).find? (fun m => decide (m.id = id)) = none := by
    rw [List.find?_flatMap, List.findSome?_eq_none_iff]
    exact hbefore
  rw [find?, preorder_eq, List.find?_cons_of_neg (by simpa using hid), children_split hc, List.flatMap_append,
    List.find?_append, hnone, Option.none_or, List.flatMap_cons, List.find?_append]
  exact Option.or_of_isSome hfound

end Child

theorem exists_lt_of_mem_take {i : ℕ} {d : Node} (hd : d ∈ n.children.take i) :
    ∃ j < i, n.children[j]? = some d := by
  obtain ⟨j, hj, rfl⟩ := List.mem_take_iff_getElem.1 hd
  exact ⟨j, by omega, List.getElem?_eq_getElem _⟩

/-- The search by a walk finds the node at the first position with the id. -/
theorem IsFirst.find?_eq (h : n.IsFirst id q) : n.find? id = n.nodeAt? (q.map .child) := by
  induction q generalizing n with
  | nil =>
    rw [find?, preorder_eq, List.find?_cons_of_pos (by simpa using hasAt_nil.1 h.has), List.map_nil, nodeAt?_nil]
  | cons i q ih =>
    obtain ⟨c, hc, hq⟩ := hasAt_cons.1 h.has
    have hid : n.id ≠ id := by
      intro hid
      exact absurd (h.first [] (hasAt_nil.2 hid)) (not_le.2 (List.nil_lt_cons _ _))
    have hbefore : ∀ d ∈ n.children.take i, d.find? id = none := by
      intro d hd
      obtain ⟨j, hji, hj⟩ := exists_lt_of_mem_take hd
      refine find?_eq_none_iff.2 fun q' hq' => ?_
      exact absurd (h.first (j :: q') (hasAt_cons.2 ⟨d, hj, hq'⟩)) (not_le.2 (List.cons_lt_cons_iff.2 (.inl hji)))
    have hc_first : c.IsFirst id q := by
      refine ⟨hq, fun q' hq' => not_lt.1 fun hlt => ?_⟩
      exact absurd (h.first (i :: q') (hasAt_cons.2 ⟨c, hc, hq'⟩))
        (not_le.2 (List.cons_lt_cons_iff.2 (.inr ⟨rfl, hlt⟩)))
    have hfind := ih hc_first
    have hfound : (c.find? id).isSome := by
      obtain ⟨m, hm, -⟩ := hq
      rw [hfind, hm]
      rfl
    rw [find?_split hc hid hbefore hfound, hfind, List.map_cons, nodeAt?_cons, below?, hc, Option.bind_some]

/-! ### What a toggle shows or hides -/

/-- The node expanded if it is collapsed, and collapsed if it is expanded. -/
def flipped (n : Node) : Node := { n with expanded := !n.expanded }

theorem visible_of_collapsed (h : n.expanded = false) : n.visible = [n] := by
  rw [visible_eq, if_neg (by simp [h])]

theorem visible_of_expanded (h : n.expanded = true) : n.visible = n :: n.children.flatMap visible := by
  rw [visible_eq, if_pos h]

theorem visible_flipped_of_collapsed (h : n.expanded = false) :
    n.flipped.visible.map listed = (n :: n.children.flatMap visible).map listed := by
  have hflag : n.flipped.expanded = true := by
    rw [flipped, h]
    rfl
  rw [visible_of_expanded hflag]
  rfl

theorem visible_flipped_of_expanded (h : n.expanded = true) : n.flipped.visible.map listed = [n].map listed := by
  have hflag : n.flipped.expanded = false := by
    rw [flipped, h]
    rfl
  rw [visible_of_collapsed hflag]
  rfl

/-- The first visible node with the id is `a`, and `m` shows what `n` shows with `a` flipped. -/
def Exchanges (id : String) (a n m : Node) : Prop :=
  ∃ before after, (∀ b ∈ before, b.id ≠ id) ∧ n.visible = before ++ a.visible ++ after ∧
    m.visible.map listed = (before ++ a.flipped.visible ++ after).map listed

theorem exchanges_self (id : String) (n : Node) : Exchanges id n n n.flipped := by
  refine ⟨[], [], by simp, ?_, ?_⟩
  · rw [List.nil_append, List.append_nil]
  · rw [List.nil_append, List.append_nil]

section Child

variable {a c c' : Node} {i : ℕ} (hc : n.children[i]? = some c)

include hc

/-- A change that a child does not show is not shown by its parent either. -/
theorem listed_set_child (h : n.expanded = true → c'.visible.map listed = c.visible.map listed) :
    (Node.visible { n with children := n.children.set i c' }).map listed = n.visible.map listed := by
  by_cases hexpanded : n.expanded = true
  · rw [visible_set_child hc hexpanded, visible_split hc hexpanded]
    simp only [List.map_cons, List.map_append, h hexpanded]
    rfl
  · rw [visible_eq, visible_eq n, if_neg hexpanded, if_neg hexpanded]
    rfl

/-- A change that a child shows is shown by its parent, if that is expanded, in the same way. -/
theorem Exchanges.child (h : Exchanges id a c c') (hexpanded : n.expanded = true) (hid : n.id ≠ id)
    (hbefore : ∀ d ∈ n.children.take i, ∀ q', ¬d.HasAt id q') :
    Exchanges id a n { n with children := n.children.set i c' } := by
  obtain ⟨before, after, hids, hvisible, hvisible'⟩ := h
  refine ⟨n :: (n.children.take i).flatMap visible ++ before, after ++ (n.children.drop (i + 1)).flatMap visible,
    ?_, ?_, ?_⟩
  · intro b hb
    rcases List.mem_append.1 hb with hb | hb
    · rcases List.mem_cons.1 hb with rfl | hb
      · exact hid
      · obtain ⟨d, hd, hbd⟩ := List.mem_flatMap.1 hb
        exact id_ne_of_mem_visible (hbefore d hd) hbd
    · exact hids b hb
  · rw [visible_split hc hexpanded, hvisible]
    simp only [List.cons_append, List.append_assoc]
  · rw [visible_set_child hc hexpanded]
    simp only [List.map_cons, List.map_append, List.cons_append, List.append_assoc, hvisible']
    rfl

end Child

/-- A toggle flips a node.  If something above it is collapsed, the listing stays as it was, and else the listing of
that node is exchanged for its new one. -/
theorem visible_toggle? (h : n.toggle? id = some m) :
    ∃ q a, n.IsFirst id q ∧ n.nodeAt? (q.map .child) = some a ∧
      (¬n.OpenTo q → m.visible.map listed = n.visible.map listed) ∧ (n.OpenTo q → Exchanges id a n m) := by
  induction n using below_induction generalizing m with
  | step n ih =>
  rw [toggle?_eq] at h
  split at h
  · rename_i hid
    obtain rfl := Option.some.inj h
    exact ⟨[], n, isFirst_nil hid, nodeAt?_nil n, fun hclosed => absurd (openTo_nil n) hclosed,
      fun _ => exchanges_self id n⟩
  · rename_i hid
    obtain ⟨children', hchildren, rfl⟩ := Option.map_eq_some_iff.1 h
    obtain ⟨i, c, c', hc, htoggle, rfl, hbefore⟩ := toggleFirst?_eq_some hchildren
    obtain ⟨q, a, hq, ha, hclosed, hopen⟩ := ih (.child i) c hc htoggle
    have hnone : ∀ j < i, ∀ d, n.children[j]? = some d → ∀ q', ¬d.HasAt id q' := by
      intro j hj d hd q'
      exact not_hasAt_of_toggle?_eq_none (hbefore j hj d hd)
    refine ⟨i :: q, a, hq.cons hid hc hnone, ?_, ?_, ?_⟩
    · rw [List.map_cons, nodeAt?_cons, below?, hc]
      exact ha
    · intro hclosed_n
      refine listed_set_child hc fun hexpanded => hclosed fun hopen_c => ?_
      exact hclosed_n ((openTo_cons hc).2 ⟨hexpanded, hopen_c⟩)
    · intro hopen_n
      obtain ⟨hexpanded, hopen_c⟩ := (openTo_cons hc).1 hopen_n
      refine (hopen hopen_c).child hc hexpanded hid fun d hd => ?_
      obtain ⟨j, hji, hj⟩ := exists_lt_of_mem_take hd
      exact hnone j hji d hj

end Node

namespace Tree

/-- **A toggle opens or closes one block.**  An unknown id changes nothing in what a tree shows.  A known id leads to
the first node in preorder that has it.  If something above that node is collapsed, again nothing changes.  Otherwise
the node is shown, as the first one with the id, and what its children show stands behind it as one block that is
put in if the node was collapsed, and taken out if it was expanded.  In every state a tree shows the nodes whose proper
ancestors are all expanded, in preorder. -/
theorem visibleNodes_toggle (t : Tree) (id : String) :
    (t.find? id = none → (t.toggle id).visibleNodes.map Node.listed = t.visibleNodes.map Node.listed) ∧
    (∀ n, t.find? id = some n → ∃ q, t.root.IsFirst id q ∧ t.root.nodeAt? (q.map .child) = some n ∧
      (¬t.root.OpenTo q → (t.toggle id).visibleNodes.map Node.listed = t.visibleNodes.map Node.listed) ∧
      (t.root.OpenTo q → ∃ before after, (∀ m ∈ before, m.id ≠ id) ∧
        (n.expanded = false → t.visibleNodes = before ++ n :: after ∧
          (t.toggle id).visibleNodes.map Node.listed =
            (before ++ n :: (n.children.flatMap Node.visible ++ after)).map Node.listed) ∧
        (n.expanded = true → t.visibleNodes = before ++ n :: (n.children.flatMap Node.visible ++ after) ∧
          (t.toggle id).visibleNodes.map Node.listed = (before ++ n :: after).map Node.listed))) ∧
    ∀ shown, (∃ l, t.root.Listing l ∧ l.map Prod.snd = shown) ↔ shown = t.visibleNodes := by
  refine ⟨?_, ?_, fun _ => Node.listing_iff⟩
  · intro h
    rw [toggle, Node.toggle?_eq_none_of_find? h]
    rfl
  · intro n hn
    cases ht : t.root.toggle? id with
    | none =>
      have hnone : t.find? id = none := Node.find?_eq_none_iff.2 fun q => Node.not_hasAt_of_toggle?_eq_none ht
      rw [hnone] at hn
      cases hn
    | some r =>
      obtain ⟨q, a, hq, ha, hclosed, hopen⟩ := Node.visible_toggle? ht
      have hroot : (t.toggle id).visibleNodes = r.visible := by
        rw [visibleNodes, toggle, ht]
        rfl
      have hna : a = n := by
        rw [← hq.find?_eq] at ha
        exact Option.some.inj (ha.symm.trans hn)
      rw [hna] at ha hopen
      rw [hroot]
      refine ⟨q, hq, ha, hclosed, ?_⟩
      intro hshown
      obtain ⟨before, after, hids, hvisible, htoggled⟩ := hopen hshown
      refine ⟨before, after, hids, ?_, ?_⟩
      · intro hexpanded
        rw [Node.visible_of_collapsed hexpanded] at hvisible
        rw [List.map_append, List.map_append, Node.visible_flipped_of_collapsed hexpanded] at htoggled
        exact ⟨by simpa [visibleNodes] using hvisible, by simpa using htoggled⟩
      · intro hexpanded
        rw [Node.visible_of_expanded hexpanded] at hvisible
        rw [List.map_append, List.map_append, Node.visible_flipped_of_expanded hexpanded] at htoggled
        exact ⟨by simpa [visibleNodes] using hvisible, by simpa using htoggled⟩

/-- A tree with `b` twice: first below the collapsed `a`, where it is expanded and shows `c`, and then in sight. -/
def halfOpen : Tree :=
  let node (id : String) (expanded : Bool) (children : List Node) : Node :=
    { entity := Entity.plain id "function", depth := 0, relationship := none, expanded, children,
      parents := [], parentId := none }
  { root := node "r" true [node "a" false [node "b" true [node "c" false []]], node "b" true [node "d" false []]]
    totalNodes := 6
    maxDepth := 0
    relationshipTypes := []
    filterStats := none
    bridges := none }

theorem visibleNodes_toggle_halfOpen :
    (halfOpen.find? "z" = none ∧
      (halfOpen.toggle "z").visibleNodes.map Node.listed = halfOpen.visibleNodes.map Node.listed) ∧
    (∃ n, halfOpen.find? "b" = some n ∧ ¬halfOpen.root.OpenTo [0, 0] ∧
      (halfOpen.toggle "b").visibleNodes.map Node.listed = halfOpen.visibleNodes.map Node.listed) ∧
    (∃ n before after, halfOpen.find? "a" = some n ∧ halfOpen.root.OpenTo [0] ∧ n.expanded = false ∧
      halfOpen.visibleNodes = before ++ n :: after ∧
      (halfOpen.toggle "a").visibleNodes.map Node.listed =
        (before ++ n :: (n.children.flatMap Node.visible ++ after)).map Node.listed) ∧
    ∃ n before after, halfOpen.find? "r" = some n ∧ halfOpen.root.OpenTo [] ∧ n.expanded = true ∧
      halfOpen.visibleNodes = before ++ n :: (n.children.flatMap Node.visible ++ after) ∧
      (halfOpen.toggle "r").visibleNodes.map Node.listed = (before ++ n :: after).map Node.listed := by
  have hnone_before : ∀ (l : List Node) (id : String), ∀ j < 0, ∀ d, l[j]? = some d → ∀ q', ¬d.HasAt id q' := by
    intro l id j hj
    omega
  refine ⟨⟨rfl, (visibleNodes_toggle halfOpen "z").1 rfl⟩, ?_, ?_, ?_⟩
  · obtain ⟨q, hq, -, hclosed, -⟩ := (visibleNodes_toggle halfOpen "b").2.1 _ rfl
    have hfirst : halfOpen.root.IsFirst "b" [0, 0] :=
      Node.IsFirst.cons (by decide) rfl (Node.IsFirst.cons (by decide) rfl (Node.isFirst_nil rfl) (hnone_before _ _))
        (hnone_before _ _)
    have hhidden : ¬halfOpen.root.OpenTo [0, 0] := by
      rw [Node.openTo_cons rfl, Node.openTo_cons rfl]
      rintro ⟨-, hcollapsed, -⟩
      cases hcollapsed
    obtain rfl := hq.unique hfirst
    exact ⟨_, rfl, hhidden, hclosed hhidden⟩
  · obtain ⟨q, hq, -, -, hopen⟩ := (visibleNodes_toggle halfOpen "a").2.1 _ rfl
    have hfirst : halfOpen.root.IsFirst "a" [0] :=
      Node.IsFirst.cons (by decide) rfl (Node.isFirst_nil rfl) (hnone_before _ _)
    have hshown : halfOpen.root.OpenTo [0] := (Node.openTo_cons rfl).2 ⟨rfl, Node.openTo_nil _⟩
    obtain rfl := hq.unique hfirst
    obtain ⟨before, after, -, hput, -⟩ := hopen hshown
    exact ⟨_, before, after, rfl, hshown, rfl, hput rfl⟩
  · obtain ⟨q, hq, -, -, hopen⟩ := (visibleNodes_toggle halfOpen "r").2.1 _ rfl
    obtain rfl := hq.unique (Node.isFirst_nil rfl)
    obtain ⟨before, after, -, -, htaken⟩ := hopen (Node.openTo_nil _)
    exact ⟨_, before, after, rfl, Node.openTo_nil _, rfl, htaken rfl⟩

end Tree

end CodeAtlas
