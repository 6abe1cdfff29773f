import CodeAtlas.Proofs.Hierarchy.Canonical

/-!
# The parents of the root

The parents of the root are not claimed.  They are read off the edges that enter the selected id, without regard
to what the walk has seen and to how far it may go.  `Graph.Callers` says what such a list has to be, in terms of
the graph alone, and `Tree.build_parents` that the parents are the one list of that kind.

Three things come together.  Of several edges from one caller the first is the one that shows
(`Index.firstCall_of_fresh`); callers are sorted by name, and since sorting is stable, by the places of these
edges among equal names (`Node.callers_sorted`).  And a caller is one hop away, so a walk of at least one level
claims it as a child of the root as well (`Tree.exists_child_of_adj`).
-/

namespace CodeAtlas

namespace Graph

/-- The place of the first edge that leads from the caller to the callee. -/
def firstCall (g : Graph) (caller callee : String) : ℕ :=
  g.edges.findIdx fun e => e.source = caller ∧ e.target = callee

/-- The nodes show the entities that have an edge into the selected one. -/
structure Callers (g : Graph) (selected : Entity) (nodes : List Node) : Prop where
  /-- Nobody is shown twice. -/
  once : (nodes.map Node.id).Nodup
  /-- Callers are known, and the selected entity is not its own caller. -/
  mem_id : ∀ id, id ∈ nodes.map Node.id ↔
    id ∈ g.ids ∧ id ≠ selected.id ∧ ∃ e ∈ g.edges, e.source = id ∧ e.target = selected.id
  entity : ∀ n ∈ nodes, g.entity? n.id = some n.entity
  /-- The first edge gives the label, as seen from the caller. -/
  label : ∀ n ∈ nodes, ∃ e, g.edges[g.firstCall n.id selected.id]? = some e ∧
    n.relationship = some (e.labelFrom n.id)
  /-- Nothing hangs on a caller. -/
  alone : ∀ n ∈ nodes, n.depth = -1 ∧ n.expanded = false ∧ n.children = [] ∧ n.parents = [] ∧ n.parentId = none
  /-- Names come first and first edges second. -/
  sorted : nodes.Pairwise fun m n => m.name < n.name ∨
    m.name = n.name ∧ g.firstCall m.id selected.id < g.firstCall n.id selected.id

namespace Callers

variable {g : Graph} {selected : Entity} {nodes nodes' : List Node}

theorem eq_of_id (h : g.Callers selected nodes) (h' : g.Callers selected nodes') {m n : Node} (hm : m ∈ nodes)
    (hn : n ∈ nodes') (hid : m.id = n.id) : m = n := by
  have hentity : m.entity = n.entity := by
    have hmn := h.entity m hm
    rw [hid, h'.entity n hn] at hmn
    exact (Option.some.inj hmn).symm
  have hlabel : m.relationship = n.relationship := by
    obtain ⟨e, he, hlabel⟩ := h.label m hm
    obtain ⟨e', he', hlabel'⟩ := h'.label n hn
    rw [hid, he'] at he
    rw [hlabel, hlabel', hid, Option.some.inj he]
  have hm_alone := h.alone m hm
  have hn_alone := h'.alone n hn
  cases m
  cases n
  simp_all only

theorem subset (h : g.Callers selected nodes) (h' : g.Callers selected nodes') : nodes ⊆ nodes' := by
  intro m hm
  have hid := (h'.mem_id m.id).2 ((h.mem_id m.id).1 (List.mem_map_of_mem hm))
  obtain ⟨n, hn, hnm⟩ := List.mem_map.1 hid
  rwa [h.eq_of_id h' hm hn hnm.symm]

/-- There is only one list of callers. -/
theorem unique (h : g.Callers selected nodes) (h' : g.Callers selected nodes') : nodes = nodes' := by
  have hperm : nodes.Perm nodes' :=
    (List.perm_ext_iff_of_nodup h.once.of_map h'.once.of_map).2 fun _ =>
      ⟨fun hm => h.subset h' hm, fun hm => h'.subset h hm⟩
  refine List.Perm.eq_of_pairwise ?_ h.sorted h'.sorted hperm
  intro m n _ _ hmn hnm
  rcases hmn with hlt | ⟨heq, hplace⟩
  · rcases hnm with hgt | ⟨heq, -⟩
    · exact absurd hgt (String.lt_asymm hlt)
    · exact absurd (heq ▸ hlt) (String.lt_irrefl _)
  · rcases hnm with hgt | ⟨-, hplace'⟩
    · exact absurd (heq ▸ hgt) (String.lt_irrefl _)
    · exact absurd hplace' (Nat.lt_asymm hplace)

end Callers

end Graph

/-! ### Edges into an id -/

namespace Index

variable {selected : Entity} {g : Graph} {a : String}

/-- What enters an id is what touches it along edges into it; a loop leads to the same entity either way. -/
theorem incoming_eq_filter (selected : Entity) (g : Graph) (a : String) :
    (around selected g).incoming a = ((around selected g).touching a).filter fun q => q.1.target = a := by
  rw [incoming, touching, List.filter_filterMap]
  refine List.filterMap_congr fun l hl => ?_
  by_cases hsource : l.edge.source = a
  · by_cases htarget : l.edge.target = a
    · have hentity : l.source = l.target := by
        obtain ⟨hs, ht⟩ := lookUp_of_mem_links hl
        obtain ⟨hs_id, ht_id⟩ := id_of_mem_links hl
        rw [hs_id, hsource] at hs
        rw [ht_id, htarget, hs] at ht
        exact Option.some.inj ht
      simp [hsource, htarget, hentity, Option.filter_some]
    · simp [hsource, htarget, Option.filter_some]
  · by_cases htarget : l.edge.target = a
    · simp [hsource, htarget, Option.filter_some]
    · simp [hsource, htarget]

/-- What enters an id, with the place of each edge in the graph. -/
def entering (selected : Entity) (g : Graph) (a : String) : List ((Edge × Entity) × ℕ) :=
  (numbered selected g a).filter fun x => x.1.1.target = a

theorem map_fst_entering (selected : Entity) (g : Graph) (a : String) :
    (entering selected g a).map Prod.fst = (around selected g).incoming a := by
  rw [incoming_eq_filter, ← map_fst_numbered, List.filter_map]
  rfl

theorem pairwise_entering (selected : Entity) (g : Graph) (a : String) :
    (entering selected g a).Pairwise fun x y => x.2 < y.2 :=
  (pairwise_numbered selected g a).filter _

/-- An edge that touches an id at its target leads there from the other end. -/
theorem source_of_mem_entering {x : (Edge × Entity) × ℕ} (hx : x ∈ entering selected g a) :
    x.1.1.source = x.1.2.id ∧ x.1.1.target = a := by
  obtain ⟨hx, htarget⟩ := List.mem_filter.1 hx
  have htarget : x.1.1.target = a := of_decide_eq_true htarget
  refine ⟨?_, htarget⟩
  rcases (mem_numbered hx).2.2.1 with ⟨hs, ht⟩ | ⟨hs, -⟩
  · rw [hs, ← htarget, ht]
  · exact hs

/-- Of the edges from one caller, the first is the one that is fresh. -/
theorem firstCall_of_fresh {seen : List String} {x : (Edge × Entity) × ℕ}
    (hx : x ∈ Walk.fresh (fun y => y.1.2.id) seen (entering selected g a)) : g.firstCall x.1.2.id a = x.2 := by
  have hentering := (Walk.fresh_sublist _ _).subset hx
  obtain ⟨hsource, htarget⟩ := source_of_mem_entering hentering
  obtain ⟨hplace, hhop, hjoins, -⟩ := mem_numbered (List.mem_filter.1 hentering).1
  obtain ⟨hlt, hedge⟩ := List.getElem?_eq_some_iff.1 hplace
  refine (List.findIdx_eq hlt).2 ⟨?_, ?_⟩
  · rw [hedge]
    exact decide_eq_true ⟨hsource, htarget⟩
  · intro j hj
    apply decide_eq_false
    rintro ⟨hsource', htarget'⟩
    -- an edge before that would be listed for the same caller, and in front
    have hjoins' : g.edges[j].Joins a x.1.2.id := .inr ⟨hsource', htarget'⟩
    obtain ⟨q, hq, hqedge, hid⟩ := exists_mem_numbered (List.getElem?_eq_getElem (Nat.lt_trans hj hlt))
      (Graph.mem_hopEdges_of_joins hhop hjoins (List.getElem_mem _) hjoins') hjoins'
    have hq_entering : (q, j) ∈ entering selected g a := by
      refine List.mem_filter.2 ⟨hq, decide_eq_true ?_⟩
      rw [hqedge, htarget']
    rcases Walk.eq_or_of_mem_fresh (pairwise_entering selected g a) hx (q, j) hq_entering hid with heq | hgt
    · rw [← heq] at hj
      exact Nat.lt_irrefl _ hj
    · exact Nat.lt_asymm hj hgt

/-- Someone is known to call an id exactly if they are known and have an edge into it. -/
theorem exists_incoming_iff {b : String} :
    (∃ q ∈ (around selected g).incoming selected.id, q.2.id = b) ↔
      b ∈ selected.id :: g.ids ∧ ∃ e ∈ g.edges, e.source = b ∧ e.target = selected.id := by
  have hids : (∃ q ∈ (around selected g).incoming selected.id, q.2.id = b) ↔
      ∃ p ∈ ((around selected g).incoming selected.id).map (fun q => (q.1, q.2.id)), p.2 = b := by
    simp
  rw [hids, around_eq, incoming_ofGraph, edgesAmong_knownIds_around]
  constructor
  · rintro ⟨p, hp, rfl⟩
    obtain ⟨e, he, hep⟩ := List.mem_filterMap.1 hp
    obtain ⟨hmem, hsource, -⟩ := Graph.mem_edgesAmong.1 he
    split at hep
    · rename_i htarget
      obtain rfl := Option.some.inj hep
      exact ⟨hsource, e, hmem, rfl, htarget⟩
    · cases hep
  · rintro ⟨hb, e, he, rfl, htarget⟩
    refine ⟨(e, e.source), List.mem_filterMap.2 ⟨e, Graph.mem_edgesAmong.2 ⟨he, hb, ?_⟩, ?_⟩, rfl⟩
    · rw [htarget]
      exact List.mem_cons_self
    · rw [if_pos htarget]

end Index

/-! ### Callers -/

namespace Node

variable (selected : Entity) (g : Graph)

theorem callers_eq (a : String) :
    callers (Index.around selected g) a =
      (Walk.fresh (fun x => x.1.2.id) [a] (Index.entering selected g a)).map fun x => caller x.1.1 x.1.2 := by
  rw [callers, ← Index.map_fst_entering, List.map_map, Walk.fresh_map]
  rfl

/-- Callers are found in the order of their first edges. -/
theorem pairwise_callers (a : String) :
    (callers (Index.around selected g) a).Pairwise fun m n => g.firstCall m.id a < g.firstCall n.id a := by
  rw [callers_eq, List.pairwise_map]
  refine ((Index.pairwise_entering selected g a).sublist (Walk.fresh_sublist _ _)).imp_of_mem ?_
  intro x y hx hy hxy
  have hx_first := Index.firstCall_of_fresh hx
  have hy_first := Index.firstCall_of_fresh hy
  show g.firstCall x.1.2.id a < g.firstCall y.1.2.id a
  rwa [hx_first, hy_first]

theorem label_of_mem_callers {a : String} {n : Node} (hn : n ∈ callers (Index.around selected g) a) :
    ∃ e, g.edges[g.firstCall n.id a]? = some e ∧ n.relationship = some (e.labelFrom n.id) := by
  rw [callers_eq] at hn
  obtain ⟨x, hx, rfl⟩ := List.mem_map.1 hn
  have hentering := (Walk.fresh_sublist _ _).subset hx
  refine ⟨x.1.1, ?_, rfl⟩
  show g.edges[g.firstCall x.1.2.id a]? = some x.1.1
  rw [Index.firstCall_of_fresh hx]
  exact (Index.mem_numbered (List.mem_filter.1 hentering).1).1

/-- The callers of the selected entity by name are the list described. -/
theorem callers_sorted :
    g.Callers selected (Text.sortOn name (callers (Index.around selected g) selected.id)) where
  once := by
    have hperm := (Text.sortOn_perm name (callers (Index.around selected g) selected.id)).map Node.id
    exact hperm.nodup_iff.2 (Walk.nodup_map_fresh _ _)
  mem_id id := by
    have hperm := (Text.sortOn_perm name (callers (Index.around selected g) selected.id)).map Node.id
    have hincoming : id ∈ ((Index.around selected g).incoming selected.id).map (fun q => q.2.id) ↔
        id ∈ selected.id :: g.ids ∧ ∃ e ∈ g.edges, e.source = id ∧ e.target = selected.id := by
      rw [List.mem_map, Index.exists_incoming_iff]
    rw [hperm.mem_iff, callers, Walk.mem_map_fresh, List.map_map, List.mem_singleton]
    constructor
    · rintro ⟨hmem, hne⟩
      obtain ⟨hknown, hedge⟩ := hincoming.1 hmem
      exact ⟨(List.mem_cons.1 hknown).resolve_left hne, hne, hedge⟩
    · rintro ⟨hknown, hne, hedge⟩
      exact ⟨hincoming.2 ⟨List.mem_cons_of_mem _ hknown, hedge⟩, hne⟩
  entity n hn := by
    obtain ⟨hne, q, hq, rfl⟩ := mem_callers (Text.mem_sortOn.1 hn)
    exact Index.graph_entity?_of_around hne (Index.mem_incoming_around hq).2.2.2
  label n hn := label_of_mem_callers selected g (Text.mem_sortOn.1 hn)
  alone n hn := by
    obtain ⟨-, q, -, rfl⟩ := mem_callers (Text.mem_sortOn.1 hn)
    exact ⟨rfl, rfl, rfl, rfl, rfl⟩
  sorted := Text.pairwise_sortOn_stable (pairwise_callers selected g selected.id)

end Node

/-! ### The tree -/

namespace Tree

variable {selected : Entity} {g : Graph} {maxDepth : ℕ}

/-- Whatever is next to the selected entity is a child of the root, if the tree has any levels. -/
theorem exists_child_of_adj (hdepth : 1 ≤ maxDepth) {id : String}
    (hadj : (g.hopGraph selected).Adj selected.id id) :
    ∃ c ∈ (build selected g maxDepth).root.children, c.id = id ∧ c.depth = 1 := by
  have hone : (g.hopGraph selected).edist selected.id id = 1 := SimpleGraph.edist_eq_one_iff_adj.2 hadj
  have hroot : (build selected g maxDepth).root.id = selected.id := Node.id_assemble _ (Claim.root selected)
  have hmem : id ∈ (build selected g maxDepth).root.preorder.map Node.id := by
    rw [mem_map_id_preorder_build, hone]
    exact Nat.one_le_cast.2 hdepth
  obtain ⟨c, hc, rfl⟩ := List.mem_map.1 hmem
  have htail : c ∈ (build selected g maxDepth).root.preorder.tail := by
    rw [Node.preorder_eq] at hc ⊢
    rcases List.mem_cons.1 hc with rfl | hc
    · exact absurd hroot.symm hadj.ne
    · exact hc
  obtain ⟨p, hp, hcp⟩ := Node.exists_parent_of_mem_tail_preorder htail
  obtain ⟨-, -, -, k, hk, hk', hdepth_c⟩ := claimant_of_mem_children hp hcp
  -- it hangs on a node at distance zero, and only the root is there
  have hzero : k = 0 := by
    rw [hone] at hk'
    have hsucc : (1 : ℕ) = k + 1 := Nat.cast_inj.1 hk'
    omega
  subst hzero
  rw [Nat.cast_zero, SimpleGraph.edist_eq_zero_iff] at hk
  have hp_root : p = (build selected g maxDepth).root := by
    refine List.inj_on_of_nodup_map (nodup_map_id_preorder_build selected g maxDepth) hp ?_ (hk.symm.trans hroot.symm)
    rw [Node.preorder_eq]
    exact List.mem_cons_self
  rw [hp_root] at hcp
  exact ⟨c, hcp, rfl, hdepth_c.trans (Node.depthOfHops_eq (by decide))⟩

/-- **The parents of the root are the callers of the selected entity.**  There is one list that shows them: each
known entity other than the selected one with an edge into it, once, under the label of the first such edge, by name
and among equal names by the places of these edges, collapsed, with nothing hanging on it and at depth `-1`.  Trees
of every depth have this list as the parents of their root, and if the depth is not zero, every parent stands among
the children of the root as well. -/
theorem build_parents (selected : Entity) (g : Graph) :
    ∃ parents, (∀ nodes, g.Callers selected nodes ↔ nodes = parents) ∧
      (∀ maxDepth, (build selected g maxDepth).root.parents = parents) ∧
      ∀ maxDepth, 1 ≤ maxDepth → ∀ n ∈ parents,
        ∃ c ∈ (build selected g maxDepth).root.children, c.id = n.id ∧ c.depth = 1 := by
  have hcallers := Node.callers_sorted selected g
  refine ⟨_, ?_, fun _ => rfl, ?_⟩
  · intro nodes
    constructor
    · intro h
      exact h.unique hcallers
    · rintro rfl
      exact hcallers
  · intro maxDepth hdepth n hn
    obtain ⟨hknown, hne, e, he, hsource, htarget⟩ := (hcallers.mem_id n.id).1 (List.mem_map_of_mem hn)
    have hhop : e ∈ g.hopEdges selected := by
      refine Graph.mem_edgesAmong.2 ⟨he, ?_, ?_⟩
      · rw [hsource]
        exact List.mem_cons_of_mem _ hknown
      · rw [htarget]
        exact List.mem_cons_self
    exact exists_child_of_adj hdepth ⟨hne.symm, e, hhop, .inr ⟨hsource, htarget⟩⟩

/-- A graph seen from `a`, which it does not list: `a` calls itself, `ghost` is unknown, and `b`, an id given twice,
calls `a` under two labels. -/
def crowded : Graph :=
  { nodes := [Entity.plain "b" "function", Entity.plain "c" "class", Entity.plain "b" "class"]
    edges := [Edge.plain "a" "a", Edge.plain "ghost" "a", ⟨"b", "a", some "uses"⟩, Edge.plain "c" "a",
      Edge.plain "b" "a"] }

theorem build_parents_crowded :
    1 ≤ 3 ∧ ∃ n ∈ (build (Entity.plain "a" "function") crowded 3).root.parents,
      n.entity = Entity.plain "b" "function" ∧ n.relationship = some "uses" ∧
      ∃ c ∈ (build (Entity.plain "a" "function") crowded 3).root.children, c.id = "b" ∧ c.depth = 1 := by
  obtain ⟨parents, hcallers, hparents, hchildren⟩ := build_parents (Entity.plain "a" "function") crowded
  have h := (hcallers parents).2 rfl
  have hid : "b" ∈ parents.map Node.id :=
    (h.mem_id "b").2 ⟨by decide, by decide, Edge.plain "b" "a", by decide, rfl, rfl⟩
  obtain ⟨n, hn, hnb⟩ := List.mem_map.1 hid
  have hentity := h.entity n hn
  obtain ⟨e, he, hlabel⟩ := h.label n hn
  obtain ⟨c, hc, hcn, hdepth⟩ := hchildren 3 (by decide) n hn
  rw [hnb] at hentity he hlabel hcn
  have hedge : e = ⟨"b", "a", some "uses"⟩ := (Option.some.inj he).symm
  refine ⟨by decide, n, hparents 3 ▸ hn, (Option.some.inj hentity).symm, ?_, c, hc, hcn, hdepth⟩
  rw [hlabel, hedge]
  decide

end Tree

end CodeAtlas
