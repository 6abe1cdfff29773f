import CodeAtlas.Proofs.Hierarchy.HopDistance

/-!
# Where the nodes of a tree come from

A tree is built from the links of an index.  This file follows each node back to the link that put it there.

* `Index.mem_touching_around`, `Index.mem_incoming_around` — a link listed by the index is an edge of the
  graph, and the entity with it is known;
* `Tree.exists_touching_of_mem_children` — a child hangs below a node because of an edge at that node, seen
  under the child's label;
* `Tree.exists_incoming_of_mem_parents` — a parent of the root has an edge into it;
* `Tree.build_congr_links` — nothing but the links counts, so edges that resolve to none can be dropped;
* `Tree.build_eq_alone` — where no edge touches the selected entity, the tree is its root.
-/

namespace CodeAtlas

namespace Index

variable {selected : Entity} {g : Graph} {a : String} {q : Edge × Entity}

/-! ### Links of the index -/

theorem touching_congr {index index' : Index} (h : index.links = index'.links) (a : String) :
    index.touching a = index'.touching a := by
  rw [touching, touching, h]

theorem incoming_congr {index index' : Index} (h : index.links = index'.links) (a : String) :
    index.incoming a = index'.incoming a := by
  rw [incoming, incoming, h]

/-- Where nothing touches an id, nothing enters it. -/
theorem incoming_eq_nil {index : Index} (h : index.touching a = []) : index.incoming a = [] := by
  rw [touching, List.filterMap_eq_nil_iff] at h
  rw [incoming, List.filterMap_eq_nil_iff]
  intro l hl
  by_cases ht : l.edge.target = a
  · have hl := h l hl
    by_cases hs : l.edge.source = a
    · simp [hs] at hl
    · simp [hs, ht] at hl
  · rw [if_neg ht]

theorem mem_touching_around (h : q ∈ (around selected g).touching a) :
    q.1 ∈ g.edges ∧ q.1.Joins a q.2.id ∧ (around selected g).entity? q.2.id = some q.2 := by
  have hids : (q.1, q.2.id) ∈ ((around selected g).touching a).map fun p => (p.1, p.2.id) :=
    List.mem_map_of_mem h
  rw [touching_around] at hids
  obtain ⟨e, he, hq⟩ := List.mem_filterMap.1 hids
  obtain ⟨b, hb, heq⟩ := Option.map_eq_some_iff.1 hq
  obtain ⟨rfl, rfl⟩ := Prod.mk.inj heq
  exact ⟨(Graph.mem_edgesAmong.1 he).1, Edge.otherEnd?_eq_some_iff.1 hb, entity?_of_touching h⟩

theorem mem_incoming_around (h : q ∈ (around selected g).incoming a) :
    q.1 ∈ g.edges ∧ q.1.source = q.2.id ∧ q.1.target = a ∧
      (around selected g).entity? q.2.id = some q.2 := by
  have hids : (q.1, q.2.id) ∈ ((around selected g).incoming a).map fun p => (p.1, p.2.id) :=
    List.mem_map_of_mem h
  rw [around_eq, incoming_ofGraph] at hids
  obtain ⟨e, he, hq⟩ := List.mem_filterMap.1 hids
  split at hq
  · rename_i ht
    obtain ⟨rfl, hs⟩ := Prod.mk.inj (Option.some.inj hq)
    exact ⟨(Graph.mem_edgesAmong.1 he).1, hs, ht, entity?_of_incoming h⟩
  · cases hq

/-- Edges that resolve to no link can be left out of the graph. -/
theorem links_filter_edges (g : Graph) (extra : Option Entity) (keep : Edge → Bool)
    (h : ∀ e ∈ g.edges, keep e = false →
      ¬(e.source ∈ knownIds g extra ∧ e.target ∈ knownIds g extra)) :
    (ofGraph { g with edges := g.edges.filter keep } extra).links = (ofGraph g extra).links := by
  show (g.edges.filter keep).filterMap (resolve (ofGraph g extra).entities) =
    g.edges.filterMap (resolve (ofGraph g extra).entities)
  rw [List.filterMap_filter]
  refine List.filterMap_congr fun e he => ?_
  cases hk : keep e with
  | true => rfl
  | false =>
    rcases resolve_cases g extra e with ⟨s, t, -, -, -, hs, ht⟩ | ⟨hnone, -⟩
    · exact absurd ⟨hs, ht⟩ (h e he hk)
    · simp [hnone]

end Index

/-! ### Claims -/

namespace Claim

/-- The claim is on the entity across an edge at the id, under the label that the edge has from there. -/
def Made (index : Index) (a : String) (d : Claim) : Prop :=
  ∃ q ∈ index.touching a, d.entity = q.2 ∧ d.relationship = some (q.1.labelFrom a)

theorem made_of_mem_expand {index : Index} {c d : Claim} (h : d ∈ expand index c) :
    d.Made index c.id := by
  obtain ⟨q, hq, rfl⟩ := List.mem_map.1 h
  obtain ⟨p, hp, rfl⟩ := mem_candidates.1 hq
  exact ⟨p, hp, rfl, rfl⟩

/-- Every claim below the root was made by its claimant. -/
theorem made_of_mem_levels {index : Index} {selected : Entity} {maxDepth : ℕ} {d : Claim}
    (h : d ∈ (levels index selected maxDepth).flatten) :
    ∃ a, d.claimant = some a ∧ d.Made index a := by
  rw [levels, Walk.flatten_levels] at h
  obtain ⟨c, -, hd⟩ := Walk.mem_flatMap_of_mem_fresh h
  exact ⟨c.id, claimant_of_mem_expand hd, made_of_mem_expand hd⟩

theorem expand_congr_links {index index' : Index} (h : index.links = index'.links) :
    expand index = expand index' := by
  funext c
  rw [expand, expand, candidates, candidates, Index.touching_congr h]

theorem levels_eq_nil {index : Index} {selected : Entity} (h : index.touching selected.id = [])
    (maxDepth : ℕ) : levels index selected maxDepth = [] := by
  have hexpand : expand index (root selected) = [] := by
    simp [expand, candidates, id_root, h]
  cases maxDepth with
  | zero => rfl
  | succ n => rw [levels, Walk.levels_succ, List.flatMap_singleton, hexpand, Walk.fresh, if_pos rfl]

end Claim

/-! ### Children and parents of nodes -/

namespace Node

theorem mem_children_assemble {next : List Claim} {deeper : List (List Claim)} {c : Claim} {n : Node}
    (h : n ∈ (assemble (next :: deeper) c).children) :
    ∃ d ∈ next, d.claimant = some c.id ∧ n = assemble deeper d := by
  have hperm := (children_assemble_perm next deeper c).subset h
  obtain ⟨d, hd, rfl⟩ := List.mem_map.1 hperm
  obtain ⟨hmem, hclaimant⟩ := List.mem_filter.1 hd
  exact ⟨d, hmem, by simpa using hclaimant, rfl⟩

theorem id_assemble (levels : List (List Claim)) (c : Claim) : (assemble levels c).id = c.id :=
  congrArg Node.id (bare_assemble levels c)

/-- Below a claim, a child shows a claim that was made by the node it hangs on. -/
theorem exists_claim_of_mem_children {levels : List (List Claim)} {c : Claim} {p n : Node}
    (hp : p ∈ (assemble levels c).preorder) (hn : n ∈ p.children) :
    ∃ d ∈ levels.flatten, d.claimant = some p.id ∧ n.bare = assemble.leaf d := by
  induction levels generalizing c with
  | nil =>
    have hleaf : (assemble [] c).children = [] := rfl
    rw [preorder_eq, hleaf, List.flatMap_nil, List.mem_singleton] at hp
    rw [hp, hleaf] at hn
    cases hn
  | cons next deeper ih =>
    rw [preorder_eq] at hp
    rcases List.mem_cons.1 hp with rfl | hp
    · obtain ⟨d, hd, hclaimant, rfl⟩ := mem_children_assemble hn
      rw [id_assemble]
      exact ⟨d, List.mem_append_left _ hd, hclaimant, bare_assemble deeper d⟩
    · obtain ⟨m, hm, hpm⟩ := List.mem_flatMap.1 hp
      obtain ⟨d, -, -, rfl⟩ := mem_children_assemble hm
      obtain ⟨d', hd', hclaimant, hbare⟩ := ih hpm
      exact ⟨d', List.mem_append_right _ hd', hclaimant, hbare⟩

theorem mem_callers {index : Index} {id : String} {n : Node} (h : n ∈ callers index id) :
    n.id ≠ id ∧ ∃ q ∈ index.incoming id, n = caller q.1 q.2 := by
  constructor
  · have hkey := (Walk.mem_map_fresh.1 (List.mem_map_of_mem h)).2
    simpa using hkey
  · obtain ⟨q, hq, rfl⟩ := List.mem_map.1 ((Walk.fresh_sublist _ _).subset h)
    exact ⟨q, hq, rfl⟩

end Node

namespace Tree

variable {selected : Entity} {g g' : Graph} {maxDepth : ℕ} {n p : Node}

/-- The root of a built tree differs from the assembled one in its parents only. -/
theorem exists_assembled_of_mem_preorder (hp : p ∈ (build selected g maxDepth).root.preorder) :
    ∃ p' ∈ (Node.assemble (Claim.levels (Index.around selected g) selected maxDepth)
      (Claim.root selected)).preorder, p'.id = p.id ∧ p'.children = p.children := by
  rw [Node.preorder_eq] at hp
  rw [Node.preorder_eq]
  rcases List.mem_cons.1 hp with rfl | hp
  · exact ⟨_, List.mem_cons_self, rfl, rfl⟩
  · exact ⟨p, List.mem_cons_of_mem _ hp, rfl, rfl⟩

/-- The claim that a child shows. -/
theorem exists_claim_of_mem_children (hp : p ∈ (build selected g maxDepth).root.preorder) (hn : n ∈ p.children) :
    ∃ d ∈ (Claim.levels (Index.around selected g) selected maxDepth).flatten,
      d.claimant = some p.id ∧ n.bare = Node.assemble.leaf d := by
  obtain ⟨p', hp', hid, hchildren⟩ := exists_assembled_of_mem_preorder hp
  rw [← hid]
  exact Node.exists_claim_of_mem_children hp' (hchildren ▸ hn)

/-- The edge that a child hangs on. -/
theorem exists_touching_of_mem_children (hp : p ∈ (build selected g maxDepth).root.preorder)
    (hn : n ∈ p.children) :
    ∃ q ∈ (Index.around selected g).touching p.id,
      n.entity = q.2 ∧ n.relationship = some (q.1.labelFrom p.id) := by
  obtain ⟨d, hd, hclaimant, hbare⟩ := exists_claim_of_mem_children hp hn
  obtain ⟨a, ha, q, hq, hentity, hlabel⟩ := Claim.made_of_mem_levels hd
  obtain rfl : a = p.id := Option.some.inj (ha.symm.trans hclaimant)
  have hn_entity : n.entity = d.entity := congrArg Node.entity hbare
  have hn_label : n.relationship = d.relationship := congrArg Node.relationship hbare
  exact ⟨q, hq, hn_entity.trans hentity, hn_label.trans hlabel⟩

/-- The edge that a parent of the root has into it. -/
theorem exists_incoming_of_mem_parents (hn : n ∈ (build selected g maxDepth).root.parents) :
    n.id ≠ selected.id ∧ ∃ q ∈ (Index.around selected g).incoming selected.id,
      n.entity = q.2 ∧ n.relationship = some (q.1.labelFrom n.id) := by
  obtain ⟨hid, q, hq, rfl⟩ := Node.mem_callers (Text.mem_sortOn.1 hn)
  exact ⟨hid, q, hq, rfl, rfl⟩

/-- The root stands before all other nodes, and none of them has its id. -/
theorem id_ne_of_mem_tail_preorder (hn : n ∈ (build selected g maxDepth).root.preorder.tail) :
    n.id ≠ selected.id := by
  have hnodup := nodup_map_id_preorder_build selected g maxDepth
  have hroot : (build selected g maxDepth).root.id = selected.id := Node.id_assemble _ (Claim.root selected)
  rw [Node.preorder_eq, List.map_cons, List.nodup_cons, hroot] at hnodup
  rw [Node.preorder_eq, List.tail_cons] at hn
  intro hid
  exact hnodup.1 (hid ▸ List.mem_map_of_mem hn)

/-- The entity of a node other than the root is the one known under its id. -/
theorem entity?_of_mem_tail_preorder (hn : n ∈ (build selected g maxDepth).root.preorder.tail) :
    (Index.around selected g).entity? n.id = some n.entity := by
  have hne := id_ne_of_mem_tail_preorder hn
  obtain ⟨c, hc, hbare⟩ := exists_claim_of_mem_preorder (List.mem_of_mem_tail hn)
  have hentity : n.entity = c.entity := congrArg Node.entity hbare
  rcases List.mem_cons.1 hc with rfl | hc
  · exact absurd (congrArg Entity.id hentity) hne
  · obtain ⟨a, -, q, hq, hq', -⟩ := Claim.made_of_mem_levels hc
    rw [Node.id, hentity, hq']
    exact (Index.mem_touching_around hq).2.2

/-- A tree is built from links alone. -/
theorem build_congr_links (h : (Index.around selected g).links = (Index.around selected g').links) :
    build selected g maxDepth = build selected g' maxDepth := by
  have hlevels : Claim.levels (Index.around selected g) selected maxDepth =
      Claim.levels (Index.around selected g') selected maxDepth := by
    rw [Claim.levels, Claim.levels, Claim.expand_congr_links h]
  have hcallers : Node.callers (Index.around selected g) selected.id =
      Node.callers (Index.around selected g') selected.id := by
    rw [Node.callers, Node.callers, Index.incoming_congr h]
  rw [build, build, hlevels, hcallers]

/-- The tree of an entity without neighbours. -/
def alone (selected : Entity) : Tree :=
  { root :=
      { entity := selected
        depth := 0
        relationship := none
        expanded := true
        children := []
        parents := []
        parentId := none }
    totalNodes := 1
    maxDepth := 0
    relationshipTypes := []
    filterStats := none
    bridges := none }

theorem build_eq_alone (h : (Index.around selected g).touching selected.id = []) (maxDepth : ℕ) :
    build selected g maxDepth = alone selected := by
  have hcallers : Node.callers (Index.around selected g) selected.id = [] := by
    rw [Node.callers, Index.incoming_eq_nil h]
    rfl
  have hdepth : Node.depthOfHops 0 = 0 := Node.depthOfHops_eq (by decide)
  rw [build, Claim.levels_eq_nil h, hcallers]
  simp [alone, Node.assemble, Node.assemble.leaf, Claim.root, hdepth, Text.sortOn, Text.distinctSorted,
    Text.distinct]

end Tree

end CodeAtlas
