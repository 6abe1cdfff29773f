import CodeAtlas.Proofs.Graph.Levels
import CodeAtlas.Proofs.Hierarchy.Assembly

/-!
# Every entity at its hop distance

The tree around a selected entity holds exactly the ids within the given number of hops, each at one
position, and the depth of a node is its hop distance (`Tree.build_mem_iff_hop_distance`).

The claims are looked at first.  Claiming is a level-by-level walk over the hops of the graph
(`Claim.spans_expand`), so the table of claims holds each id within reach once (`Claim.nodup_table`,
`Claim.mem_table_iff`) and with its distance (`Claim.edist_eq_hops`).  Since no level is empty, a hop count
never exceeds the number of entities, and below `2 ^ 31` of them no depth wraps around.  Assembly then
rearranges the table into a tree without losing or repeating a claim.
-/

namespace CodeAtlas

namespace Claim

variable {selected : Entity} {g : Graph} {maxDepth : ℕ}

/-! ### Claiming as a walk -/

theorem mem_candidates {index : Index} {id : String} {q : String × Entity} :
    q ∈ candidates index id ↔ ∃ p ∈ index.touching id, (p.1.labelFrom id, p.2) = q := by
  rw [candidates, (List.mergeSort_perm _ _).mem_iff, List.mem_map]

theorem exists_expand_iff {index : Index} {c : Claim} {b : String} :
    (∃ d ∈ expand index c, d.id = b) ↔ ∃ p ∈ index.touching c.id, p.2.id = b := by
  constructor
  · rintro ⟨d, hd, rfl⟩
    obtain ⟨q, hq, rfl⟩ := List.mem_map.1 hd
    obtain ⟨p, hp, rfl⟩ := mem_candidates.1 hq
    exact ⟨p, hp, rfl⟩
  · rintro ⟨p, hp, rfl⟩
    exact ⟨_, List.mem_map_of_mem (mem_candidates.2 ⟨p, hp, rfl⟩), rfl⟩

/-- An entity claims its neighbours. -/
theorem spans_expand (selected : Entity) (g : Graph) :
    Walk.Spans (g.hopGraph selected) Claim.id (expand (Index.around selected g)) := by
  intro c b hb
  rw [exists_expand_iff]
  exact Index.exists_touching_around_iff hb

theorem claimant_of_mem_expand {index : Index} {c d : Claim} (h : d ∈ expand index c) :
    d.claimant = some c.id := by
  obtain ⟨q, -, rfl⟩ := List.mem_map.1 h
  rfl

theorem hops_of_mem_expand {index : Index} {c d : Claim} (h : d ∈ expand index c) :
    d.hops = c.hops + 1 := by
  obtain ⟨q, -, rfl⟩ := List.mem_map.1 h
  rfl

/-- The levels of a walk that claims form a forest. -/
theorem forest_walk (index : Index) (n : ℕ) (seen : List String) (frontier : List Claim)
    (h : (frontier.map Claim.id).Nodup) :
    Forest frontier (Walk.levels Claim.id (expand index) n seen frontier) := by
  induction n generalizing seen frontier with
  | zero => exact trivial
  | succ n ih =>
    rw [Walk.levels_succ]
    split
    · exact trivial
    · refine ⟨h, ?_, ih _ _ (Walk.nodup_map_fresh _ _)⟩
      intro d hd
      obtain ⟨c, hc, hdc⟩ := Walk.mem_flatMap_of_mem_fresh hd
      exact ⟨c, hc, claimant_of_mem_expand hdc⟩

theorem forest_levels (index : Index) (selected : Entity) (maxDepth : ℕ) :
    Forest [root selected] (levels index selected maxDepth) :=
  forest_walk _ _ _ _ (List.nodup_singleton _)

/-! ### The table of claims -/

theorem id_root (selected : Entity) : (root selected).id = selected.id := rfl

theorem hops_of_mem_level {index : Index} {i : ℕ} {l : List Claim}
    (hl : (levels index selected maxDepth)[i]? = some l) : ∀ c ∈ l, c.hops = i + 1 := by
  intro c hc
  have h := Walk.levels_forall (P := fun k c => c.hops = k)
    (fun k x y hx hy => by rw [hops_of_mem_expand hy, hx]) (k := 0)
    (fun x hx => by rw [List.mem_singleton.1 hx]; rfl) hl c hc
  omega

/-- A claim records the hop distance of its entity. -/
theorem edist_eq_hops {c : Claim} (h : c ∈ table (Index.around selected g) selected maxDepth) :
    (g.hopGraph selected).edist selected.id c.id = c.hops := by
  rcases List.mem_cons.1 h with rfl | h
  · exact SimpleGraph.edist_self
  · obtain ⟨i, l, hl, hc⟩ := Walk.exists_level_of_mem_flatten h
    rw [hops_of_mem_level hl c hc]
    exact (Walk.edist_of_mem_level (spans_expand selected g) (id_root selected) hl).2 c hc

/-- The ids claimed are those within reach. -/
theorem mem_table_iff {id : String} :
    id ∈ (table (Index.around selected g) selected maxDepth).map Claim.id ↔
      (g.hopGraph selected).edist selected.id id ≤ maxDepth :=
  Walk.mem_cons_levels_iff (spans_expand selected g) (id_root selected)

theorem nodup_table (index : Index) (selected : Entity) (maxDepth : ℕ) :
    ((table index selected maxDepth).map Claim.id).Nodup := by
  rw [table, List.map_cons, List.nodup_cons]
  exact ⟨Walk.not_mem_flatten_levels _ _ _ _ _, (Walk.nodup_levels _ _ _ _ _).1⟩

/-- No distance is skipped. -/
theorem exists_hops_iff {index : Index} {k : ℕ} :
    (∃ c ∈ table index selected maxDepth, c.hops = k) ↔ k < (levels index selected maxDepth).length + 1 := by
  constructor
  · rintro ⟨c, hc, hhops⟩
    rcases List.mem_cons.1 hc with rfl | hc
    · exact hhops ▸ Nat.zero_lt_succ _
    · obtain ⟨i, l, hl, hcl⟩ := Walk.exists_level_of_mem_flatten hc
      obtain ⟨hi, -⟩ := List.getElem?_eq_some_iff.1 hl
      rw [hops_of_mem_level hl c hcl] at hhops
      omega
  · intro hk
    cases k with
    | zero => exact ⟨root selected, List.mem_cons_self, rfl⟩
    | succ i =>
      -- no level is empty
      have hi : i < (levels index selected maxDepth).length := Nat.lt_of_succ_lt_succ hk
      obtain ⟨c, hc⟩ := List.exists_mem_of_ne_nil _ (Walk.ne_nil_of_mem_levels (List.getElem_mem hi))
      refine ⟨c, List.mem_cons_of_mem _ (List.mem_flatten.2 ⟨_, List.getElem_mem hi, hc⟩), ?_⟩
      exact hops_of_mem_level (List.getElem?_eq_getElem hi) c hc

/-! ### Depths do not wrap around -/

theorem length_le_length_flatten {α : Type} {ls : List (List α)} (h : ∀ l ∈ ls, l ≠ []) :
    ls.length ≤ ls.flatten.length := by
  induction ls with
  | nil => exact Nat.le_refl _
  | cons l ls ih =>
    have hl : 0 < l.length := List.length_pos_iff.2 (h l List.mem_cons_self)
    have hls := ih fun l' hl' => h l' (List.mem_cons_of_mem _ hl')
    rw [List.flatten_cons, List.length_append, List.length_cons]
    omega

/-- Only known ids are claimed. -/
theorem map_id_table_subset (selected : Entity) (g : Graph) (maxDepth : ℕ) :
    (table (Index.around selected g) selected maxDepth).map Claim.id ⊆ selected.id :: g.ids := by
  intro id hid
  obtain ⟨c, hc, rfl⟩ := List.mem_map.1 hid
  have hdist := edist_eq_hops (g := g) hc
  cases hk : c.hops with
  | zero =>
    rw [hk] at hdist
    rw [← SimpleGraph.edist_eq_zero_iff.1 hdist]
    exact List.mem_cons_self
  | succ k =>
    rw [hk] at hdist
    obtain ⟨a, -, hadj⟩ := exists_adj_of_edist_eq_succ hdist
    exact Graph.mem_of_hopGraph_adj hadj

/-- Every level takes an entity of the graph, so there are no more levels than entities. -/
theorem hops_le_length_nodes {c : Claim}
    (h : c ∈ table (Index.around selected g) selected maxDepth) : c.hops ≤ g.nodes.length := by
  rcases List.mem_cons.1 h with rfl | hc
  · exact Nat.zero_le _
  · obtain ⟨i, l, hl, hcl⟩ := Walk.exists_level_of_mem_flatten hc
    obtain ⟨hi, -⟩ := List.getElem?_eq_some_iff.1 hl
    have hlevels : (levels (Index.around selected g) selected maxDepth).length ≤
        (levels (Index.around selected g) selected maxDepth).flatten.length :=
      length_le_length_flatten fun l hl => Walk.ne_nil_of_mem_levels hl
    have hids : ((table (Index.around selected g) selected maxDepth).map Claim.id).length ≤
        (selected.id :: g.ids).length :=
      ((nodup_table _ _ _).subperm (map_id_table_subset selected g maxDepth)).length_le
    rw [List.length_map, table, List.length_cons, List.length_cons, Graph.ids, List.length_map] at hids
    rw [hops_of_mem_level hl c hcl]
    omega

end Claim

namespace Node

theorem depthOfHops_eq {hops : ℕ} (h : hops < Number.bound31) : depthOfHops hops = hops := by
  unfold depthOfHops
  unfold Number.bound31 at h ⊢
  apply Int.bmod_eq_of_le_mul_two <;> omega

end Node

/-! ### The tree -/

/-- The nodes assembled from all claims are the claims, in another order. -/
theorem Claim.preorder_assemble_perm (index : Index) (selected : Entity) (maxDepth : ℕ) :
    ((Node.assemble (levels index selected maxDepth) (root selected)).preorder.map Node.bare).Perm
      ((table index selected maxDepth).map Node.assemble.leaf) := by
  have h := Node.preorder_assemble_perm _ _ (forest_levels index selected maxDepth)
  rwa [List.map_singleton, List.flatMap_singleton] at h

namespace Tree

/-- The nodes of a built tree are the claims, in another order. -/
theorem preorder_build_perm (selected : Entity) (g : Graph) (maxDepth : ℕ) :
    ((build selected g maxDepth).root.preorder.map Node.bare).Perm
      ((Claim.table (Index.around selected g) selected maxDepth).map Node.assemble.leaf) := by
  have h := Claim.preorder_assemble_perm (Index.around selected g) selected maxDepth
  rw [Node.preorder_eq] at h ⊢
  exact h

theorem length_preorder_build (selected : Entity) (g : Graph) (maxDepth : ℕ) :
    (build selected g maxDepth).root.preorder.length = (build selected g maxDepth).totalNodes := by
  have hlength := (preorder_build_perm selected g maxDepth).length_eq
  rw [List.length_map, List.length_map] at hlength
  exact hlength

theorem exists_claim_of_mem_preorder {selected : Entity} {g : Graph} {maxDepth : ℕ} {n : Node}
    (h : n ∈ (build selected g maxDepth).root.preorder) :
    ∃ c ∈ Claim.table (Index.around selected g) selected maxDepth, n.bare = Node.assemble.leaf c := by
  have hbare := (preorder_build_perm selected g maxDepth).subset (List.mem_map_of_mem h)
  obtain ⟨c, hc, hn⟩ := List.mem_map.1 hbare
  exact ⟨c, hc, hn.symm⟩

theorem map_id_preorder_build_perm (selected : Entity) (g : Graph) (maxDepth : ℕ) :
    ((build selected g maxDepth).root.preorder.map Node.id).Perm
      ((Claim.table (Index.around selected g) selected maxDepth).map Claim.id) := by
  have h := (preorder_build_perm selected g maxDepth).map Node.id
  rw [List.map_map, List.map_map] at h
  exact h

theorem mem_map_id_preorder_build {selected : Entity} {g : Graph} {maxDepth : ℕ} {id : String} :
    id ∈ (build selected g maxDepth).root.preorder.map Node.id ↔
      (g.hopGraph selected).edist selected.id id ≤ maxDepth :=
  (map_id_preorder_build_perm selected g maxDepth).mem_iff.trans Claim.mem_table_iff

theorem nodup_map_id_preorder_build (selected : Entity) (g : Graph) (maxDepth : ℕ) :
    ((build selected g maxDepth).root.preorder.map Node.id).Nodup :=
  (map_id_preorder_build_perm selected g maxDepth).nodup_iff.2 (Claim.nodup_table _ _ _)

/-- A tree is as deep as there are rings of ids around the selected one. -/
theorem maxDepth_build (selected : Entity) (g : Graph) (maxDepth : ℕ) :
    (build selected g maxDepth).maxDepth = (g.rings selected maxDepth).length :=
  Walk.length_levels_eq (Claim.spans_expand selected g) (Graph.spans_neighbourIds g selected)
    (Claim.id_root selected) rfl maxDepth

/-- A tree has a node for each id in the rings, and one for the selected id. -/
theorem totalNodes_build (selected : Entity) (g : Graph) (maxDepth : ℕ) :
    (build selected g maxDepth).totalNodes = (g.rings selected maxDepth).flatten.length + 1 := by
  have hperm : ((Claim.table (Index.around selected g) selected maxDepth).map Claim.id).Perm
      (selected.id :: (g.rings selected maxDepth).flatten) := by
    refine (List.perm_ext_iff_of_nodup (Claim.nodup_table _ _ _) (Graph.nodup_rings g selected maxDepth)).2 ?_
    intro id
    rw [Claim.mem_table_iff, Graph.mem_rings_iff]
  have h := hperm.length_eq
  rwa [List.length_map] at h

/-- **The tree is the ball of its depth.**  Its ids are those within `maxDepth` hops of the selected one,
each at one position of the tree.  With fewer than `2 ^ 31` entities the depth of a node is its hop
distance. -/
theorem build_mem_iff_hop_distance (selected : Entity) (g : Graph) (maxDepth : ℕ) :
    (∀ id, id ∈ (build selected g maxDepth).root.preorder.map Node.id ↔
      (g.hopGraph selected).edist selected.id id ≤ maxDepth) ∧
    ((build selected g maxDepth).root.preorder.map Node.id).Nodup ∧
    (g.nodes.length < Number.bound31 → ∀ n ∈ (build selected g maxDepth).root.preorder,
      ∃ k : ℕ, (g.hopGraph selected).edist selected.id n.id = k ∧ n.depth = k) := by
  refine ⟨fun id => mem_map_id_preorder_build, nodup_map_id_preorder_build selected g maxDepth, ?_⟩
  intro hsize n hn
  obtain ⟨c, hc, hnc⟩ := exists_claim_of_mem_preorder hn
  have hid : n.id = c.id := congrArg Node.id hnc
  have hdepth : n.depth = Node.depthOfHops c.hops := by
    rw [← Node.depth_leaf, ← hnc]
    rfl
  refine ⟨c.hops, ?_, ?_⟩
  · rw [hid]
    exact Claim.edist_eq_hops hc
  · rw [hdepth]
    exact Node.depthOfHops_eq (lt_of_le_of_lt (Claim.hops_le_length_nodes hc) hsize)

/-- A graph with a cycle, parallel edges, a loop, a dangling edge and an id given twice, seen from an
entity that it does not list.  Two of its entities are two hops away from there. -/
def tangled : Graph :=
  { nodes := [{ Entity.plain "b" "function" with file := some "src/main", code := some "0" },
      Entity.plain "c" "class", Entity.plain "b" "class",
      { Entity.plain "d" "function" with file := some "src/main", code := some "a()" }]
    edges := [Edge.plain "a" "b", Edge.plain "b" "c", Edge.plain "c" "d", Edge.plain "d" "b",
      Edge.plain "a" "b", Edge.plain "c" "c", Edge.plain "c" "ghost"] }

/-- The last entity is in the tree of depth five, two levels below the root, and not in that of depth one. -/
theorem build_mem_iff_hop_distance_tangled :
    tangled.nodes.length < Number.bound31 ∧
      (∀ n ∈ (build (Entity.plain "a" "function") tangled 5).root.preorder,
        ∃ k : ℕ, (tangled.hopGraph (Entity.plain "a" "function")).edist "a" n.id = k ∧ n.depth = k) ∧
      (∃ n ∈ (build (Entity.plain "a" "function") tangled 5).root.preorder, n.id = "d" ∧ n.depth = 2) ∧
      "d" ∉ (build (Entity.plain "a" "function") tangled 1).root.preorder.map Node.id := by
  have hsize : tangled.nodes.length < Number.bound31 := by decide
  have h := build_mem_iff_hop_distance (Entity.plain "a" "function") tangled 5
  have hnear : (tangled.hopGraph (Entity.plain "a" "function")).edist "a" "d" ≤ (2 : ℕ) :=
    Graph.mem_rings_iff.1 (by decide)
  have hfar : ¬(tangled.hopGraph (Entity.plain "a" "function")).edist "a" "d" ≤ (1 : ℕ) :=
    fun hd => absurd (Graph.mem_rings_iff.2 hd) (by decide)
  refine ⟨hsize, h.2.2 hsize, ?_, fun hd => hfar (((build_mem_iff_hop_distance _ _ _).1 "d").1 hd)⟩
  obtain ⟨n, hn, hid⟩ := List.mem_map.1 ((h.1 "d").2 (Graph.mem_rings_iff.1 (by decide)))
  obtain ⟨k, hdist, hdepth⟩ := h.2.2 hsize n hn
  have hk : (tangled.hopGraph (Entity.plain "a" "function")).edist "a" "d" = k := hid ▸ hdist
  rw [hk, Nat.cast_le] at hnear hfar
  exact ⟨n, hn, hid, by omega⟩

end Tree

end CodeAtlas
