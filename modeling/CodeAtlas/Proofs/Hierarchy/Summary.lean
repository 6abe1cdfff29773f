import CodeAtlas.Proofs.Hierarchy.Provenance
import CodeAtlas.Proofs.Hierarchy.VisibleDepth

/-!
# The summary of a tree

A built tree says how many nodes it has, how deep it is and which labels it shows; all three are taken from the
claims before the tree is assembled.  The statistics count the assembled tree.  The two agree
(`Tree.build_summary`), because the nodes of the tree are the claims in another order
(`Tree.preorder_build_perm`): no claim is lost in the assembly, none is assembled twice, and no label is kept of
an edge that led to no claim.
-/

namespace CodeAtlas

/-! ### Tallies -/

namespace TreeStats

variable {α : Type} [DecidableEq α]

theorem sum_counts (le : α → α → Bool) (keys : List α) : ((tally le keys).map Prod.snd).sum = keys.length := by
  have hsum := sum_tally le (fun _ => true) keys
  rw [List.filter_eq_self.2 fun _ _ => rfl] at hsum
  rw [hsum, List.countP_true]

theorem count_pos (le : α → α → Bool) (keys : List α) : ∀ e ∈ tally le keys, 0 < e.2 := by
  intro e he
  obtain ⟨k, hk, rfl⟩ := List.mem_map.1 he
  rw [(List.mergeSort_perm _ _).mem_iff, Text.mem_distinct] at hk
  exact List.count_pos_iff.2 hk

theorem map_fst_tally (le : α → α → Bool) (keys : List α) :
    (tally le keys).map Prod.fst = (Text.distinct keys).mergeSort le := by
  rw [tally, List.map_map]
  exact List.map_id _

/-- Keys that are the numbers below a bound are tallied in the order of counting. -/
theorem map_fst_tally_range {keys : List Int} {n : ℕ} (hkeys : ∀ d, d ∈ keys ↔ ∃ k : ℕ, k < n ∧ d = k) :
    (tally (fun a b => decide (a ≤ b)) keys).map Prod.fst = (List.range n).map fun k : ℕ => (k : Int) := by
  rw [map_fst_tally]
  have hsorted : ((Text.distinct keys).mergeSort fun a b => decide (a ≤ b)).Pairwise (· ≤ ·) := by
    refine (List.pairwise_mergeSort ?_ ?_ _).imp of_decide_eq_true
    · intro a b c hab hbc
      exact decide_eq_true (Int.le_trans (of_decide_eq_true hab) (of_decide_eq_true hbc))
    · intro a b
      simp [Int.le_total]
  have hrange : ((List.range n).map fun k : ℕ => (k : Int)).Pairwise (· ≤ ·) := by
    refine List.pairwise_map.2 (List.pairwise_lt_range.imp ?_)
    intro a b hab
    exact Int.ofNat_le.2 (Nat.le_of_lt hab)
  have hnodup : ((List.range n).map fun k : ℕ => (k : Int)).Nodup :=
    List.Nodup.map (fun _ _ h => Int.ofNat.inj h) List.nodup_range
  have hperm : ((Text.distinct keys).mergeSort fun a b => decide (a ≤ b)).Perm
      ((List.range n).map fun k : ℕ => (k : Int)) := by
    refine (List.mergeSort_perm _ _).trans ((List.perm_ext_iff_of_nodup (Text.nodup_distinct keys) hnodup).2 ?_)
    intro d
    rw [Text.mem_distinct, hkeys, List.mem_map]
    constructor
    · rintro ⟨k, hk, hd⟩
      exact ⟨k, List.mem_range.2 hk, hd.symm⟩
    · rintro ⟨k, hk, hd⟩
      exact ⟨k, List.mem_range.1 hk, hd.symm⟩
  exact hperm.eq_of_pairwise (fun a b _ _ => Int.le_antisymm) hsorted hrange

end TreeStats

namespace Tree

variable {selected : Entity} {g : Graph} {maxDepth : ℕ}

/-- Whatever does not look at children or parents is the same on the nodes and on the claims. -/
theorem map_preorder_build_perm {α : Type} {f : Node → α} (hf : ∀ n : Node, f n.bare = f n) (selected : Entity)
    (g : Graph) (maxDepth : ℕ) :
    ((build selected g maxDepth).root.preorder.map f).Perm
      ((Claim.table (Index.around selected g) selected maxDepth).map fun c => f (Node.assemble.leaf c)) := by
  have hperm := (preorder_build_perm selected g maxDepth).map f
  rw [List.map_map, List.map_map, show f ∘ Node.bare = f from funext hf] at hperm
  exact hperm

theorem mem_map_depth_preorder_build (hsize : g.nodes.length < Number.bound31) (d : Int) :
    d ∈ (build selected g maxDepth).root.preorder.map Node.depth ↔
      ∃ k : ℕ, k < (build selected g maxDepth).maxDepth + 1 ∧ d = k := by
  rw [(map_preorder_build_perm (fun n => by rw [Node.bare]) selected g maxDepth).mem_iff, List.mem_map]
  have hdepth : ∀ c ∈ Claim.table (Index.around selected g) selected maxDepth,
      (Node.assemble.leaf c).depth = c.hops := by
    intro c hc
    rw [Node.depth_leaf]
    exact Node.depthOfHops_eq (lt_of_le_of_lt (Claim.hops_le_length_nodes hc) hsize)
  constructor
  · rintro ⟨c, hc, hd⟩
    exact ⟨c.hops, Claim.exists_hops_iff.1 ⟨c, hc, rfl⟩, hd.symm.trans (hdepth c hc)⟩
  · rintro ⟨k, hk, hd⟩
    obtain ⟨c, hc, hhops⟩ := Claim.exists_hops_iff.2 hk
    exact ⟨c, hc, by rw [hdepth c hc, hhops, hd]⟩

/-- A label is kept exactly if a node below the root or a parent of the root shows it. -/
theorem mem_relationshipTypes_iff {label : String} :
    label ∈ (build selected g maxDepth).relationshipTypes ↔
      (∃ n ∈ (build selected g maxDepth).root.preorder.tail, n.relationship = some label) ∨
      ∃ n ∈ (build selected g maxDepth).root.parents, n.relationship = some label := by
  have hperm := map_preorder_build_perm (f := Node.relationship) (fun n => by rw [Node.bare]) selected g maxDepth
  have hroot : (build selected g maxDepth).root.relationship = none :=
    congrArg Node.relationship (Node.bare_assemble _ (Claim.root selected))
  have hclaims : (∃ c ∈ Claim.table (Index.around selected g) selected maxDepth, c.relationship = some label) ↔
      ∃ n ∈ (build selected g maxDepth).root.preorder.tail, n.relationship = some label := by
    have hmem := hperm.mem_iff (a := some label)
    rw [Node.preorder_eq, List.map_cons, List.mem_cons, hroot, or_iff_right (Option.some_ne_none label), List.mem_map,
      List.mem_map] at hmem
    rw [Node.preorder_eq, List.tail_cons, hmem]
    exact Iff.rfl
  have hparents : (∃ n ∈ Node.callers (Index.around selected g) selected.id, n.relationship = some label) ↔
      ∃ n ∈ (build selected g maxDepth).root.parents, n.relationship = some label := by
    simp only [build, Text.mem_sortOn]
  rw [mem_relationshipTypes_build, hclaims, hparents]

/-! ### Nodes shown at first -/

theorem expanded_of_mem_children {n : Node} (hn : n ∈ (build selected g maxDepth).root.children) :
    n.expanded = false := by
  have hroot : (build selected g maxDepth).root ∈ (build selected g maxDepth).root.preorder := by
    rw [Node.preorder_eq]
    exact List.mem_cons_self
  obtain ⟨d, hd, -, hbare⟩ := exists_claim_of_mem_children hroot hn
  obtain ⟨i, l, hl, hdl⟩ := Walk.exists_level_of_mem_flatten hd
  have hhops := Claim.hops_of_mem_level hl d hdl
  have hexpanded : n.expanded = decide (d.hops = 0) := congrArg Node.expanded hbare
  rw [hexpanded, hhops]
  exact decide_eq_false (Nat.succ_ne_zero i)

/-- A built tree shows its root and the children of its root. -/
theorem length_visibleNodes_build (selected : Entity) (g : Graph) (maxDepth : ℕ) :
    (build selected g maxDepth).visibleNodes.length = 1 + (build selected g maxDepth).root.children.length := by
  have hroot : (build selected g maxDepth).root.expanded = true :=
    congrArg Node.expanded (Node.bare_assemble _ (Claim.root selected))
  have hchildren : (build selected g maxDepth).root.children.flatMap Node.visible =
      (build selected g maxDepth).root.children.flatMap fun n => [n] := by
    apply List.flatMap_congr
    intro n hn
    rw [Node.visible_eq, expanded_of_mem_children hn]
    rfl
  rw [visibleNodes, Node.visible_eq, hroot, if_pos rfl, hchildren, List.flatMap_singleton', List.length_cons,
    Nat.add_comm]

/-- **The summary of a tree is that of its nodes.**  With fewer than `2 ^ 31` entities:

* the number of nodes kept with the tree is that of the nodes below and at its root, and the counts by depth and
  by category both add up to it;
* the depths are those from zero to the depth kept with the tree, none without a node, and that depth is within
  the limit asked for;
* the root and its children are shown;
* the labels kept with the tree strictly increase, and are those on nodes below the root and on its parents. -/
theorem build_summary (selected : Entity) (g : Graph) (hsize : g.nodes.length < Number.bound31) (maxDepth : ℕ) :
    let t := build selected g maxDepth
    let s := TreeStats.ofTree t
    (t.totalNodes = t.root.preorder.length ∧ s.totalNodes = t.totalNodes ∧
      (s.nodesByDepth.map Prod.snd).sum = t.totalNodes ∧ (s.nodesByCategory.map Prod.snd).sum = t.totalNodes) ∧
    (s.nodesByDepth.map Prod.fst = (List.range (t.maxDepth + 1)).map (fun k : ℕ => (k : Int)) ∧
      (∀ e ∈ s.nodesByDepth, 0 < e.2) ∧ t.maxDepth ≤ maxDepth) ∧
    s.visibleNodes = 1 + t.root.children.length ∧
    t.relationshipTypes.Pairwise (· < ·) ∧
      ∀ label, label ∈ t.relationshipTypes ↔
        (∃ n ∈ t.root.preorder.tail, n.relationship = some label) ∨
        ∃ n ∈ t.root.parents, n.relationship = some label := by
  intro t s
  have hlength := length_preorder_build selected g maxDepth
  refine ⟨⟨hlength.symm, hlength, ?_, ?_⟩, ⟨?_, ?_, ?_⟩, ?_, ?_, ?_⟩
  · exact (TreeStats.sum_counts _ _).trans ((List.length_map _).trans hlength)
  · exact (TreeStats.sum_counts _ _).trans ((List.length_map _).trans hlength)
  · exact TreeStats.map_fst_tally_range (mem_map_depth_preorder_build hsize)
  · exact TreeStats.count_pos _ _
  · exact Walk.length_levels_le _ _ _
  · exact length_visibleNodes_build selected g maxDepth
  · exact Text.pairwise_distinctSorted _
  · exact fun _ => mem_relationshipTypes_iff

theorem build_summary_tangled :
    tangled.nodes.length < Number.bound31 ∧
      let t := build (Entity.plain "a" "function") tangled 5
      let s := TreeStats.ofTree t
      t.maxDepth = 2 ∧ s.nodesByDepth.map Prod.fst = [0, 1, 2] ∧ t.totalNodes = 4 ∧
        (s.nodesByDepth.map Prod.snd).sum = 4 ∧ (s.nodesByCategory.map Prod.snd).sum = 4 ∧
        s.visibleNodes = 1 + t.root.children.length := by
  have hsize : tangled.nodes.length < Number.bound31 := by decide
  obtain ⟨⟨-, -, hbyDepth, hbyCategory⟩, ⟨hdepths, -, -⟩, hvisible, -⟩ :=
    build_summary (Entity.plain "a" "function") tangled hsize 5
  have hmax : (build (Entity.plain "a" "function") tangled 5).maxDepth = 2 := by
    rw [maxDepth_build]
    decide
  have htotal : (build (Entity.plain "a" "function") tangled 5).totalNodes = 4 := by
    rw [totalNodes_build]
    decide
  rw [hmax] at hdepths
  rw [htotal] at hbyDepth hbyCategory
  exact ⟨hsize, hmax, hdepths, htotal, hbyDepth, hbyCategory, hvisible⟩

end Tree

end CodeAtlas
