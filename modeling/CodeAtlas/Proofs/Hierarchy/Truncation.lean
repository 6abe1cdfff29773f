import CodeAtlas.Proofs.Hierarchy.HopDistance

/-!
# Shallower trees are cut-off trees

Levels are claimed one after the other, so the claims of a shallow walk are the first levels of a deeper one
(`Claim.take_levels`).  Assembly looks at one level at a time, and leaving out the last levels of claims
leaves out the last levels of nodes:

* `Node.truncate k n` — the node with only `k` levels of nodes below it;
* `Node.truncate_assemble` — truncating an assembled node is assembling fewer levels;
* `Node.Levelled k n` — the depths written in the nodes count levels, from `k` at the node itself.  Where
  they do, `Node.withoutDeeper d n`, which only reads the written depths, is a truncation
  (`Levelled.withoutDeeper_add`);
* `Tree.truncate_build` — truncating a built tree is building a shallower one.
-/

namespace CodeAtlas

namespace Claim

/-- The claims of a shallower walk are the first levels of a deeper one. -/
theorem take_levels (index : Index) (selected : Entity) (d maxDepth : ℕ) :
    (levels index selected maxDepth).take d = levels index selected (min d maxDepth) :=
  Walk.take_levels d maxDepth _ _

end Claim

namespace Node

/-! ### Truncation -/

/-- The node with only so many levels of nodes below it. -/
def truncate : (levels : ℕ) → Node → Node
  | 0, n => { n with children := [] }
  | levels + 1, n => { n with children := n.children.map (truncate levels) }

theorem truncate_zero (n : Node) : n.truncate 0 = { n with children := [] } := rfl

theorem truncate_succ (k : ℕ) (n : Node) :
    n.truncate (k + 1) = { n with children := n.children.map (truncate k) } := rfl

@[simp] theorem name_truncate (k : ℕ) (n : Node) : (n.truncate k).name = n.name := by
  cases k <;> rfl

theorem truncate_with_parents (k : ℕ) (n : Node) (parents : List Node) :
    { n with parents := parents }.truncate k = { n.truncate k with parents := parents } := by
  cases k <;> rfl

/-- Names survive truncation, and so does the order of children. -/
theorem map_truncate_sortOn_name (k : ℕ) (l : List Node) :
    (Text.sortOn name l).map (truncate k) = Text.sortOn name (l.map (truncate k)) := by
  rw [Text.sortOn, Text.sortOn]
  apply List.map_mergeSort
  intro a _ b _
  rw [name_truncate, name_truncate]

theorem truncate_leaf (k : ℕ) (c : Claim) : (assemble.leaf c).truncate k = assemble.leaf c := by
  cases k with
  | zero => rw [truncate_zero, assemble.leaf]
  | succ k => rw [truncate_succ, assemble.leaf, List.map_nil]

/-- Truncating an assembled node is assembling fewer levels. -/
theorem truncate_assemble (k : ℕ) (levels : List (List Claim)) (c : Claim) :
    (assemble levels c).truncate k = assemble (levels.take k) c := by
  induction levels generalizing k c with
  | nil => rw [List.take_nil, assemble, truncate_leaf]
  | cons next deeper ih =>
    cases k with
    | zero => rw [truncate_zero, List.take_zero, assemble, assemble, assemble.leaf]
    | succ k =>
      have hdeeper : truncate k ∘ assemble deeper = assemble (deeper.take k) := by
        funext d
        exact ih k d
      rw [truncate_succ, List.take_succ_cons, assemble, assemble]
      simp only [map_truncate_sortOn_name, List.map_map, hdeeper]

/-! ### Depths that count levels -/

/-- The depth of the node is `k`, that of its children `k + 1`, and so on downward. -/
inductive Levelled : Int → Node → Prop where
  | node {k : Int} {n : Node} (depth : n.depth = k) (children : ∀ c ∈ n.children, Levelled (k + 1) c) :
      Levelled k n

theorem Levelled.depth_eq {k : Int} {n : Node} (h : n.Levelled k) : n.depth = k := by
  cases h with
  | node hdepth _ => exact hdepth

theorem Levelled.with_parents {k : Int} {n : Node} (h : n.Levelled k) (parents : List Node) :
    Levelled k { n with parents := parents } := by
  cases h with
  | node hdepth hchildren => exact .node hdepth hchildren

theorem depth_assemble {c : Claim} (h : c.hops < Number.bound31) (levels : List (List Claim)) :
    (assemble levels c).depth = c.hops := by
  rw [← depthOfHops_eq h, ← depth_leaf, ← bare_assemble levels c]
  rfl

/-- Claims that count their hops make a node whose depths count levels, as long as no count is too large
for a depth. -/
theorem levelled_assemble (levels : List (List Claim)) (c : Claim)
    (hhops : ∀ i l, levels[i]? = some l → ∀ d ∈ l, d.hops = c.hops + 1 + i)
    (hbound : ∀ d ∈ c :: levels.flatten, d.hops < Number.bound31) :
    (assemble levels c).Levelled c.hops := by
  induction levels generalizing c with
  | nil =>
    refine .node (depth_assemble (hbound c List.mem_cons_self) []) ?_
    intro d hd
    cases hd
  | cons next deeper ih =>
    refine .node (depth_assemble (hbound c List.mem_cons_self) _) ?_
    intro m hm
    obtain ⟨d, hd, rfl⟩ := List.mem_map.1 ((children_assemble_perm next deeper c).subset hm)
    have hnext : d ∈ next := (List.mem_filter.1 hd).1
    have hd_hops : d.hops = c.hops + 1 := hhops 0 next rfl d hnext
    have hlevelled : (assemble deeper d).Levelled d.hops := by
      apply ih
      · intro i l hl e he
        rw [hhops (i + 1) l hl e he, hd_hops]
        omega
      · intro e he
        apply hbound
        rw [List.flatten_cons]
        rcases List.mem_cons.1 he with rfl | he
        · exact List.mem_cons_of_mem _ (List.mem_append_left _ hnext)
        · exact List.mem_cons_of_mem _ (List.mem_append_right _ he)
    rw [hd_hops] at hlevelled
    exact_mod_cast hlevelled

/-! ### Removing nodes by their depth -/

mutual

/-- The node without the nodes below it that are deeper than `d`, and without what stands below those. -/
def withoutDeeper (d : Int) : Node → Node
  | ⟨entity, depth, relationship, expanded, children, parents, parentId⟩ =>
    { entity, depth, relationship, expanded, parents, parentId
      children := withoutDeeperAll d children }

/-- The nodes of a list that are no deeper than `d`, each without the deeper ones below it. -/
def withoutDeeperAll (d : Int) : List Node → List Node
  | [] => []
  | n :: rest =>
    if n.depth ≤ d then n.withoutDeeper d :: withoutDeeperAll d rest else withoutDeeperAll d rest

end

theorem withoutDeeperAll_eq (d : Int) (l : List Node) :
    withoutDeeperAll d l = (l.filter fun n => n.depth ≤ d).map (withoutDeeper d) := by
  induction l with
  | nil => rfl
  | cons n rest ih =>
    rw [withoutDeeperAll, ih]
    split
    · rename_i h
      rw [List.filter_cons_of_pos (by simpa using h), List.map_cons]
    · rename_i h
      rw [List.filter_cons_of_neg (by simpa using h)]

theorem withoutDeeper_eq (d : Int) (n : Node) :
    n.withoutDeeper d =
      { n with children := (n.children.filter fun c => c.depth ≤ d).map (withoutDeeper d) } := by
  cases n
  rw [withoutDeeper, withoutDeeperAll_eq]

/-- Where depths count levels, removing by depth is truncating. -/
theorem Levelled.withoutDeeper_add {k : Int} {n : Node} (h : n.Levelled k) (j : ℕ) :
    n.withoutDeeper (k + j) = n.truncate j := by
  induction h generalizing j with
  | @node k n _ hchildren ih =>
    rw [withoutDeeper_eq]
    cases j with
    | zero =>
      have hnone : (n.children.filter fun c => decide (c.depth ≤ k + (0 : ℕ))) = [] := by
        rw [List.filter_eq_nil_iff]
        intro c hc
        have := (hchildren c hc).depth_eq
        simp only [decide_eq_true_eq]
        omega
      rw [hnone, truncate_zero, List.map_nil]
    | succ j =>
      have hall : (n.children.filter fun c => decide (c.depth ≤ k + (j + 1 : ℕ))) = n.children := by
        rw [List.filter_eq_self]
        intro c hc
        have := (hchildren c hc).depth_eq
        simp only [decide_eq_true_eq]
        omega
      rw [hall, truncate_succ, show k + (j + 1 : ℕ) = k + 1 + j by push_cast; omega]
      congr 1
      exact List.map_congr_left fun c hc => ih c hc j

end Node

/-! ### Built trees -/

namespace Tree

variable (selected : Entity) (g : Graph)

/-- Building to the lesser of two depths is truncating the tree of either. -/
theorem truncate_build (d maxDepth : ℕ) :
    (build selected g maxDepth).root.truncate d = (build selected g (min d maxDepth)).root := by
  simp only [build, Node.truncate_with_parents, Node.truncate_assemble, Claim.take_levels]

/-- With fewer than `2 ^ 31` entities the depths in a built tree count its levels. -/
theorem levelled_build (hsize : g.nodes.length < Number.bound31) (maxDepth : ℕ) :
    (build selected g maxDepth).root.Levelled 0 := by
  have hassembled := Node.levelled_assemble (Claim.levels (Index.around selected g) selected maxDepth)
    (Claim.root selected)
    (fun i l hl d hd => by
      rw [Claim.hops_of_mem_level hl d hd, show (Claim.root selected).hops = 0 from rfl]
      omega)
    (fun d hd => lt_of_le_of_lt (Claim.hops_le_length_nodes hd) hsize)
  exact hassembled.with_parents _

theorem mem_relationshipTypes_build {maxDepth : ℕ} {label : String} :
    label ∈ (build selected g maxDepth).relationshipTypes ↔
      (∃ c ∈ Claim.table (Index.around selected g) selected maxDepth, c.relationship = some label) ∨
      ∃ n ∈ Node.callers (Index.around selected g) selected.id, n.relationship = some label := by
  simp only [build, Text.mem_distinctSorted, List.mem_append, List.mem_filterMap, Claim.table]

/-- The claims of a shallower walk come first among those of a deeper one. -/
theorem table_prefix {d maxDepth : ℕ} (h : d ≤ maxDepth) :
    Claim.table (Index.around selected g) selected d <+:
      Claim.table (Index.around selected g) selected maxDepth := by
  have htake := Claim.take_levels (Index.around selected g) selected d maxDepth
  rw [Nat.min_eq_left h] at htake
  rw [Claim.table, Claim.table, List.cons_prefix_cons, ← htake]
  refine ⟨rfl, ((Claim.levels (Index.around selected g) selected maxDepth).drop d).flatten, ?_⟩
  rw [← List.flatten_append, List.take_append_drop]

/-- **Building shallower is truncating.**  The tree of a smaller depth is that of a greater one with all
nodes removed that stand more than so many levels below the root, and nothing else changed.  With fewer than
`2 ^ 31` entities these are the nodes with a greater depth written in them.  So a greater depth never loses a
node or a label. -/
theorem build_shallower {d maxDepth : ℕ} (h : d ≤ maxDepth) :
    (build selected g maxDepth).root.truncate d = (build selected g d).root ∧
    (g.nodes.length < Number.bound31 →
      (build selected g maxDepth).root.withoutDeeper d = (build selected g d).root) ∧
    (build selected g d).totalNodes ≤ (build selected g maxDepth).totalNodes ∧
    (build selected g d).relationshipTypes ⊆ (build selected g maxDepth).relationshipTypes := by
  have htruncate : (build selected g maxDepth).root.truncate d = (build selected g d).root := by
    rw [truncate_build, Nat.min_eq_left h]
  have hprefix := table_prefix selected g h
  refine ⟨htruncate, ?_, hprefix.length_le, ?_⟩
  · intro hsize
    have hdepths := (levelled_build selected g hsize maxDepth).withoutDeeper_add d
    rw [Int.zero_add] at hdepths
    rw [hdepths, htruncate]
  · intro label hlabel
    rw [mem_relationshipTypes_build] at hlabel ⊢
    rcases hlabel with ⟨c, hc, hlabel⟩ | hcaller
    · exact Or.inl ⟨c, hprefix.subset hc, hlabel⟩
    · exact Or.inr hcaller

/-- Two of four nodes are cut off. -/
theorem build_shallower_tangled :
    1 ≤ 5 ∧ tangled.nodes.length < Number.bound31 ∧
      (build (Entity.plain "a" "function") tangled 5).root.withoutDeeper 1 =
        (build (Entity.plain "a" "function") tangled 1).root ∧
      (build (Entity.plain "a" "function") tangled 5).totalNodes = 4 ∧
      (build (Entity.plain "a" "function") tangled 1).totalNodes = 2 := by
  refine ⟨by decide, by decide,
    (build_shallower (Entity.plain "a" "function") tangled (by decide)).2.1 (by decide), ?_, ?_⟩
  · rw [totalNodes_build]
    decide
  · rw [totalNodes_build]
    decide

end Tree

end CodeAtlas
