import CodeAtlas.Hierarchy.Stats
import CodeAtlas.Proofs.Hierarchy.Position
import CodeAtlas.Proofs.Hierarchy.Truncation
import Mathlib.Algebra.BigOperators.Group.List.Lemmas

/-!
# What expanding to a depth shows

Expanding a tree to depth `d` raises the flags of the nodes above depth `d`, so the nodes at depth `d` are
the last ones shown.  Two other ways to get at the same nodes are compared with it here:

* building the tree no deeper than `d` in the first place (`Levelled.visible_setExpanded`, together with
  `Tree.truncate_build`);
* counting the nodes by depth and adding up the counts down to `d` (`TreeStats.sum_tally` and
  `Levelled.countP_preorder`).

All three agree wherever depths count levels (`Node.Levelled`), and `Tree.visible_expandToDepth_build` says so
of every built tree.
-/

namespace CodeAtlas

namespace Node

/-- What a listing says about a node: id, name, depth, relationship and the id it hangs on. -/
def listed (n : Node) : String × String × Int × Option String × Option String :=
  (n.id, n.name, n.depth, n.relationship, n.parentId)

theorem visibleAll_eq (l : List Node) : visibleAll l = l.flatMap visible := by
  induction l with
  | nil => rfl
  | cons n rest ih => rw [visibleAll, ih, List.flatMap_cons]

theorem visible_eq (n : Node) :
    n.visible = n :: if n.expanded then n.children.flatMap visible else [] := by
  cases n
  rw [visible, visibleAll_eq]

theorem listed_setExpanded (f : Node → Bool) (n : Node) : (n.setExpanded f).listed = n.listed := by
  rw [setExpanded_eq]
  rfl

theorem listed_truncate (k : ℕ) (n : Node) : (n.truncate k).listed = n.listed := by
  cases k <;> rfl

/-- Flags do not change which nodes there are. -/
theorem map_listed_preorder_setExpanded (f : Node → Bool) (n : Node) :
    (n.setExpanded f).preorder.map listed = n.preorder.map listed := by
  induction n using below_induction with
  | step n ih =>
  have hchildren : (n.setExpanded f).children = n.children.map (setExpanded f) := by
    rw [setExpanded_eq]
  rw [preorder_eq, preorder_eq n, List.map_cons, List.map_cons, listed_setExpanded, hchildren,
    List.flatMap_map, List.map_flatMap, List.map_flatMap]
  congr 1
  refine List.flatMap_congr fun c hc => ?_
  obtain ⟨i, hi⟩ := List.mem_iff_getElem?.1 hc
  exact ih (.child i) c hi

/-! ### Visible nodes and levels -/

/-- Where depths count levels, expanding to a depth shows what truncating there leaves. -/
theorem Levelled.visible_setExpanded {k : Int} {n : Node} (h : n.Levelled k) (d : Int) :
    (n.setExpanded fun c => c.depth < d).visible.map listed =
      (n.truncate (d - k).toNat).preorder.map listed := by
  induction h with
  | @node k n hdepth _ ih =>
    have hexpanded : (n.setExpanded fun c => c.depth < d).expanded = decide (k < d) := by
      rw [setExpanded_eq, ← hdepth]
    have hchildren : (n.setExpanded fun c => c.depth < d).children =
        n.children.map (setExpanded fun c => c.depth < d) := by
      rw [setExpanded_eq]
    rw [visible_eq, hexpanded, hchildren, preorder_eq, List.map_cons, List.map_cons, listed_setExpanded,
      listed_truncate]
    congr 1
    by_cases hk : k < d
    · obtain ⟨j, hj⟩ : ∃ j : ℕ, (d - k).toNat = j + 1 := ⟨(d - (k + 1)).toNat, by omega⟩
      have hj' : (d - (k + 1)).toNat = j := by omega
      rw [if_pos (by simpa using hk), hj, truncate_succ, List.flatMap_map, List.flatMap_map,
        List.map_flatMap, List.map_flatMap]
      refine List.flatMap_congr fun c hc => ?_
      have hc' := ih c hc
      rwa [hj'] at hc'
    · have hzero : (d - k).toNat = 0 := by omega
      rw [if_neg (by simpa using hk), hzero, truncate_zero]
      rfl

/-- No node stands above the one it hangs below. -/
theorem Levelled.le_depth {k : Int} {n : Node} (h : n.Levelled k) : ∀ m ∈ n.preorder, k ≤ m.depth := by
  induction h with
  | @node k n hdepth _ ih =>
    intro m hm
    rw [preorder_eq] at hm
    rcases List.mem_cons.1 hm with rfl | hm
    · exact hdepth.ge
    · obtain ⟨c, hc, hmc⟩ := List.mem_flatMap.1 hm
      have := ih c hc m hmc
      omega

/-- Where depths count levels, truncating leaves as many nodes as have a depth down to there. -/
theorem Levelled.countP_preorder {k : Int} {n : Node} (h : n.Levelled k) (j : ℕ) :
    n.preorder.countP (fun m => m.depth ≤ k + j) = (n.truncate j).preorder.length := by
  induction h generalizing j with
  | @node k n hdepth hchildren ih =>
    rw [preorder_eq, preorder_eq (n.truncate j), List.length_cons,
      List.countP_cons_of_pos (by simp only [hdepth, decide_eq_true_eq]; omega), List.countP_flatMap,
      List.length_flatMap]
    congr 1
    cases j with
    | zero =>
      -- everything below the node is deeper than it
      have hnone : ∀ c ∈ n.children, c.preorder.countP (fun m => m.depth ≤ k + (0 : ℕ)) = 0 := by
        intro c hc
        rw [List.countP_eq_zero]
        intro m hm
        have := (hchildren c hc).le_depth m hm
        simp only [decide_eq_true_eq]
        omega
      rw [truncate_zero, List.map_nil, List.sum_nil]
      apply List.sum_eq_zero
      intro x hx
      obtain ⟨c, hc, rfl⟩ := List.mem_map.1 hx
      exact hnone c hc
    | succ j =>
      rw [truncate_succ, List.map_map]
      congr 1
      refine List.map_congr_left fun c hc => ?_
      have hc' := ih c hc j
      rwa [show k + 1 + (j : Int) = k + (j + 1 : ℕ) by push_cast; omega] at hc'

end Node

/-! ### Counts by depth -/

namespace TreeStats

/-- The number of nodes at depths from zero to `d`, added up from the counts by depth. -/
def nodesDownTo (s : TreeStats) (d : Int) : ℕ :=
  ((s.nodesByDepth.filter fun e => 0 ≤ e.1 ∧ e.1 ≤ d).map Prod.snd).sum

/-- Adding up the tallies of some keys counts the occurrences of these keys. -/
theorem sum_tally {α : Type} [DecidableEq α] (le : α → α → Bool) (p : α → Bool) (keys : List α) :
    (((tally le keys).filter fun e => p e.1).map Prod.snd).sum = keys.countP p := by
  have hperm : ((Text.distinct keys).mergeSort le).Perm keys.dedup :=
    (List.mergeSort_perm _ _).trans <|
      (List.perm_ext_iff_of_nodup (Text.nodup_distinct keys) keys.nodup_dedup).2 fun a => by
        rw [Text.mem_distinct, List.mem_dedup]
  have htally : ((tally le keys).filter fun e => p e.1).map Prod.snd =
      (((Text.distinct keys).mergeSort le).filter p).map fun a => keys.count a := by
    rw [tally, List.filter_map, List.map_map]
    rfl
  rw [htally, ((hperm.filter p).map _).sum_eq, List.sum_map_count_dedup_filter_eq_countP]

theorem nodesDownTo_ofTree {t : Tree} (h : t.root.Levelled 0) (j : ℕ) :
    (ofTree t).nodesDownTo j = (t.root.truncate j).preorder.length := by
  have hcount := h.countP_preorder j
  rw [Int.zero_add] at hcount
  have hsum := sum_tally (fun a b => decide (a ≤ b)) (fun a : Int => decide (0 ≤ a ∧ a ≤ j))
    (t.root.preorder.map Node.depth)
  rw [← hcount, nodesDownTo, ofTree]
  refine hsum.trans ?_
  rw [List.countP_map]
  refine List.countP_congr fun m hm => ?_
  have := h.le_depth m hm
  simp only [Function.comp_apply, decide_eq_true_eq]
  omega

/-- Expansion does not change the counts by depth. -/
theorem nodesByDepth_expandToDepth (t : Tree) (d : Int) :
    (ofTree (t.expandToDepth d)).nodesByDepth = (ofTree t).nodesByDepth := by
  have hdepths : (t.expandToDepth d).root.preorder.map Node.depth = t.root.preorder.map Node.depth := by
    have h := congrArg (List.map fun l => l.2.2.1)
      (Node.map_listed_preorder_setExpanded (fun n => decide (n.depth < d)) t.root)
    rw [List.map_map, List.map_map] at h
    exact h
  rw [ofTree, ofTree]
  simp only [hdepths]

end TreeStats

namespace Tree

/-- **Expanding to a depth shows what building to that depth builds.**  With fewer than `2 ^ 31` entities, the
nodes shown after expanding to depth `d` are, one by one, those of the tree built to depth `d`, where a
negative depth counts as zero.  They are as many as the counts by depth say down to there, whether these
are taken before or after the expansion. -/
theorem visible_expandToDepth_build (selected : Entity) (g : Graph)
    (hsize : g.nodes.length < Number.bound31) (maxDepth : ℕ) (d : Int) :
    let built := build selected g maxDepth
    let shown := (built.expandToDepth d).visibleNodes
    shown.map Node.listed =
        (build selected g (min maxDepth (max d 0).toNat)).root.preorder.map Node.listed ∧
      shown.length = (TreeStats.ofTree built).nodesDownTo (max d 0) ∧
      shown.length = (TreeStats.ofTree (built.expandToDepth d)).nodesDownTo (max d 0) := by
  intro built shown
  have hlevelled : built.root.Levelled 0 := levelled_build selected g hsize maxDepth
  have hmax : max d 0 = ((max d 0).toNat : Int) := by omega
  have hshown : shown.map Node.listed = (built.root.truncate (max d 0).toNat).preorder.map Node.listed := by
    have h := hlevelled.visible_setExpanded d
    rwa [show (d - 0).toNat = (max d 0).toNat by omega] at h
  have hlength : shown.length = (TreeStats.ofTree built).nodesDownTo (max d 0) := by
    rw [hmax, TreeStats.nodesDownTo_ofTree hlevelled, ← List.length_map Node.listed, hshown,
      List.length_map]
  refine ⟨?_, hlength, ?_⟩
  · rw [hshown, truncate_build, Nat.min_comm]
  · rw [hlength, TreeStats.nodesDownTo, TreeStats.nodesDownTo, TreeStats.nodesByDepth_expandToDepth]

/-- Two of four nodes are shown. -/
theorem visible_expandToDepth_build_tangled :
    tangled.nodes.length < Number.bound31 ∧
      let built := build (Entity.plain "a" "function") tangled 5
      let shown := (built.expandToDepth 1).visibleNodes
      shown.map Node.listed = (build (Entity.plain "a" "function") tangled 1).root.preorder.map Node.listed ∧
        shown.length = (TreeStats.ofTree built).nodesDownTo 1 ∧
        shown.length = (TreeStats.ofTree (built.expandToDepth 1)).nodesDownTo 1 ∧
        shown.length = 2 ∧ built.totalNodes = 4 := by
  obtain ⟨hshown, hlength, hlength'⟩ :=
    visible_expandToDepth_build (Entity.plain "a" "function") tangled (by decide) 5 1
  refine ⟨by decide, hshown, hlength, hlength', ?_, ?_⟩
  · have hcount := congrArg List.length hshown
    rw [List.length_map, List.length_map, length_preorder_build, totalNodes_build] at hcount
    exact hcount
  · rw [totalNodes_build]
    decide

end Tree

end CodeAtlas
