import CodeAtlas.Hierarchy.Build
import Mathlib.Data.List.Nodup
import Mathlib.Data.List.Perm.Basic
import Mathlib.Data.Option.Basic

/-!
# Assembling claims into a tree

Assembly hangs each claim below the one that made it.  It loses no claim and repeats none:
`preorder_assemble_perm` says that the nodes of the tree, each without what hangs below it, are a
rearrangement of the claims.  Two things are needed of the levels, and `Claim.Forest` names them: no two
claims of a level share an id, and every claim was made by one of the level before.
-/

namespace CodeAtlas

namespace Node

/-- The node without the nodes that hang on it. -/
def bare (n : Node) : Node := { n with children := [], parents := [] }

theorem preorderAll_eq (l : List Node) : preorderAll l = l.flatMap preorder := by
  induction l with
  | nil => rfl
  | cons n rest ih => rw [preorderAll, ih, List.flatMap_cons]

theorem preorder_eq (n : Node) : n.preorder = n :: n.children.flatMap preorder := by
  cases n
  rw [preorder, preorderAll_eq]

@[simp] theorem bare_leaf (c : Claim) : (assemble.leaf c).bare = assemble.leaf c := by
  simp only [bare, assemble.leaf]

@[simp] theorem depth_leaf (c : Claim) : (assemble.leaf c).depth = depthOfHops c.hops := by
  rw [assemble.leaf]

/-- A node shows the claim it was assembled from. -/
@[simp] theorem bare_assemble (levels : List (List Claim)) (c : Claim) :
    (assemble levels c).bare = assemble.leaf c := by
  cases levels with
  | nil => exact bare_leaf c
  | cons next deeper => simp only [bare, assemble, assemble.leaf]

/-- The claims of the next level that a claim made. -/
def ownClaims (next : List Claim) (c : Claim) : List Claim :=
  next.filter fun d => d.claimant = some c.id

theorem children_assemble_perm (next : List Claim) (deeper : List (List Claim)) (c : Claim) :
    (assemble (next :: deeper) c).children.Perm ((ownClaims next c).map (assemble deeper)) :=
  Text.sortOn_perm _ _

end Node

/-! ### Levels that form a forest -/

namespace Claim

/-- On each level ids differ, and every claim was made by a claim of the level before. -/
def Forest : (frontier : List Claim) → (levels : List (List Claim)) → Prop
  | _, [] => True
  | frontier, next :: deeper =>
    (frontier.map Claim.id).Nodup ∧ (∀ d ∈ next, ∃ c ∈ frontier, d.claimant = some c.id) ∧
      Forest next deeper

end Claim

/-- Sorting a list into compartments, one for each of some distinct keys, loses nothing if every key
that occurs has a compartment. -/
theorem flatMap_filter_perm {α β : Type} [DecidableEq β] (f : α → β) (keys : List β) (l : List α)
    (hkeys : keys.Nodup) (hl : ∀ x ∈ l, f x ∈ keys) :
    (keys.flatMap fun k => l.filter fun x => f x = k).Perm l := by
  induction keys generalizing l with
  | nil =>
    have hnil : l = [] := List.eq_nil_iff_forall_not_mem.2 fun x hx => by simpa using hl x hx
    rw [hnil]
    rfl
  | cons k keys ih =>
    obtain ⟨hk, hkeys⟩ := List.nodup_cons.1 hkeys
    have hrest : (keys.flatMap fun k' => l.filter fun x => f x = k') =
        keys.flatMap fun k' => (l.filter fun x => f x ≠ k).filter fun x => f x = k' := by
      refine List.flatMap_congr fun k' hk' => ?_
      rw [List.filter_filter]
      refine List.filter_congr fun x _ => ?_
      by_cases hx : f x = k'
      · have hne : k' ≠ k := fun heq => hk (heq ▸ hk')
        simp [hx, hne]
      · simp [hx]
    have hothers : (keys.flatMap fun k' => (l.filter fun x => f x ≠ k).filter fun x => f x = k').Perm
        (l.filter fun x => f x ≠ k) := by
      refine ih _ hkeys fun x hx => ?_
      obtain ⟨hx, hne⟩ := List.mem_filter.1 hx
      exact (List.mem_cons.1 (hl x hx)).resolve_left (by simpa using hne)
    rw [List.flatMap_cons, hrest]
    refine (hothers.append_left _).trans ?_
    simpa using List.filter_append_perm (fun x => decide (f x = k)) l

theorem ownClaims_perm {frontier next : List Claim} (hids : (frontier.map Claim.id).Nodup)
    (hmade : ∀ d ∈ next, ∃ c ∈ frontier, d.claimant = some c.id) :
    (frontier.flatMap (Node.ownClaims next)).Perm next := by
  have hkeys : (frontier.map fun c => some c.id).Nodup := by
    have := List.Nodup.map (Option.some_injective String) hids
    rwa [List.map_map] at this
  have h := flatMap_filter_perm Claim.claimant (frontier.map fun c => some c.id) next hkeys
    fun d hd => by
      obtain ⟨c, hc, hdc⟩ := hmade d hd
      exact List.mem_map.2 ⟨c, hc, hdc.symm⟩
  rwa [List.flatMap_map] at h

namespace Node

/-- The trees below a frontier hold every claim from the frontier on exactly once. -/
theorem preorder_assemble_perm (levels : List (List Claim)) (frontier : List Claim)
    (h : Claim.Forest frontier levels) :
    ((frontier.map (assemble levels)).flatMap preorder |>.map bare).Perm
      ((frontier ++ levels.flatten).map assemble.leaf) := by
  induction levels generalizing frontier with
  | nil =>
    have hleaf : ∀ c, (assemble [] c).preorder = [assemble.leaf c] := by
      intro c
      rw [preorder_eq]
      rfl
    simp [List.flatMap_map, hleaf, ← List.map_eq_flatMap, Function.comp_def]
  | cons next deeper ih =>
    obtain ⟨hids, hmade, hdeeper⟩ := h
    -- what hangs below one claim of the frontier
    have hbelow : ∀ c, ((assemble (next :: deeper) c).children.flatMap preorder |>.map bare).Perm
        (((ownClaims next c).map (assemble deeper)).flatMap preorder |>.map bare) := fun c =>
      ((children_assemble_perm next deeper c).flatMap_right preorder).map bare
    calc ((frontier.map (assemble (next :: deeper))).flatMap preorder |>.map bare)
        = frontier.flatMap fun c => assemble.leaf c ::
            ((assemble (next :: deeper) c).children.flatMap preorder |>.map bare) := by
          rw [List.flatMap_map, List.map_flatMap]
          refine List.flatMap_congr fun c _ => ?_
          rw [preorder_eq, List.map_cons, bare_assemble]
      _ |>.Perm (frontier.map assemble.leaf ++ frontier.flatMap fun c =>
            (((ownClaims next c).map (assemble deeper)).flatMap preorder |>.map bare)) := by
          refine (List.map_append_flatMap_perm _ _ _).symm.trans ?_
          exact (List.Perm.flatMap_left _ fun c _ => hbelow c).append_left _
      _ = frontier.map assemble.leaf ++
            (((frontier.flatMap (ownClaims next)).map (assemble deeper)).flatMap preorder
              |>.map bare) := by
          simp only [List.map_flatMap, List.flatMap_map, List.flatMap_assoc]
      _ |>.Perm (frontier.map assemble.leaf ++ (next ++ deeper.flatten).map assemble.leaf) := by
          refine List.Perm.append_left _ (List.Perm.trans ?_ (ih next hdeeper))
          exact (((ownClaims_perm hids hmade).map _).flatMap_right _).map _
      _ = (frontier ++ (next :: deeper).flatten).map assemble.leaf := by
          rw [List.flatten_cons, ← List.map_append]

end Node

end CodeAtlas
