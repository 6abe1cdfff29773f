import CodeAtlas.Proofs.Filter.Restrict
import CodeAtlas.Proofs.Graph.Hop

/-!
# Bridges beside direct edges

A bridge may join two ids that an edge joins already.  The search for detours never asks for such an edge:
whether a pair is bridged depends on its detours alone, and taking all edges between kept ids out of the
graph leaves every bridge in place (`Graph.filterByCategory_bridges_beside_edges`).  A pair with both ends
up with two edges in the filtered graph, its own and that of the bridge.

The reason is that an edge between kept ids is no part of a detour.  At the start of a search such an edge
makes a path of one edge, which is left out, and farther on the search stands at hidden ids only
(`Bridge.detours_withoutDirect`).
-/

namespace CodeAtlas

open PlacedEdge

/-- What contributes nothing can be left out. -/
theorem flatMap_filter_of_nil {α β : Type} {f : α → List β} {keep : α → Bool} {l : List α}
    (h : ∀ x ∈ l, keep x = false → f x = []) : (l.filter keep).flatMap f = l.flatMap f := by
  induction l with
  | nil => rfl
  | cons x l ih =>
    have hrest := ih fun y hy => h y (List.mem_cons_of_mem _ hy)
    cases hx : keep x with
    | true => rw [List.filter_cons_of_pos hx, List.flatMap_cons, List.flatMap_cons, hrest]
    | false =>
      rw [List.filter_cons_of_neg (by simp [hx]), List.flatMap_cons, h x List.mem_cons_self hx, hrest,
        List.nil_append]

namespace Graph

variable {g : Graph} {kept : String → Bool}

/-- The graph without the edges between kept ids. -/
def withoutDirect (g : Graph) (kept : String → Bool) : Graph :=
  { g with edges := g.edges.filter fun e => !(kept e.source && kept e.target) }

theorem edgesAmong_withoutDirect (ids : List String) :
    (g.withoutDirect kept).edgesAmong ids =
      (g.edgesAmong ids).filter fun e => !(kept e.source && kept e.target) := by
  rw [edgesAmong, edgesAmong, withoutDirect, List.filter_filter, List.filter_filter]
  simp only [Bool.and_comm]

end Graph

namespace Bridge

/-- From a start, or from a hidden id later on, the search does not see the edges between kept ids. -/
theorem detours_withoutDirect (g : Graph) (kept : String → Bool) (hops : ℕ) (path : List String)
    (last : String) (h : path.length < 2 ∨ kept last = false) :
    detours (Index.ofGraph (g.withoutDirect kept) none) kept hops path last =
      detours (Index.ofGraph g none) kept hops path last := by
  induction hops generalizing path last with
  | zero => rfl
  | succ hops ih =>
    rw [detours_succ, detours_succ]
    show ((g.withoutDirect kept).edgesAmong g.ids).flatMap _ = _
    rw [Graph.edgesAmong_withoutDirect]
    refine Eq.trans (List.flatMap_congr fun e _ => ?_) (flatMap_filter_of_nil ?_)
    · -- the search goes on at hidden ids only
      cases hkept : kept e.target with
      | true => rfl
      | false => rw [ih (path ++ [e.target]) e.target (Or.inr hkept)]
    · -- an edge between kept ids leaves `last` only at the start, where it is too short a path
      intro e _ hdirect
      obtain ⟨hsource, htarget⟩ : kept e.source = true ∧ kept e.target = true := by
        simpa using hdirect
      by_cases hlast : e.source = last
      · have hshort : path.length < 2 := by
          refine h.resolve_right ?_
          rw [← hlast, hsource]
          simp
        simp [htarget, hshort]
      · rw [if_neg hlast]

end Bridge

namespace Graph

theorem bridges_withoutDirect (g : Graph) (keep : Entity → Bool) :
    ((g.withoutDirect (g.keeps keep)).restrict keep true).bridges = (g.restrict keep true).bridges := by
  show Bridge.between (Index.ofGraph (g.withoutDirect (g.keeps keep)) none) (g.keeps keep)
      ((g.nodes.filter keep).map Entity.id) =
    Bridge.between (Index.ofGraph g none) (g.keeps keep) ((g.nodes.filter keep).map Entity.id)
  have hdetours : ∀ a, Bridge.detours (Index.ofGraph (g.withoutDirect (g.keeps keep)) none) (g.keeps keep)
      Bridge.maxHops [a] a = Bridge.detours (Index.ofGraph g none) (g.keeps keep) Bridge.maxHops [a] a := by
    intro a
    exact Bridge.detours_withoutDirect g (g.keeps keep) Bridge.maxHops [a] a (Or.inl (by simp))
  rw [Bridge.between, Bridge.between]
  simp only [hdetours]

/-- **Bridging is blind to direct edges.**  A pair of ids is bridged exactly if a detour leads from the one
to the other.  Without the edges between kept ids the bridges are the same.  Where an edge joins the ends
of a bridge already, the filtered graph has both. -/
theorem filterByCategory_bridges_beside_edges (g : Graph) (options : FilterOptions)
    (hactive : options.active = true) (hskip : options.skipHidden = true) :
    (∀ s z, (∃ b ∈ (g.filterByCategory options).bridges, b.source = s ∧ b.target = z) ↔
      g.keeps options.allows s = true ∧
        ∃ t, g.IsDetour (g.keeps options.allows) s t ∧ (targets t).getLast? = some z) ∧
    ((g.withoutDirect (g.keeps options.allows)).filterByCategory options).bridges =
      (g.filterByCategory options).bridges ∧
    ∀ b ∈ (g.filterByCategory options).bridges, ∀ e ∈ g.edges,
      e.source = b.source → e.target = b.target →
        e ∈ (g.filterByCategory options).graph.edges ∧
          b.edge ∈ (g.filterByCategory options).graph.edges := by
  refine ⟨?_, ?_, ?_⟩
  · intro s z
    rw [bridges_filterByCategory hactive hskip]
    exact exists_bridge_iff
  · rw [bridges_filterByCategory hactive hskip, bridges_filterByCategory hactive hskip]
    exact bridges_withoutDirect g _
  · intro b hb e he hsource htarget
    rw [filterByCategory_eq hactive, hskip] at hb ⊢
    obtain ⟨hs, t, ht, hz, -⟩ := exists_isDetour_of_mem_bridges hb
    obtain ⟨z, hz', hkept⟩ := ht.reaches
    obtain rfl : b.target = z := Option.some.inj (hz.symm.trans hz')
    rw [edges_restrict]
    refine ⟨List.mem_append_left _ (List.mem_filter.2 ⟨he, ?_⟩),
      List.mem_append_right _ (List.mem_map_of_mem hb)⟩
    rw [hsource, htarget, hs, hkept]
    rfl

/-- `A` reaches `D` over `B` and also directly. -/
def shortcut : Graph :=
  { nodes := [Entity.plain "A" "function", Entity.plain "B" "internal", Entity.plain "D" "function"]
    edges := [Edge.plain "A" "B", Edge.plain "B" "D", Edge.plain "A" "D"] }

theorem filterByCategory_bridges_beside_edges_shortcut :
    (FilterOptions.only "function").active = true ∧
      (FilterOptions.only "function").skipHidden = true ∧
      Bridge.overPath ["A", "B", "D"] ∈
        (shortcut.filterByCategory (FilterOptions.only "function")).bridges ∧
      Edge.plain "A" "D" ∈ (shortcut.filterByCategory (FilterOptions.only "function")).graph.edges := by
  have hbridge : Bridge.overPath ["A", "B", "D"] ∈
      (shortcut.filterByCategory (FilterOptions.only "function")).bridges := by decide +kernel
  have hboth := (filterByCategory_bridges_beside_edges shortcut (FilterOptions.only "function") rfl
    rfl).2.2 _ hbridge (Edge.plain "A" "D") (by decide) rfl rfl
  exact ⟨rfl, rfl, hbridge, hboth.1⟩

/-- A bridge is laid between ids that an edge joins. -/
theorem filterByCategory_bridges_joined_pair :
    (FilterOptions.only "function").active = true ∧
      (FilterOptions.only "function").skipHidden = true ∧
      ∃ b ∈ (shortcut.filterByCategory (FilterOptions.only "function")).bridges,
        b.edge ∈ (shortcut.filterByCategory (FilterOptions.only "function")).graph.edges ∧
          ∃ e ∈ shortcut.edges, e.source = b.source ∧ e.target = b.target := by
  refine ⟨rfl, rfl, Bridge.overPath ["A", "B", "D"], ?_, ?_, Edge.plain "A" "D", ?_, rfl, rfl⟩
  · decide +kernel
  · decide +kernel
  · decide

end Graph

end CodeAtlas
