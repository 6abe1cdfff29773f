import CodeAtlas.Proofs.Filter.Restrict
import CodeAtlas.Proofs.Graph.Hop

/-!
# The bridges of a filter are the first detours

A filter that bridges lays one bridge for each pair of kept ids that a detour connects, over the first
detour of the pair.  "First" is said without the search: the kept entities are taken in the order of the
graph, the detours of each in the lexicographic order of the positions of their edges, and of the paths
with one pair of ends only the first is left (`Graph.filterByCategory_bridges_eq`).

* `Bridge.firstPerPair_eq` — the pairs that the search remembers leave what `List.eraseDupsBy` leaves;
* `Graph.map_path_bridges_restrict` — so it is for any restriction of a graph.
-/

namespace CodeAtlas

open PlacedEdge

/-! ### Leaving out what has equal ends -/

/-- Leaving out repetitions commutes with a map that neither makes nor breaks any. -/
theorem eraseDupsBy_map {α β : Type} (f : α → β) (r : α → α → Bool) (q : β → β → Bool) (l : List α)
    (h : ∀ x ∈ l, ∀ y ∈ l, q (f x) (f y) = r x y) :
    (l.map f).eraseDupsBy q = (l.eraseDupsBy r).map f := by
  match l with
  | [] => rfl
  | x :: l =>
    have hfilter : (l.map f).filter (fun b => q b (f x) = false) =
        (l.filter fun y => r y x = false).map f := by
      rw [List.filter_map]
      congr 1
      refine List.filter_congr fun y hy => ?_
      rw [Function.comp_apply, h y (List.mem_cons_of_mem _ hy) x List.mem_cons_self]
    rw [List.map_cons, List.eraseDupsBy_cons, List.eraseDupsBy_cons, List.map_cons, hfilter]
    rw [eraseDupsBy_map f r q (l.filter fun y => r y x = false)]
    intro y hy z hz
    exact h y (List.mem_cons_of_mem _ (List.mem_filter.1 hy).1) z
      (List.mem_cons_of_mem _ (List.mem_filter.1 hz).1)
termination_by l.length
decreasing_by exact Nat.lt_succ_of_le (List.length_filter_le _ _)

/-- Two paths lead from the same id to the same id. -/
def sameEnds (p q : List String) : Bool :=
  p.head? == q.head? && p.getLast? == q.getLast?

namespace Bridge

/-- Remembering the pairs met so far leaves the first bridge of every other pair. -/
theorem firstPerPair_eq (seen : List (String × String)) (l : List Bridge) :
    between.firstPerPair seen l =
      (l.filter fun b => b.ends ∉ seen).eraseDupsBy fun b c => b.ends == c.ends := by
  induction l generalizing seen with
  | nil => rfl
  | cons b rest ih =>
    rw [firstPerPair_cons]
    by_cases hseen : b.ends ∈ seen
    · rw [if_pos hseen, ih, List.filter_cons_of_neg (by simpa using hseen)]
    · rw [if_neg hseen, ih, List.filter_cons_of_pos (by simpa using hseen), List.eraseDupsBy_cons,
        List.filter_filter]
      congr 2
      refine List.filter_congr fun c _ => ?_
      by_cases hcb : c.ends = b.ends
      · simp [hcb]
      · simp [hcb]

theorem sameEnds_overPath {p q : List String} (hp : p ≠ []) (hq : q ≠ []) :
    ((overPath p).ends == (overPath q).ends) = sameEnds p q := by
  obtain ⟨a, p', rfl⟩ := List.exists_cons_of_ne_nil hp
  obtain ⟨b, q', rfl⟩ := List.exists_cons_of_ne_nil hq
  simp only [ends, overPath, sameEnds, List.headD_cons, List.head?_cons, List.getLastD_cons,
    List.getLast?_cons]
  rw [Bool.eq_iff_iff]
  simp

end Bridge

namespace Graph

/-- Over all detours of the kept entities, of the paths with equal ends only the first is bridged. -/
theorem map_path_bridges_restrict (g : Graph) (keep : Entity → Bool) :
    (g.restrict keep true).bridges.map Bridge.path =
      (((g.nodes.filter keep).map Entity.id).flatMap fun a =>
        (g.detourWays (g.keeps keep) a).map fun t => a :: targets t).eraseDupsBy sameEnds := by
  rw [bridges_restrict, Bridge.firstPerPair_eq, List.filter_eq_self.2 fun b _ => by simp]
  generalize hpaths : (((g.nodes.filter keep).map Entity.id).flatMap fun a =>
    (g.detourWays (g.keeps keep) a).map fun t => a :: targets t) = paths
  have hne : ∀ p ∈ paths, p ≠ [] := by
    intro p hp
    rw [← hpaths] at hp
    obtain ⟨a, -, hp⟩ := List.mem_flatMap.1 hp
    obtain ⟨t, -, rfl⟩ := List.mem_map.1 hp
    exact List.cons_ne_nil _ _
  rw [eraseDupsBy_map Bridge.overPath sameEnds _ _ fun p hp q hq =>
    Bridge.sameEnds_overPath (hne p hp) (hne q hq), List.map_map]
  exact List.map_id _

/-- **The bridges are the first detours.**  The detours from an id are all there are, in the lexicographic
order of the positions of their edges.  The bridges run over the detours of the kept entities, taken in
the order of the graph, and of the paths with equal ends only over the first.  A bridge stands for a path of
three or four different ids and names its ends, what lies between them and how much that is. -/
theorem filterByCategory_bridges_eq (g : Graph) (options : FilterOptions)
    (hactive : options.active = true) (hskip : options.skipHidden = true) :
    (∀ a, (∀ t, t ∈ g.detourWays (g.keeps options.allows) a ↔ g.IsDetour (g.keeps options.allows) a t) ∧
      (g.detourWays (g.keeps options.allows) a).Pairwise
        fun t u => t.map Prod.snd < u.map Prod.snd) ∧
    (g.filterByCategory options).bridges.map Bridge.path =
      ((g.nodes.filter options.allows).flatMap fun e =>
        (g.detourWays (g.keeps options.allows) e.id).map fun t => e.id :: targets t).eraseDupsBy
          sameEnds ∧
    ∀ b ∈ (g.filterByCategory options).bridges,
      (b.path.length = 3 ∨ b.path.length = 4) ∧ b.path.Nodup ∧
        b.path = b.source :: (b.skipped ++ [b.target]) ∧
        b.relationship = "remapped_" ++ toString b.skipped.length ++ "_hops" := by
  refine ⟨fun a => ⟨fun t => mem_detourWays, pairwise_detourWays g _ a⟩, ?_, ?_⟩
  · rw [bridges_filterByCategory hactive hskip, map_path_bridges_restrict, List.flatMap_map]
  · intro b hb
    rw [bridges_filterByCategory hactive hskip] at hb
    obtain ⟨-, t, ht, -, hb⟩ := exists_isDetour_of_mem_bridges hb
    obtain ⟨mid, z, hpath, -, -, hlen⟩ := ht.path_eq
    have hsimple := ht.simple
    rw [hpath] at hb hsimple
    rw [Bridge.overPath_ends] at hb
    rw [hb]
    refine ⟨?_, hsimple, rfl, rfl⟩
    simp only [List.length_cons, List.length_append, List.length_nil]
    omega

/-- Two ways from `A` to `D`, the longer one first, with an edge given twice and an id with two
categories. -/
def twoWays : Graph :=
  { nodes := [Entity.plain "A" "function", Entity.plain "B" "internal", Entity.plain "C" "internal",
      Entity.plain "D" "function", Entity.plain "X" "internal", Entity.plain "D" "internal"]
    edges := [Edge.plain "A" "C", Edge.plain "C" "X", Edge.plain "A" "B", Edge.plain "X" "D",
      Edge.plain "B" "D", Edge.plain "A" "C"] }

theorem filterByCategory_bridges_eq_twoWays :
    (FilterOptions.only "function").active = true ∧
      (FilterOptions.only "function").skipHidden = true ∧
      (twoWays.filterByCategory (FilterOptions.only "function")).bridges.map Bridge.path =
        [["A", "C", "X", "D"]] :=
  ⟨rfl, rfl, (filterByCategory_bridges_eq twoWays (FilterOptions.only "function") rfl rfl).2.1.trans
    (by decide +kernel)⟩

end Graph

end CodeAtlas
