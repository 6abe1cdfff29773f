import CodeAtlas.Proofs.Graph.Resolved
import Mathlib.Combinatorics.SimpleGraph.Metric

/-!
# Hops and hop distance

A *hop* leads over one resolved edge, in either direction, from one id to another.  Hops make the ids
into an undirected graph `g.hopGraph selected`, and the distance between two ids is the distance in that
graph: the length of a shortest walk, or `⊤` where there is none.  An edge from an id to itself is no hop;
it could not shorten a walk.

* `Index.touching_around` — the index around a selected entity lists, by ids, the hops of an id;
* `edist_eq_succ_iff` — an id is `k + 1` hops away exactly when it is next to one that is `k` hops away
  and is not within `k` hops itself.  This is the only fact about distances that a level-by-level walk
  needs.
-/

namespace CodeAtlas

/-- An entity of which only the id and the category are recorded. -/
def Entity.plain (id category : String) : Entity :=
  { id, name := id, file := none, code := none, category, startLine := none, endLine := none }

/-- An edge without a label. -/
def Edge.plain (source target : String) : Edge :=
  { source, target, relationship := none }

namespace Graph

/-- The edges that a walk from the selected entity may use: both ends are ids of the graph or the
selected id. -/
def hopEdges (g : Graph) (selected : Entity) : List Edge :=
  g.edgesAmong (selected.id :: g.ids)

/-- The ids, with a hop between two of them wherever an edge joins them. -/
def hopGraph (g : Graph) (selected : Entity) : SimpleGraph String where
  Adj a b := a ≠ b ∧ ∃ e ∈ g.hopEdges selected, e.Joins a b
  symm := ⟨fun _ _ ⟨hne, e, he, hj⟩ => ⟨hne.symm, e, he, hj.symm⟩⟩
  loopless := ⟨fun _ h => h.1 rfl⟩

theorem hopGraph_adj {g : Graph} {selected : Entity} {a b : String} :
    (g.hopGraph selected).Adj a b ↔ a ≠ b ∧ ∃ e ∈ g.hopEdges selected, e.Joins a b :=
  Iff.rfl

/-- The ends of a hop are known. -/
theorem mem_of_hopGraph_adj {g : Graph} {selected : Entity} {a b : String}
    (h : (g.hopGraph selected).Adj a b) : b ∈ selected.id :: g.ids := by
  obtain ⟨-, e, he, hj⟩ := h
  obtain ⟨-, hs, ht⟩ := mem_edgesAmong.1 he
  rcases hj with ⟨-, hb⟩ | ⟨hb, -⟩
  · exact hb ▸ ht
  · exact hb ▸ hs

end Graph

/-! ### The index around a selected entity -/

namespace Index

/-- The entity that `around` adds to those of the graph. -/
def extraFor (selected : Entity) (g : Graph) : Option Entity :=
  if (g.entity? selected.id).isSome then none else some selected

theorem around_eq (selected : Entity) (g : Graph) :
    around selected g = ofGraph g (extraFor selected g) := rfl

theorem mem_knownIds_around {selected : Entity} {g : Graph} {id : String} :
    id ∈ knownIds g (extraFor selected g) ↔ id ∈ selected.id :: g.ids := by
  by_cases h : (g.entity? selected.id).isSome
  · have hmem := Graph.entity?_isSome_iff.1 h
    simp only [knownIds, extraFor, if_pos h, Option.toList_none, List.append_nil, List.mem_cons]
    constructor
    · exact Or.inr
    · rintro (rfl | hid)
      · exact hmem
      · exact hid
  · simp [knownIds, extraFor, if_neg h, Graph.ids, or_comm]

theorem edgesAmong_knownIds_around (selected : Entity) (g : Graph) :
    g.edgesAmong (knownIds g (extraFor selected g)) = g.hopEdges selected :=
  Graph.edgesAmong_congr fun _ => mem_knownIds_around

/-- What touches an id, as seen from the selected entity: the edges of the hops from there, in graph
order, with the ids they lead to. -/
theorem touching_around (selected : Entity) (g : Graph) (a : String) :
    ((around selected g).touching a).map (fun p => (p.1, p.2.id)) =
      (g.hopEdges selected).filterMap fun e => (e.otherEnd? a).map fun b => (e, b) := by
  rw [around_eq, touching_ofGraph, edgesAmong_knownIds_around]

/-- Leading to another id, what touches an id is exactly its hops. -/
theorem exists_touching_around_iff {selected : Entity} {g : Graph} {a b : String} (h : b ≠ a) :
    (∃ p ∈ (around selected g).touching a, p.2.id = b) ↔ (g.hopGraph selected).Adj a b := by
  have hids : (∃ p ∈ (around selected g).touching a, p.2.id = b) ↔
      ∃ q ∈ ((around selected g).touching a).map (fun p => (p.1, p.2.id)), q.2 = b := by
    simp
  rw [hids, touching_around, Graph.hopGraph_adj]
  constructor
  · rintro ⟨q, hq, rfl⟩
    obtain ⟨e, he, hqe⟩ := List.mem_filterMap.1 hq
    obtain ⟨b, hb, rfl⟩ := Option.map_eq_some_iff.1 hqe
    exact ⟨h.symm, e, he, Edge.otherEnd?_eq_some_iff.1 hb⟩
  · rintro ⟨-, e, he, hj⟩
    refine ⟨(e, b), List.mem_filterMap.2 ⟨e, he, ?_⟩, rfl⟩
    rw [Edge.otherEnd?_eq_some_iff.2 hj]
    rfl

/-- Under an id other than the selected one the graph itself has the entity. -/
theorem graph_entity?_of_around {selected : Entity} {g : Graph} {e : Entity} (hne : e.id ≠ selected.id)
    (h : (around selected g).entity? e.id = some e) : g.entity? e.id = some e := by
  rw [around_eq, entity?, ofGraph, lookUp_firstPerId, List.find?_append] at h
  rw [Graph.entity?]
  cases hg : g.nodes.find? fun x => decide (x.id = e.id) with
  | some x =>
    rw [hg] at h
    exact h
  | none =>
    rw [hg, Option.none_or] at h
    have hmem := List.mem_of_find?_eq_some h
    rw [Option.mem_toList, extraFor] at hmem
    split at hmem
    · cases hmem
    · cases hmem
      exact absurd rfl hne

end Index

/-! ### Distances, one hop at a time -/

section Distance

variable {V : Type} {G : SimpleGraph V} {s a b : V}

theorem edist_le_succ_of_adj {k : ℕ} (ha : G.edist s a ≤ k) (h : G.Adj a b) :
    G.edist s b ≤ (k + 1 : ℕ) := by
  calc G.edist s b ≤ G.edist s a + G.edist a b := SimpleGraph.edist_triangle
    _ ≤ (k + 1 : ℕ) := by
        rw [SimpleGraph.edist_eq_one_iff_adj.2 h]
        push_cast
        gcongr

/-- The last step of a shortest walk. -/
theorem exists_adj_of_edist_eq_succ {k : ℕ} (h : G.edist s b = (k + 1 : ℕ)) :
    ∃ a, G.edist s a = k ∧ G.Adj a b := by
  obtain ⟨w, hw⟩ := SimpleGraph.exists_walk_of_edist_eq_coe h
  have hnil : ¬w.Nil := by
    intro hn
    rw [SimpleGraph.Walk.length_eq_zero_iff.2 hn] at hw
    omega
  refine ⟨w.penultimate, le_antisymm ?_ ?_, w.adj_penultimate hnil⟩
  · have hlen : w.dropLast.length = k := by
      rw [SimpleGraph.Walk.length_dropLast]
      omega
    exact hlen ▸ SimpleGraph.edist_le w.dropLast
  · -- a shorter way to the last but one would make a shorter way to the end
    by_contra hlt
    rw [not_le] at hlt
    obtain ⟨j, hj⟩ := ENat.ne_top_iff_exists.1 (ne_top_of_lt hlt)
    have hjk : j < k := by
      rw [← hj] at hlt
      exact_mod_cast hlt
    have hle := edist_le_succ_of_adj (le_of_eq hj.symm) (w.adj_penultimate hnil)
    rw [h] at hle
    have : k + 1 ≤ j + 1 := by exact_mod_cast hle
    omega

/-- One more hop: next to an id at distance `k`, and not within distance `k`. -/
theorem edist_eq_succ_iff {k : ℕ} :
    G.edist s b = (k + 1 : ℕ) ↔ (∃ a, G.edist s a = k ∧ G.Adj a b) ∧ ¬G.edist s b ≤ k := by
  constructor
  · intro h
    refine ⟨exists_adj_of_edist_eq_succ h, ?_⟩
    rw [h, not_le]
    exact_mod_cast Nat.lt_succ_self k
  · rintro ⟨⟨a, ha, hadj⟩, hfar⟩
    refine le_antisymm (edist_le_succ_of_adj ha.le hadj) ?_
    push_cast
    exact Order.add_one_le_of_lt (not_le.1 hfar)

theorem edist_le_succ_iff {k : ℕ} :
    G.edist s b ≤ (k + 1 : ℕ) ↔ G.edist s b ≤ k ∨ G.edist s b = (k + 1 : ℕ) := by
  constructor
  · intro h
    rcases h.lt_or_eq with hlt | heq
    · left
      push_cast at hlt
      exact Order.le_of_lt_add_one hlt
    · exact Or.inr heq
  · rintro (h | h)
    · exact h.trans (by exact_mod_cast Nat.le_succ k)
    · exact h.le

/-- Where nothing is at one distance, nothing is farther away. -/
theorem edist_ne_of_none_at {k : ℕ} (h : ∀ b, G.edist s b ≠ k) :
    ∀ i b, G.edist s b ≠ (k + i : ℕ) := by
  intro i
  induction i with
  | zero => exact h
  | succ i ih =>
    intro b hb
    obtain ⟨a, ha, -⟩ := exists_adj_of_edist_eq_succ (k := k + i) hb
    exact ih a ha

end Distance

end CodeAtlas
