import CodeAtlas.Proofs.Graph.Reordering
import CodeAtlas.Proofs.Hierarchy.Provenance
import CodeAtlas.Proofs.Text.StableSort

/-!
# The order of the input does not show in the tree

Entities are claimed first come, first served, so the tree might well depend on the order in which a graph
lists its entities and edges.  It does not, as long as no two entities share an id or a name
(`Tree.build_of_reordered`).

Each entity sorts its neighbours by label and name before it claims them.  Two candidates with the same label
and the same name are the same candidate, met over parallel edges, so the sorted list is fixed by its members
(`Claim.filter_expand_of_reordered`).  One entity is an exception: the selected one may share its name with
another if it is not in the graph.  But it is claimed from the start, and what has been claimed is never looked
at again.  Two walks over the two graphs therefore stay together level by level, by `Walk.levels_congr`.

The labels of the parents of the root do depend on the order: a parent shows the label of its first edge.
-/

namespace CodeAtlas

namespace Claim

/-! ### Candidates in order -/

theorem candidateLe_iff {a b : String × Entity} :
    candidateLe a b = true ↔ a.1 < b.1 ∨ a.1 = b.1 ∧ a.2.name ≤ b.2.name := by
  simp [candidateLe]

theorem candidateLe_trans (a b c : String × Entity) (hab : candidateLe a b = true)
    (hbc : candidateLe b c = true) : candidateLe a c = true := by
  rw [candidateLe_iff] at hab hbc ⊢
  rcases hab with hab | ⟨hab, hname⟩
  · rcases hbc with hbc | ⟨hbc, -⟩
    · exact Or.inl (String.lt_trans hab hbc)
    · exact Or.inl (hbc ▸ hab)
  · rcases hbc with hbc | ⟨hbc, hname'⟩
    · exact Or.inl (hab ▸ hbc)
    · exact Or.inr ⟨hab.trans hbc, String.le_trans hname hname'⟩

theorem candidateLe_total (a b : String × Entity) : (candidateLe a b || candidateLe b a) = true := by
  rw [Bool.or_eq_true, candidateLe_iff, candidateLe_iff]
  by_cases hlt : a.1 < b.1
  · exact Or.inl (Or.inl hlt)
  · by_cases hgt : b.1 < a.1
    · exact Or.inr (Or.inl hgt)
    · have heq : a.1 = b.1 := String.le_antisymm (String.not_lt.1 hgt) (String.not_lt.1 hlt)
      rcases String.le_total a.2.name b.2.name with hname | hname
      · exact Or.inl (Or.inr ⟨heq, hname⟩)
      · exact Or.inr (Or.inr ⟨heq.symm, hname⟩)

/-- Candidates that compare equal have the same label and the same name. -/
theorem candidateLe_antisymm {a b : String × Entity} (hab : candidateLe a b = true)
    (hba : candidateLe b a = true) : a.1 = b.1 ∧ a.2.name = b.2.name := by
  rw [candidateLe_iff] at hab hba
  rcases hab with hab | ⟨hab, hname⟩
  · rcases hba with hba | ⟨hba, -⟩
    · exact absurd (String.lt_trans hab hba) (String.lt_irrefl _)
    · exact absurd (hba ▸ hab) (String.lt_irrefl _)
  · rcases hba with hba | ⟨-, hname'⟩
    · exact absurd (hab ▸ hba) (String.lt_irrefl _)
    · exact ⟨hab, String.le_antisymm hname hname'⟩

end Claim

/-! ### One entity per name -/

section Named

variable {selected : Entity} {g g' : Graph} (hnames : (g.nodes.map Entity.name).Nodup)
include hnames

/-- Where names do not repeat in the graph, the index knows one entity per name, the selected id apart. -/
theorem Index.eq_of_name_eq {e e' : Entity} (he : (around selected g).entity? e.id = some e)
    (he' : (around selected g).entity? e'.id = some e') (hne : e.id ≠ selected.id)
    (hne' : e'.id ≠ selected.id) (hname : e.name = e'.name) : e = e' := by
  have hmem : e ∈ g.nodes := List.mem_of_find?_eq_some (graph_entity?_of_around hne he)
  have hmem' : e' ∈ g.nodes := List.mem_of_find?_eq_some (graph_entity?_of_around hne' he')
  exact List.inj_on_of_nodup_map hnames hmem hmem' hname

namespace Claim

/-- What an entity claims, apart from claims on the selected one, is fixed up to the order of the input. -/
theorem filter_expand_of_reordered (h : g.SameUpToOrder g') (c : Claim) :
    (expand (Index.around selected g) c).filter (fun d => d.id ≠ selected.id) =
      (expand (Index.around selected g') c).filter fun d => d.id ≠ selected.id := by
  rw [expand, expand, List.filter_map, List.filter_map]
  refine congrArg _ (Text.filter_mergeSort_of_perm candidateLe_trans candidateLe_total
    ((h.touching_perm selected c.id).map _) ?_)
  intro a ha b hb hab hba
  obtain ⟨ha, hane⟩ := List.mem_filter.1 ha
  obtain ⟨hb, hbne⟩ := List.mem_filter.1 hb
  obtain ⟨p, hp, rfl⟩ := List.mem_map.1 ha
  obtain ⟨q, hq, rfl⟩ := List.mem_map.1 hb
  obtain ⟨hlabel, hname⟩ := candidateLe_antisymm hab hba
  have hpne : p.2.id ≠ selected.id := of_decide_eq_true hane
  have hqne : q.2.id ≠ selected.id := of_decide_eq_true hbne
  have hentity : p.2 = q.2 := Index.eq_of_name_eq hnames (Index.mem_touching_around hp).2.2
    (Index.mem_touching_around hq).2.2 hpne hqne hname
  exact Prod.ext hlabel hentity

/-- The same entities are claimed on each level, by the same claimants, under the same labels and in the same
order. -/
theorem levels_of_reordered (h : g.SameUpToOrder g') (selected : Entity) (maxDepth : ℕ) :
    levels (Index.around selected g) selected maxDepth =
      levels (Index.around selected g') selected maxDepth := by
  apply Walk.levels_congr (filter_expand_of_reordered hnames h)
  intro c hc
  simpa using hc

end Claim

end Named

/-! ### Parents of the root -/

namespace Node

variable {selected : Entity} {g g' : Graph}

theorem mem_map_entity_callers {e : Entity} :
    e ∈ (callers (Index.around selected g) selected.id).map entity ↔
      e.id ≠ selected.id ∧ ∃ q ∈ (Index.around selected g).incoming selected.id, q.2 = e := by
  constructor
  · intro he
    obtain ⟨n, hn, rfl⟩ := List.mem_map.1 he
    obtain ⟨hne, q, hq, rfl⟩ := mem_callers hn
    exact ⟨hne, q, hq, rfl⟩
  · intro ⟨hne, q, hq, hqe⟩
    subst hqe
    -- the caller under that id may show another edge, but it is the same entity
    have hid : q.2.id ∈ (callers (Index.around selected g) selected.id).map Node.id := by
      rw [callers, Walk.mem_map_fresh, List.map_map]
      exact ⟨List.mem_map.2 ⟨q, hq, rfl⟩, by simpa using hne⟩
    obtain ⟨n, hn, hnid⟩ := List.mem_map.1 hid
    obtain ⟨-, r, hr, rfl⟩ := mem_callers hn
    have hknown := (Index.mem_incoming_around hq).2.2.2
    have hknown' := (Index.mem_incoming_around hr).2.2.2
    have hrid : r.2.id = q.2.id := hnid
    rw [hrid, hknown] at hknown'
    exact List.mem_map.2 ⟨_, hn, (Option.some.inj hknown').symm⟩

theorem nodup_map_entity_callers (index : Index) (id : String) :
    ((callers index id).map entity).Nodup := by
  apply List.Nodup.of_map Entity.id
  rw [List.map_map]
  exact Walk.nodup_map_fresh _ _

theorem map_entity_callers_perm (h : g.SameUpToOrder g') :
    ((callers (Index.around selected g) selected.id).map entity).Perm
      ((callers (Index.around selected g') selected.id).map entity) := by
  rw [List.perm_ext_iff_of_nodup (nodup_map_entity_callers _ _) (nodup_map_entity_callers _ _)]
  intro e
  simp only [mem_map_entity_callers, (h.incoming_perm selected selected.id).mem_iff]

theorem map_entity_sortOn_name (l : List Node) :
    (Text.sortOn name l).map entity = Text.sortOn Entity.name (l.map entity) := by
  rw [Text.sortOn, Text.sortOn]
  apply List.map_mergeSort
  intro a _ b _
  rfl

/-- The parents of the root are the same entities in the same order. -/
theorem map_entity_sorted_callers_of_reordered (hnames : (g.nodes.map Entity.name).Nodup)
    (h : g.SameUpToOrder g') (selected : Entity) :
    (Text.sortOn name (callers (Index.around selected g) selected.id)).map entity =
      (Text.sortOn name (callers (Index.around selected g') selected.id)).map entity := by
  rw [map_entity_sortOn_name, map_entity_sortOn_name]
  apply Text.sortOn_of_perm (map_entity_callers_perm h)
  intro a ha b hb hname
  obtain ⟨hane, p, hp, rfl⟩ := mem_map_entity_callers.1 ha
  obtain ⟨hbne, q, hq, rfl⟩ := mem_map_entity_callers.1 hb
  exact Index.eq_of_name_eq hnames (Index.mem_incoming_around hp).2.2.2
    (Index.mem_incoming_around hq).2.2.2 hane hbne hname

end Node

/-! ### The tree -/

namespace Tree

/-- **Order does not show.**  Rearrange the entities and the edges of a graph in which no id and no name
repeats.  Everything below the root stays the same, with the number of nodes and the depth reached, and the
parents of the root keep their order. -/
theorem build_of_reordered (selected : Entity) {g g' : Graph} (hnodes : g.nodes.Perm g'.nodes)
    (hedges : g.edges.Perm g'.edges) (hids : (g.nodes.map Entity.id).Nodup)
    (hnames : (g.nodes.map Entity.name).Nodup) (maxDepth : ℕ) :
    (build selected g maxDepth).root.children = (build selected g' maxDepth).root.children ∧
    (build selected g maxDepth).totalNodes = (build selected g' maxDepth).totalNodes ∧
    (build selected g maxDepth).maxDepth = (build selected g' maxDepth).maxDepth ∧
    (build selected g maxDepth).root.parents.map Node.id =
      (build selected g' maxDepth).root.parents.map Node.id := by
  have hsame : g.SameUpToOrder g' := Graph.sameUpToOrder_of_perm hnodes hedges hids
  have hlevels := Claim.levels_of_reordered hnames hsame selected maxDepth
  have hparents := congrArg (List.map Entity.id)
    (Node.map_entity_sorted_callers_of_reordered hnames hsame selected)
  rw [List.map_map, List.map_map] at hparents
  simp only [build, hlevels]
  exact ⟨trivial, trivial, trivial, hparents⟩

/-- Two ways from `a` to `d`, one of them over parallel edges in both directions and under two labels. -/
def diamond : Graph :=
  { nodes := [Entity.plain "a" "function", Entity.plain "b" "function", Entity.plain "c" "class",
      Entity.plain "d" "class"]
    edges := [⟨"a", "b", some "uses"⟩, Edge.plain "b" "a", Edge.plain "c" "a", Edge.plain "b" "d",
      Edge.plain "d" "c"] }

/-- The same graph in another order. -/
def diamondReordered : Graph :=
  { nodes := [Entity.plain "d" "class", Entity.plain "b" "function", Entity.plain "a" "function",
      Entity.plain "c" "class"]
    edges := [Edge.plain "d" "c", Edge.plain "b" "a", Edge.plain "b" "d", Edge.plain "c" "a",
      ⟨"a", "b", some "uses"⟩] }

theorem build_of_reordered_diamond :
    diamond.nodes.Perm diamondReordered.nodes ∧ diamond.edges.Perm diamondReordered.edges ∧
      (diamond.nodes.map Entity.id).Nodup ∧ (diamond.nodes.map Entity.name).Nodup ∧
      (build (Entity.plain "a" "function") diamond 2).root.children =
        (build (Entity.plain "a" "function") diamondReordered 2).root.children ∧
      (build (Entity.plain "a" "function") diamond 2).root.parents.map Node.id =
        (build (Entity.plain "a" "function") diamondReordered 2).root.parents.map Node.id := by
  have hnodes : diamond.nodes.Perm diamondReordered.nodes := by decide
  have hedges : diamond.edges.Perm diamondReordered.edges := by decide
  have hids : (diamond.nodes.map Entity.id).Nodup := by decide
  have hnames : (diamond.nodes.map Entity.name).Nodup := by decide
  have h := build_of_reordered (Entity.plain "a" "function") hnodes hedges hids hnames 2
  exact ⟨hnodes, hedges, hids, hnames, h.1, h.2.2.2⟩

end Tree

end CodeAtlas
