import CodeAtlas.Proofs.Graph.Hop
import CodeAtlas.Proofs.Text.StableSort

/-!
# Edges by their place in the graph

Edges may repeat in a graph, so an edge alone does not say where it stands.  `Index.numbered` lists what touches
an id together with the places of the edges.

Between two ids there may be several edges, in both directions and under different labels.  As seen from one of
the ids, `Graph.LeastLabel` is the least of these labels, and `Graph.firstEdge` the place of the first edge that
has a label.
-/

namespace CodeAtlas

namespace Graph

variable (g : Graph) (selected : Entity)

/-- The label is the least one that an edge between the two ids has as seen from the first. -/
structure LeastLabel (a b label : String) : Prop where
  shown : ∃ e ∈ g.hopEdges selected, e.Joins a b ∧ e.labelFrom a = label
  least : ∀ e ∈ g.hopEdges selected, e.Joins a b → label ≤ e.labelFrom a

/-- The place in the graph of the first edge between the two ids that has the label as seen from the first. -/
def firstEdge (a b label : String) : ℕ :=
  g.edges.findIdx fun e => e.Joins a b ∧ e.labelFrom a = label

variable {g selected}

theorem LeastLabel.unique {a b label label' : String} (h : g.LeastLabel selected a b label)
    (h' : g.LeastLabel selected a b label') : label = label' := by
  obtain ⟨e, he, hjoins, hlabel⟩ := h.shown
  obtain ⟨e', he', hjoins', hlabel'⟩ := h'.shown
  exact String.le_antisymm (hlabel' ▸ h.least e' he' hjoins') (hlabel ▸ h'.least e he hjoins)

/-- An edge between the ends of a hop is a hop. -/
theorem mem_hopEdges_of_joins {a b : String} {e e' : Edge} (he : e ∈ g.hopEdges selected) (hjoins : e.Joins a b)
    (he' : e' ∈ g.edges) (hjoins' : e'.Joins a b) : e' ∈ g.hopEdges selected := by
  obtain ⟨-, hsource, htarget⟩ := mem_edgesAmong.1 he
  refine mem_edgesAmong.2 ⟨he', ?_⟩
  rcases hjoins with ⟨rfl, rfl⟩ | ⟨rfl, rfl⟩
  · rcases hjoins' with ⟨hs, ht⟩ | ⟨hs, ht⟩
    · exact ⟨hs ▸ hsource, ht ▸ htarget⟩
    · exact ⟨hs ▸ htarget, ht ▸ hsource⟩
  · rcases hjoins' with ⟨hs, ht⟩ | ⟨hs, ht⟩
    · exact ⟨hs ▸ htarget, ht ▸ hsource⟩
    · exact ⟨hs ▸ hsource, ht ▸ htarget⟩

end Graph

namespace Index

/-- The edge with the entity at its other end, if it is resolved and touches the id. -/
def across (index : Index) (a : String) (e : Edge) : Option (Edge × Entity) :=
  (resolve index.entities e).bind fun l =>
    if l.edge.source = a then some (l.edge, l.target)
    else if l.edge.target = a then some (l.edge, l.source)
    else none

/-- What touches an id as seen from the selected entity, with the place of each edge in the graph. -/
def numbered (selected : Entity) (g : Graph) (a : String) : List ((Edge × Entity) × ℕ) :=
  g.edges.zipIdx.filterMap fun x => ((around selected g).across a x.1).map fun q => (q, x.2)

variable {selected : Entity} {g : Graph} {a : String}

theorem touching_eq_filterMap (selected : Entity) (g : Graph) (a : String) :
    (around selected g).touching a = g.edges.filterMap ((around selected g).across a) :=
  List.filterMap_filterMap

theorem map_fst_numbered (selected : Entity) (g : Graph) (a : String) :
    (numbered selected g a).map Prod.fst = (around selected g).touching a := by
  have hedges : g.edges = g.edges.zipIdx.map Prod.fst := (List.zipIdx_map_fst 0 g.edges).symm
  rw [touching_eq_filterMap, numbered, List.map_filterMap]
  conv_rhs => rw [hedges, List.filterMap_map]
  congr 1
  funext x
  simp [Function.comp_def]

theorem pairwise_numbered (selected : Entity) (g : Graph) (a : String) :
    (numbered selected g a).Pairwise fun x y => x.2 < y.2 := by
  refine List.pairwise_filterMap.2 ((Text.pairwise_zipIdx g.edges).imp ?_)
  intro x y hxy x' hx y' hy
  obtain ⟨q, -, rfl⟩ := Option.map_eq_some_iff.1 hx
  obtain ⟨q', -, rfl⟩ := Option.map_eq_some_iff.1 hy
  exact hxy

/-- By ids, an edge leads across to its other end if it is a hop. -/
theorem map_across (selected : Entity) (a : String) {e : Edge} (he : e ∈ g.edges) :
    ((around selected g).across a e).map (fun q => (q.1, q.2.id)) =
      if e ∈ g.hopEdges selected then (e.otherEnd? a).map fun b => (e, b) else none := by
  have hhop : e ∈ g.hopEdges selected ↔
      e.source ∈ knownIds g (extraFor selected g) ∧ e.target ∈ knownIds g (extraFor selected g) := by
    rw [Graph.hopEdges, Graph.mem_edgesAmong, and_iff_right he, mem_knownIds_around, mem_knownIds_around]
  rw [around_eq, across]
  rcases resolve_cases g (extraFor selected g) e with ⟨s, t, hresolve, hs, ht, hknown⟩ | ⟨hresolve, hunknown⟩
  · rw [hresolve, if_pos (hhop.2 hknown), Edge.otherEnd?]
    by_cases hsource : e.source = a
    · simp [hsource, ht]
    · by_cases htarget : e.target = a
      · simp [hsource, htarget, hs]
      · simp [hsource, htarget]
  · rw [hresolve, if_neg fun h => hunknown (hhop.1 h)]
    rfl

theorem mem_numbered {x : (Edge × Entity) × ℕ} (h : x ∈ numbered selected g a) :
    g.edges[x.2]? = some x.1.1 ∧ x.1.1 ∈ g.hopEdges selected ∧ x.1.1.Joins a x.1.2.id ∧
      (around selected g).entity? x.1.2.id = some x.1.2 := by
  have htouching : x.1 ∈ (around selected g).touching a := by
    rw [← map_fst_numbered]
    exact List.mem_map_of_mem h
  obtain ⟨⟨e, i⟩, hplace, hx⟩ := List.mem_filterMap.1 h
  obtain ⟨q, hq, rfl⟩ := Option.map_eq_some_iff.1 hx
  rw [List.mem_zipIdx_iff_getElem?] at hplace
  have hmap := map_across selected a (List.mem_of_getElem? hplace)
  rw [hq, Option.map_some] at hmap
  by_cases he : e ∈ g.hopEdges selected
  · rw [if_pos he] at hmap
    obtain ⟨b, hb, hpair⟩ := Option.map_eq_some_iff.1 hmap.symm
    have hedge : q.1 = e := (congrArg Prod.fst hpair).symm
    have hid : q.2.id = b := (congrArg Prod.snd hpair).symm
    refine ⟨hedge ▸ hplace, hedge ▸ he, ?_, entity?_of_touching htouching⟩
    rw [hedge, hid]
    exact Edge.otherEnd?_eq_some_iff.1 hb
  · rw [if_neg he] at hmap
    cases hmap

theorem exists_mem_numbered {i : ℕ} {e : Edge} {b : String} (hplace : g.edges[i]? = some e)
    (he : e ∈ g.hopEdges selected) (hjoins : e.Joins a b) :
    ∃ q, (q, i) ∈ numbered selected g a ∧ q.1 = e ∧ q.2.id = b := by
  have hmap := map_across selected a (List.mem_of_getElem? hplace)
  rw [if_pos he, Edge.otherEnd?_eq_some_iff.2 hjoins, Option.map_some] at hmap
  obtain ⟨q, hq, hpair⟩ := Option.map_eq_some_iff.1 hmap
  refine ⟨q, List.mem_filterMap.2 ⟨(e, i), List.mem_zipIdx_iff_getElem?.2 hplace, ?_⟩, ?_, ?_⟩
  · rw [hq]
    rfl
  · exact congrArg Prod.fst hpair
  · exact congrArg Prod.snd hpair

end Index

end CodeAtlas
