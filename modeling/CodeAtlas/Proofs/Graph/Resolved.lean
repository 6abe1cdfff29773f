import CodeAtlas.Graph.Index

/-!
# Resolved edges

The index is built from looked-up entities.  What it answers depends on ids alone, and this file says so:

* `Graph.edgesAmong g ids` — the edges of a graph, in graph order, whose two ends lie in a list of ids;
* `Edge.Joins e a b` — the edge leads from `a` to `b` or back;
* `Index.touching_ofGraph` and `Index.outgoing_ofGraph` — the answers of the index, with each entity
  replaced by its id, are read off the edges among the known ids;
* `Index.entity?_of_touching` and its relatives — the entity in an answer is the one known under its id.

Everything later speaks about edges among ids and never opens the index again.
-/

namespace CodeAtlas

namespace Edge

/-- The edge leads from one of the two ids to the other. -/
def Joins (e : Edge) (a b : String) : Prop :=
  (e.source = a ∧ e.target = b) ∨ (e.source = b ∧ e.target = a)

instance (e : Edge) (a b : String) : Decidable (e.Joins a b) :=
  inferInstanceAs (Decidable (_ ∨ _))

theorem Joins.symm {e : Edge} {a b : String} (h : e.Joins a b) : e.Joins b a :=
  Or.symm h

/-- The id at the other end of the edge as seen from `a`. -/
def otherEnd? (e : Edge) (a : String) : Option String :=
  if e.source = a then some e.target
  else if e.target = a then some e.source
  else none

theorem otherEnd?_eq_some_iff {e : Edge} {a b : String} :
    e.otherEnd? a = some b ↔ e.Joins a b := by
  unfold otherEnd? Joins
  constructor
  · intro h
    split at h
    · exact Or.inl ⟨‹_›, Option.some.inj h⟩
    · split at h
      · exact Or.inr ⟨Option.some.inj h, ‹_›⟩
      · cases h
  · rintro (⟨hs, ht⟩ | ⟨hs, ht⟩)
    · rw [if_pos hs, ht]
    · by_cases hsa : e.source = a
      · rw [if_pos hsa, ht, ← hsa, hs]
      · rw [if_neg hsa, if_pos ht, hs]

end Edge

namespace Graph

/-- The ids of the entities, in the order of the graph. -/
def ids (g : Graph) : List String := g.nodes.map Entity.id

/-- The edges with both ends among the given ids, in the order of the graph. -/
def edgesAmong (g : Graph) (ids : List String) : List Edge :=
  g.edges.filter fun e => e.source ∈ ids ∧ e.target ∈ ids

theorem mem_edgesAmong {g : Graph} {ids : List String} {e : Edge} :
    e ∈ g.edgesAmong ids ↔ e ∈ g.edges ∧ e.source ∈ ids ∧ e.target ∈ ids := by
  simp [edgesAmong]

/-- Only membership in the list of ids counts. -/
theorem edgesAmong_congr {g : Graph} {ids ids' : List String} (h : ∀ id, id ∈ ids ↔ id ∈ ids') :
    g.edgesAmong ids = g.edgesAmong ids' := by
  simp only [edgesAmong, h]

theorem entity?_isSome_iff {g : Graph} {id : String} : (g.entity? id).isSome ↔ id ∈ g.ids := by
  simp [entity?, ids]

end Graph

namespace Index

/-! ### Looking entities up -/

/-- Dropping the later entities of an id does not change what is found under it. -/
theorem lookUp_firstPerId (l : List Entity) (id : String) :
    lookUp (firstPerId l) id = l.find? fun e => e.id = id := by
  induction l with
  | nil => rfl
  | cons e rest ih =>
    by_cases h : e.id = id
    · simp [lookUp, firstPerId, h]
    · -- what is filtered out has the id of `e`, which is not the one searched for
      rw [List.find?_cons_of_neg (by simpa using h), ← ih, lookUp, firstPerId,
        List.find?_cons_of_neg (by simpa using h), List.find?_filter, lookUp]
      congr 1
      funext x
      by_cases hx : x.id = id
      · simp [hx, Ne.symm h]
      · simp [hx]

theorem lookUp_id {l : List Entity} {id : String} {e : Entity} (h : lookUp l id = some e) :
    e.id = id := by
  simpa using List.find?_some h

/-- The ids that the index of a graph knows. -/
def knownIds (g : Graph) (extra : Option Entity) : List String :=
  (g.nodes ++ extra.toList).map Entity.id

theorem lookUp_isSome_iff {g : Graph} {extra : Option Entity} {id : String} :
    (lookUp (ofGraph g extra).entities id).isSome ↔ id ∈ knownIds g extra := by
  rw [ofGraph, lookUp_firstPerId]
  simp [knownIds]

theorem mem_knownIds_of_lookUp {g : Graph} {extra : Option Entity} {id : String} {e : Entity}
    (h : lookUp (ofGraph g extra).entities id = some e) : id ∈ knownIds g extra :=
  lookUp_isSome_iff.1 (by rw [h]; rfl)

theorem not_mem_knownIds_of_lookUp {g : Graph} {extra : Option Entity} {id : String}
    (h : lookUp (ofGraph g extra).entities id = none) : id ∉ knownIds g extra := by
  intro hid
  have := lookUp_isSome_iff.2 hid
  rw [h] at this
  cases this

/-! ### The answers of the index by ids -/

/-- An edge resolves exactly when both its ends are known, and its ends then carry its ids. -/
theorem resolve_cases (g : Graph) (extra : Option Entity) (e : Edge) :
    (∃ s t, resolve (ofGraph g extra).entities e = some ⟨e, s, t⟩ ∧ s.id = e.source ∧ t.id = e.target ∧
      e.source ∈ knownIds g extra ∧ e.target ∈ knownIds g extra) ∨
    (resolve (ofGraph g extra).entities e = none ∧
      ¬(e.source ∈ knownIds g extra ∧ e.target ∈ knownIds g extra)) := by
  rcases hs : lookUp (ofGraph g extra).entities e.source with _ | s
  · refine Or.inr ⟨by simp [resolve, hs], ?_⟩
    intro h
    exact not_mem_knownIds_of_lookUp hs h.1
  · rcases ht : lookUp (ofGraph g extra).entities e.target with _ | t
    · refine Or.inr ⟨by simp [resolve, hs, ht], ?_⟩
      intro h
      exact not_mem_knownIds_of_lookUp ht h.2
    · exact Or.inl ⟨s, t, by simp [resolve, hs, ht], lookUp_id hs, lookUp_id ht,
        mem_knownIds_of_lookUp hs, mem_knownIds_of_lookUp ht⟩

/-- A view of the links that only reads ids is a view of the edges among the known ids. -/
theorem filterMap_links {β : Type} (g : Graph) (extra : Option Entity) (f : Link → Option β)
    (f' : Edge → Option β)
    (h : ∀ e s t, s.id = e.source → t.id = e.target → f ⟨e, s, t⟩ = f' e) :
    (ofGraph g extra).links.filterMap f = (g.edgesAmong (knownIds g extra)).filterMap f' := by
  have hlinks : (ofGraph g extra).links = g.edges.filterMap (resolve (ofGraph g extra).entities) := rfl
  rw [hlinks, List.filterMap_filterMap, Graph.edgesAmong, List.filterMap_filter]
  congr 1
  funext e
  rcases resolve_cases g extra e with ⟨s, t, hr, hs, ht, hks, hkt⟩ | ⟨hr, hk⟩
  · simp [hr, hks, hkt, h e s t hs ht]
  · simp [hr, hk]

/-- What touches an id, by ids. -/
theorem touching_ofGraph (g : Graph) (extra : Option Entity) (a : String) :
    ((ofGraph g extra).touching a).map (fun p => (p.1, p.2.id)) =
      (g.edgesAmong (knownIds g extra)).filterMap fun e => (e.otherEnd? a).map fun b => (e, b) := by
  rw [touching, List.map_filterMap]
  apply filterMap_links
  intro e s t hs ht
  by_cases hsa : e.source = a
  · simp [Edge.otherEnd?, hsa, ht]
  · by_cases hta : e.target = a
    · simp [Edge.otherEnd?, hsa, hta, hs]
    · simp [Edge.otherEnd?, hsa, hta]

/-- What leaves an id, by ids. -/
theorem outgoing_ofGraph (g : Graph) (extra : Option Entity) (a : String) :
    ((ofGraph g extra).outgoing a).map (fun p => (p.1, p.2.id)) =
      (g.edgesAmong (knownIds g extra)).filterMap fun e =>
        if e.source = a then some (e, e.target) else none := by
  rw [outgoing, List.map_filterMap]
  apply filterMap_links
  intro e s t hs ht
  by_cases hsa : e.source = a
  · simp [hsa, ht]
  · simp [hsa]

/-- What enters an id, by ids. -/
theorem incoming_ofGraph (g : Graph) (extra : Option Entity) (a : String) :
    ((ofGraph g extra).incoming a).map (fun p => (p.1, p.2.id)) =
      (g.edgesAmong (knownIds g extra)).filterMap fun e =>
        if e.target = a then some (e, e.source) else none := by
  rw [incoming, List.map_filterMap]
  apply filterMap_links
  intro e s t hs ht
  by_cases hta : e.target = a
  · simp [hta, hs]
  · simp [hta]

/-- The ends of a link are the entities known under their ids. -/
theorem lookUp_of_mem_links {g : Graph} {extra : Option Entity} {l : Link}
    (h : l ∈ (ofGraph g extra).links) :
    (ofGraph g extra).entity? l.source.id = some l.source ∧
      (ofGraph g extra).entity? l.target.id = some l.target := by
  obtain ⟨e, -, he⟩ := List.mem_filterMap.1 h
  unfold resolve at he
  split at he
  · rename_i s t hs ht
    cases he
    rw [lookUp_id hs, lookUp_id ht]
    exact ⟨hs, ht⟩
  · cases he

/-- The ends of a link carry the ids of its edge. -/
theorem id_of_mem_links {g : Graph} {extra : Option Entity} {l : Link} (h : l ∈ (ofGraph g extra).links) :
    l.source.id = l.edge.source ∧ l.target.id = l.edge.target := by
  obtain ⟨e, -, he⟩ := List.mem_filterMap.1 h
  unfold resolve at he
  split at he
  · rename_i s t hs ht
    cases he
    exact ⟨lookUp_id hs, lookUp_id ht⟩
  · cases he

/-- The entity at the other end of an edge is the one known under its id. -/
theorem entity?_of_touching {g : Graph} {extra : Option Entity} {a : String} {p : Edge × Entity}
    (h : p ∈ (ofGraph g extra).touching a) : (ofGraph g extra).entity? p.2.id = some p.2 := by
  obtain ⟨l, hl, hp⟩ := List.mem_filterMap.1 h
  have hends := lookUp_of_mem_links hl
  split at hp
  · cases hp
    exact hends.2
  · split at hp
    · cases hp
      exact hends.1
    · cases hp

theorem entity?_of_incoming {g : Graph} {extra : Option Entity} {a : String} {p : Edge × Entity}
    (h : p ∈ (ofGraph g extra).incoming a) : (ofGraph g extra).entity? p.2.id = some p.2 := by
  obtain ⟨l, hl, hp⟩ := List.mem_filterMap.1 h
  have hends := lookUp_of_mem_links hl
  split at hp
  · cases hp
    exact hends.1
  · cases hp

end Index

end CodeAtlas
