import CodeAtlas.Proofs.Graph.Hop
import Mathlib.Data.List.Nodup
import Mathlib.Data.List.Perm.Basic

/-!
# Graphs in another order

A graph lists its entities and its edges in some order.  Two graphs are the *same up to order*
(`Graph.SameUpToOrder`) if every id leads to the same entity in both and the edges of one are those of the
other, rearranged.  Rearranging the entities of a graph without repeated ids gives such a graph
(`Graph.sameUpToOrder_of_perm`); with repeated ids another entity may come first.

The index around a selected entity then knows the same entities, and its links are rearranged
(`Graph.SameUpToOrder.links_perm`).  So is every answer that is read off the links.
-/

namespace CodeAtlas

/-- Where keys do not repeat, what is found under a key is the one member with that key. -/
theorem find?_key_eq_some_iff {α β : Type} [DecidableEq β] {key : α → β} {l : List α}
    (hkeys : (l.map key).Nodup) {k : β} {a : α} :
    (l.find? fun b => key b = k) = some a ↔ a ∈ l ∧ key a = k := by
  constructor
  · intro h
    exact ⟨List.mem_of_find?_eq_some h, by simpa using List.find?_some h⟩
  · intro ⟨ha, hka⟩
    cases hl : l.find? fun b => key b = k with
    | none =>
      rw [List.find?_eq_none] at hl
      exact absurd hka (by simpa using hl a ha)
    | some b =>
      have hkb : key b = k := by simpa using List.find?_some hl
      rw [List.inj_on_of_nodup_map hkeys (List.mem_of_find?_eq_some hl) ha (hkb.trans hka.symm)]

theorem find?_of_perm {α β : Type} [DecidableEq β] {key : α → β} {l l' : List α} (h : l.Perm l')
    (hkeys : (l.map key).Nodup) (k : β) :
    (l.find? fun a => key a = k) = l'.find? fun a => key a = k := by
  have hkeys' : (l'.map key).Nodup := (h.map key).nodup_iff.1 hkeys
  apply Option.ext
  intro a
  rw [find?_key_eq_some_iff hkeys, find?_key_eq_some_iff hkeys', h.mem_iff]

namespace Graph

/-- The same entity under each id, and the same edges in any order. -/
structure SameUpToOrder (g g' : Graph) : Prop where
  entity?_eq : ∀ id, g.entity? id = g'.entity? id
  edges_perm : g.edges.Perm g'.edges

theorem sameUpToOrder_of_perm {g g' : Graph} (hnodes : g.nodes.Perm g'.nodes)
    (hedges : g.edges.Perm g'.edges) (hids : g.ids.Nodup) : g.SameUpToOrder g' where
  entity?_eq := find?_of_perm hnodes hids
  edges_perm := hedges

namespace SameUpToOrder

variable {g g' : Graph} (h : g.SameUpToOrder g') (selected : Entity)
include h

theorem extraFor_eq : Index.extraFor selected g = Index.extraFor selected g' := by
  rw [Index.extraFor, Index.extraFor, h.entity?_eq]

/-- Both indices know the same entities. -/
theorem lookUp_eq (id : String) :
    Index.lookUp (Index.around selected g).entities id =
      Index.lookUp (Index.around selected g').entities id := by
  have hfind : ∀ f : Graph, Index.lookUp (Index.around selected f).entities id =
      (f.entity? id).or ((Index.extraFor selected f).toList.find? fun e => e.id = id) := by
    intro f
    rw [Index.around_eq, Index.ofGraph, Index.lookUp_firstPerId, List.find?_append]
    rfl
  rw [hfind, hfind, h.entity?_eq, h.extraFor_eq]

theorem resolve_eq (e : Edge) :
    Index.resolve (Index.around selected g).entities e =
      Index.resolve (Index.around selected g').entities e := by
  rw [Index.resolve, Index.resolve, h.lookUp_eq, h.lookUp_eq]

/-- The links are the same, in another order. -/
theorem links_perm : (Index.around selected g).links.Perm (Index.around selected g').links := by
  have hresolve : Index.resolve (Index.around selected g).entities =
      Index.resolve (Index.around selected g').entities := by
    funext e
    exact h.resolve_eq selected e
  show (g.edges.filterMap (Index.resolve (Index.around selected g).entities)).Perm
    (g'.edges.filterMap (Index.resolve (Index.around selected g').entities))
  rw [hresolve]
  exact h.edges_perm.filterMap _

theorem touching_perm (a : String) :
    ((Index.around selected g).touching a).Perm ((Index.around selected g').touching a) :=
  (h.links_perm selected).filterMap _

theorem incoming_perm (a : String) :
    ((Index.around selected g).incoming a).Perm ((Index.around selected g').incoming a) :=
  (h.links_perm selected).filterMap _

theorem hopEdges_perm : (g.hopEdges selected).Perm (g'.hopEdges selected) := by
  have hids : ∀ id, id ∈ selected.id :: g.ids ↔ id ∈ selected.id :: g'.ids := by
    intro id
    rw [List.mem_cons, List.mem_cons, ← entity?_isSome_iff, ← entity?_isSome_iff, h.entity?_eq]
  rw [hopEdges, edgesAmong_congr hids]
  exact h.edges_perm.filter _

/-- Hops do not depend on the order. -/
theorem hopGraph_eq : g.hopGraph selected = g'.hopGraph selected := by
  ext a b
  simp only [hopGraph_adj, (h.hopEdges_perm selected).mem_iff]

end SameUpToOrder

end Graph

end CodeAtlas
