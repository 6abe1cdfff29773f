import CodeAtlas.Filter.Apply
import CodeAtlas.Proofs.Graph.Resolved
import CodeAtlas.Proofs.Text.StableSort
import Mathlib.Data.List.Basic
import Mathlib.Data.List.Nodup

/-!
# Detours

A *detour* from an id is a way of two or three edges that meets no id twice, passes through hidden ids
only and ends at a kept one.  This file says which detours there are without searching for them:

* `Graph.placedEdges` — the edges of a graph with known ends, each with its position;
* `sequences n l` — every sequence of one to `n` members of a list, in lexicographic order
  (`pairwise_lt_sequences`);
* `Graph.IsDetour` — the sequences of placed edges that are detours from an id;
* `Graph.detourWays` — the sequences that are, sifted out of all of them.

The depth-first search builds its paths one edge at a time and gives up a path at the first id that it may
not pass.  `Bridge.detours_eq` says that what it finds, and in which order, is what sifting leaves over.
The argument is an induction on the hops left; `continues_cons` and `continues_singleton` say how the
condition on a whole way splits at its first edge.
-/

namespace CodeAtlas

/-! ### Sequences in lexicographic order -/

/-- Every sequence of at least one and at most `n` members of the list.  Those that begin with an earlier
member come first, and a sequence comes before its continuations. -/
def sequences {α : Type} : (n : ℕ) → (l : List α) → List (List α)
  | 0, _ => []
  | n + 1, l => l.flatMap fun x => [x] :: (sequences n l).map (x :: ·)

theorem mem_sequences {α : Type} {n : ℕ} {l t : List α} :
    t ∈ sequences n l ↔ t ≠ [] ∧ t.length ≤ n ∧ ∀ x ∈ t, x ∈ l := by
  induction n generalizing t with
  | zero =>
    constructor
    · intro h
      cases h
    · rintro ⟨hne, hlen, -⟩
      exact absurd (List.length_eq_zero_iff.1 (Nat.le_zero.1 hlen)) hne
  | succ n ih =>
    rw [sequences, List.mem_flatMap]
    constructor
    · rintro ⟨x, hx, ht⟩
      rcases List.mem_cons.1 ht with rfl | ht
      · refine ⟨by simp, by simp, ?_⟩
        intro y hy
        rwa [List.mem_singleton.1 hy]
      · obtain ⟨u, hu, rfl⟩ := List.mem_map.1 ht
        obtain ⟨-, hlen, hmem⟩ := ih.1 hu
        refine ⟨by simp, by simpa using hlen, ?_⟩
        intro y hy
        rcases List.mem_cons.1 hy with rfl | hy
        · exact hx
        · exact hmem y hy
    · rintro ⟨hne, hlen, hmem⟩
      cases t with
      | nil => exact absurd rfl hne
      | cons x u =>
        refine ⟨x, hmem x List.mem_cons_self, ?_⟩
        cases u with
        | nil => exact List.mem_cons_self
        | cons y v =>
          refine List.mem_cons_of_mem _ (List.mem_map_of_mem (ih.2 ⟨by simp, ?_, ?_⟩))
          · simpa using hlen
          · exact fun z hz => hmem z (List.mem_cons_of_mem _ hz)

/-- Sequences are listed in the lexicographic order of a number that increases along the list. -/
theorem pairwise_lt_sequences {α : Type} (pos : α → ℕ) (n : ℕ) {l : List α}
    (hl : l.Pairwise fun x y => pos x < pos y) :
    (sequences n l).Pairwise fun t u => t.map pos < u.map pos := by
  induction n with
  | zero => exact List.Pairwise.nil
  | succ n ih =>
    rw [sequences, List.pairwise_flatMap]
    constructor
    · intro x _
      rw [List.pairwise_cons]
      constructor
      · intro t ht
        obtain ⟨u, hu, rfl⟩ := List.mem_map.1 ht
        cases u with
        | nil => exact absurd rfl (mem_sequences.1 hu).1
        | cons y v =>
          exact List.cons_lt_cons_iff.2 (Or.inr ⟨rfl, List.nil_lt_cons _ _⟩)
      · rw [List.pairwise_map]
        refine ih.imp fun {t u} htu => ?_
        exact List.cons_lt_cons_iff.2 (Or.inr ⟨rfl, htu⟩)
    · -- two different first members decide the order
      have hhead : ∀ x, ∀ t ∈ [x] :: (sequences n l).map (x :: ·), ∃ u, t = x :: u := by
        intro x t ht
        rcases List.mem_cons.1 ht with rfl | ht
        · exact ⟨[], rfl⟩
        · obtain ⟨u, -, rfl⟩ := List.mem_map.1 ht
          exact ⟨u, rfl⟩
      refine hl.imp fun {x y} hxy t ht u hu => ?_
      obtain ⟨t', rfl⟩ := hhead x t ht
      obtain ⟨u', rfl⟩ := hhead y u hu
      exact List.cons_lt_cons_iff.2 (Or.inl hxy)

/-! ### Ways along edges -/

/-- An edge with its position among the edges of a graph. -/
abbrev PlacedEdge := Edge × ℕ

namespace PlacedEdge

/-- The ids that the edges lead to, one after the other. -/
def targets (t : List PlacedEdge) : List String := t.map fun x => x.1.target

/-- The ids that the edges leave, one after the other. -/
def sources (t : List PlacedEdge) : List String := t.map fun x => x.1.source

@[simp] theorem targets_cons (x : PlacedEdge) (t : List PlacedEdge) :
    targets (x :: t) = x.1.target :: targets t := rfl

@[simp] theorem sources_cons (x : PlacedEdge) (t : List PlacedEdge) :
    sources (x :: t) = x.1.source :: sources t := rfl

@[simp] theorem targets_nil : targets [] = [] := rfl

@[simp] theorem sources_nil : sources [] = [] := rfl

@[simp] theorem length_targets (t : List PlacedEdge) : (targets t).length = t.length :=
  List.length_map _

theorem targets_ne_nil {t : List PlacedEdge} (h : t ≠ []) : targets t ≠ [] := by
  intro hnil
  exact h (List.map_eq_nil_iff.1 hnil)

end PlacedEdge

open PlacedEdge

/-- A path whose last id is `last` goes on along the edges `t`: each edge leaves the id that the one before
it entered, no id is met twice, only hidden ids are passed, the way ends at a kept id, and the whole path
has at least two edges. -/
def Continues (kept : String → Bool) (path : List String) (last : String) (t : List PlacedEdge) : Prop :=
  sources t = (last :: targets t).dropLast ∧ (path ++ targets t).Nodup ∧
    (∀ id ∈ (targets t).dropLast, kept id = false) ∧ (targets t).getLast?.any kept = true ∧
    3 ≤ path.length + t.length

instance (kept : String → Bool) (path : List String) (last : String) (t : List PlacedEdge) :
    Decidable (Continues kept path last t) :=
  inferInstanceAs (Decidable (_ ∧ _))

variable {kept : String → Bool} {path : List String} {last : String}

theorem nodup_concat_iff {next : String} (hpath : path.Nodup) :
    (path ++ [next]).Nodup ↔ next ∉ path := by
  rw [List.nodup_append]
  constructor
  · rintro ⟨-, -, h⟩ hmem
    exact h _ hmem _ (List.mem_singleton.2 rfl) rfl
  · intro h
    refine ⟨hpath, List.nodup_singleton _, ?_⟩
    rintro a ha b hb rfl
    exact h (List.mem_singleton.1 hb ▸ ha)

/-- The last edge of a way leads to a kept id. -/
theorem continues_singleton {x : PlacedEdge} (hpath : path.Nodup) :
    Continues kept path last [x] ↔
      x.1.source = last ∧ x.1.target ∉ path ∧ kept x.1.target = true ∧ ¬path.length < 2 := by
  have hnodup : (path ++ [x.1.target]).Nodup ↔ x.1.target ∉ path := nodup_concat_iff hpath
  simp only [Continues, targets_cons, targets_nil, sources_cons, sources_nil, hnodup,
    List.length_singleton]
  simp only [List.dropLast_cons_cons, List.dropLast_singleton, List.cons.injEq, and_true,
    List.not_mem_nil, false_implies, implies_true, true_and, List.getLast?_singleton, Option.any_some]
  constructor
  · rintro ⟨hs, hn, hk, hlen⟩
    exact ⟨hs, hn, hk, by omega⟩
  · rintro ⟨hs, hn, hk, hlen⟩
    exact ⟨hs, hn, hk, by omega⟩

/-- An edge before the last one leads to a hidden id, and the way goes on from there. -/
theorem continues_cons {x : PlacedEdge} {t : List PlacedEdge} (ht : t ≠ []) :
    Continues kept path last (x :: t) ↔
      x.1.source = last ∧ x.1.target ∉ path ∧ kept x.1.target = false ∧
        Continues kept (path ++ [x.1.target]) x.1.target t := by
  have hne := targets_ne_nil ht
  have hdrop : (x.1.target :: targets t).dropLast = x.1.target :: (targets t).dropLast :=
    List.dropLast_cons_of_ne_nil hne
  have hlast : (x.1.target :: targets t).getLast? = (targets t).getLast? := by
    rw [List.getLast?_cons, List.getLast?_eq_getLast_of_ne_nil hne]
    rfl
  simp only [Continues, targets_cons, sources_cons, List.dropLast_cons_cons, List.cons.injEq, hlast,
    List.append_assoc, List.singleton_append, List.length_append, List.length_cons, List.length_nil]
  rw [hdrop, List.forall_mem_cons]
  constructor
  · rintro ⟨⟨hs, hlink⟩, hnd, ⟨hk, hhid⟩, hend, hlen⟩
    refine ⟨hs, ?_, hk, hlink, hnd, hhid, hend, by omega⟩
    intro hmem
    exact (List.nodup_append.1 hnd).2.2 _ hmem _ List.mem_cons_self rfl
  · rintro ⟨hs, -, hk, hlink, hnd, hhid, hend, hlen⟩
    exact ⟨⟨hs, hlink⟩, hnd, ⟨hk, hhid⟩, hend, by omega⟩

/-! ### The edges of a graph with their positions -/

namespace Graph

/-- The edges with known ends, each with its position among all edges of the graph. -/
def placedEdges (g : Graph) : List PlacedEdge :=
  g.edges.zipIdx.filter fun x => x.1.source ∈ g.ids ∧ x.1.target ∈ g.ids

theorem mem_placedEdges {g : Graph} {x : PlacedEdge} :
    x ∈ g.placedEdges ↔ g.edges[x.2]? = some x.1 ∧ x.1.source ∈ g.ids ∧ x.1.target ∈ g.ids := by
  rw [placedEdges, List.mem_filter, List.mem_zipIdx_iff_getElem?]
  simp

theorem map_fst_placedEdges (g : Graph) : g.placedEdges.map Prod.fst = g.edgesAmong g.ids := by
  have hfilter := List.filter_map (f := (Prod.fst : PlacedEdge → Edge)) (l := g.edges.zipIdx)
    (p := fun e => decide (e.source ∈ g.ids ∧ e.target ∈ g.ids))
  rw [List.zipIdx_map_fst] at hfilter
  exact hfilter.symm

theorem pairwise_placedEdges (g : Graph) : g.placedEdges.Pairwise fun x y => x.2 < y.2 :=
  (Text.pairwise_zipIdx g.edges).filter _

/-- What is done for each edge out of an id is done along the edges of the graph. -/
theorem flatMap_outgoing_edges {β : Type} (g : Graph) (a : String) (f : String → List β) :
    ((Index.ofGraph g none).outgoing a).flatMap (fun p => f p.2.id) =
      (g.edgesAmong g.ids).flatMap fun e => if e.source = a then f e.target else [] := by
  have hknown : Index.knownIds g none = g.ids := by
    simp [Index.knownIds, ids]
  calc ((Index.ofGraph g none).outgoing a).flatMap (fun p => f p.2.id)
      = (((Index.ofGraph g none).outgoing a).map fun p => (p.1, p.2.id)).flatMap fun q => f q.2 := by
        rw [List.flatMap_map]
    _ = (g.edgesAmong g.ids).flatMap fun e => if e.source = a then f e.target else [] := by
        rw [Index.outgoing_ofGraph, hknown]
        induction g.edgesAmong g.ids with
        | nil => rfl
        | cons e rest ih =>
          by_cases h : e.source = a
          · simp [h, ih]
          · simp [h, ih]

end Graph

/-! ### The search finds what sifting leaves over -/

namespace Bridge

/-- One step of the search, along the edges of the graph. -/
theorem detours_succ (g : Graph) (kept : String → Bool) (hops : ℕ) (path : List String) (last : String) :
    detours (Index.ofGraph g none) kept (hops + 1) path last =
      (g.edgesAmong g.ids).flatMap fun e =>
        if e.source = last then
          if e.target ∈ path then []
          else if kept e.target then if path.length < 2 then [] else [path ++ [e.target]]
          else detours (Index.ofGraph g none) kept hops (path ++ [e.target]) e.target
        else [] := by
  rw [detours]
  exact g.flatMap_outgoing_edges last fun next =>
    if next ∈ path then []
    else if kept next then if path.length < 2 then [] else [path ++ [next]]
    else detours (Index.ofGraph g none) kept hops (path ++ [next]) next

/-- What one edge contributes to sifting: nothing if it may not be followed, the finished path at a kept
id, and else all ways on from the id that it enters. -/
theorem sift_first_edge (hpath : path.Nodup) (x : PlacedEdge) (ways : List (List PlacedEdge))
    (hways : ∀ t ∈ ways, t ≠ []) :
    (([x] :: ways.map (x :: ·)).filter fun t => Continues kept path last t).map
        (fun t => path ++ targets t) =
      if x.1.source = last then
        if x.1.target ∈ path then []
        else if kept x.1.target then
          if path.length < 2 then [] else [path ++ [x.1.target]]
        else (ways.filter fun t => Continues kept (path ++ [x.1.target]) x.1.target t).map
          fun t => path ++ [x.1.target] ++ targets t
      else [] := by
  have hcons : ∀ t ∈ ways, Continues kept path last (x :: t) ↔ x.1.source = last ∧
      x.1.target ∉ path ∧ kept x.1.target = false ∧
        Continues kept (path ++ [x.1.target]) x.1.target t := fun t ht => continues_cons (hways t ht)
  have hone : Continues kept path last [x] ↔ x.1.source = last ∧ x.1.target ∉ path ∧
      kept x.1.target = true ∧ ¬path.length < 2 := continues_singleton hpath
  have hmap : (ways.map (x :: ·)).filter (fun t => Continues kept path last t) =
      (ways.filter fun t => Continues kept path last (x :: t)).map (x :: ·) := by
    rw [List.filter_map]
    rfl
  have hnone (h : ∀ t ∈ ways, ¬Continues kept path last (x :: t)) :
      (ways.filter fun t => Continues kept path last (x :: t)) = [] :=
    List.filter_eq_nil_iff.2 fun t ht => by simpa using h t ht
  rw [List.filter_cons, hmap]
  by_cases hs : x.1.source = last
  · by_cases hm : x.1.target ∈ path
    · rw [hnone fun t ht h => ((hcons t ht).1 h).2.1 hm]
      simp [hone, hm]
    · by_cases hk : kept x.1.target = true
      · rw [hnone fun t ht h => by simp [((hcons t ht).1 h).2.2.1] at hk]
        by_cases hlen : path.length < 2
        · simp [hone, hk, hlen]
        · simp [hone, hs, hm, hk, hlen]
      · rw [Bool.not_eq_true] at hk
        have hrest : (ways.filter fun t => Continues kept path last (x :: t)) =
            ways.filter fun t => Continues kept (path ++ [x.1.target]) x.1.target t := by
          refine List.filter_congr fun t ht => decide_eq_decide.2 ?_
          rw [hcons t ht]
          simp [hs, hm, hk]
        rw [hrest]
        simp [hone, hs, hm, hk, Function.comp_def]
  · rw [hnone fun t ht h => hs ((hcons t ht).1 h).1]
    simp [hone, hs]

/-- **Depth first is sifting.**  From a path without repetition, the search finds exactly the ways on, in
the order in which they are listed. -/
theorem detours_eq (g : Graph) (kept : String → Bool) (hops : ℕ) (path : List String) (last : String)
    (hpath : path.Nodup) :
    detours (Index.ofGraph g none) kept hops path last =
      ((sequences hops g.placedEdges).filter fun t => Continues kept path last t).map
        fun t => path ++ targets t := by
  induction hops generalizing path last with
  | zero => rfl
  | succ hops ih =>
    rw [sequences, List.filter_flatMap, List.map_flatMap]
    rw [detours_succ, ← Graph.map_fst_placedEdges, List.flatMap_map]
    refine List.flatMap_congr fun x _ => ?_
    rw [sift_first_edge hpath x _ fun t ht => (mem_sequences.1 ht).1]
    by_cases hm : x.1.target ∈ path
    · simp [hm]
    · rw [ih (path ++ [x.1.target]) x.1.target ((nodup_concat_iff hpath).2 hm)]

end Bridge

/-! ### Detours from an id -/

namespace Graph

/-- The edges `t` of the graph lead from `a` on a detour: two or three of them, resolved, each leaving the
id that the one before it entered, with no id met twice, only hidden ids between the ends and a kept id at
the end. -/
structure IsDetour (g : Graph) (kept : String → Bool) (a : String) (t : List PlacedEdge) : Prop where
  two_or_three : t.length = 2 ∨ t.length = 3
  recorded : ∀ x ∈ t, g.edges[x.2]? = some x.1
  resolved : ∀ x ∈ t, x.1.source ∈ g.ids ∧ x.1.target ∈ g.ids
  linked : sources t = (a :: targets t).dropLast
  simple : (a :: targets t).Nodup
  hidden : ∀ id ∈ (targets t).dropLast, kept id = false
  reaches : ∃ id, (targets t).getLast? = some id ∧ kept id = true

/-- The detours from an id, in the lexicographic order of the positions of their edges. -/
def detourWays (g : Graph) (kept : String → Bool) (a : String) : List (List PlacedEdge) :=
  (sequences Bridge.maxHops g.placedEdges).filter fun t => Continues kept [a] a t

theorem mem_detourWays {g : Graph} {kept : String → Bool} {a : String} {t : List PlacedEdge} :
    t ∈ g.detourWays kept a ↔ g.IsDetour kept a t := by
  rw [detourWays, List.mem_filter, mem_sequences, decide_eq_true_eq, Continues]
  constructor
  · rintro ⟨⟨-, hmax, hmem⟩, hlink, hnd, hhid, hend, hmin⟩
    rw [Bridge.maxHops] at hmax
    rw [List.length_singleton] at hmin
    exact
      { two_or_three := by omega
        recorded := fun x hx => (mem_placedEdges.1 (hmem x hx)).1
        resolved := fun x hx => (mem_placedEdges.1 (hmem x hx)).2
        linked := hlink
        simple := hnd
        hidden := hhid
        reaches := (Option.any_eq_true _ _).1 hend }
  · intro h
    have hlen := h.two_or_three
    refine ⟨⟨?_, ?_, ?_⟩, h.linked, h.simple, h.hidden, (Option.any_eq_true _ _).2 h.reaches, ?_⟩
    · rintro rfl
      simp at hlen
    · rw [Bridge.maxHops]
      omega
    · exact fun x hx => mem_placedEdges.2 ⟨h.recorded x hx, h.resolved x hx⟩
    · rw [List.length_singleton]
      omega

/-- The order of the detours from an id is that of the positions of their edges. -/
theorem pairwise_detourWays (g : Graph) (kept : String → Bool) (a : String) :
    (g.detourWays kept a).Pairwise fun t u => t.map Prod.snd < u.map Prod.snd :=
  (pairwise_lt_sequences Prod.snd Bridge.maxHops g.pairwise_placedEdges).filter _

end Graph

/-- The search from an id finds its detours. -/
theorem Bridge.detours_start (g : Graph) (kept : String → Bool) (a : String) :
    detours (Index.ofGraph g none) kept maxHops [a] a =
      (g.detourWays kept a).map fun t => a :: targets t :=
  detours_eq g kept maxHops [a] a (List.nodup_singleton a)

end CodeAtlas
