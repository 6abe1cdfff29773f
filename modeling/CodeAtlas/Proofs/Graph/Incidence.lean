import CodeAtlas.Proofs.Graph.EdgeStore
import CodeAtlas.Proofs.Graph.Hop
import Mathlib.Algebra.BigOperators.Group.Finset.Basic
import Mathlib.Algebra.BigOperators.Group.Finset.Piecewise

/-!
# The index loses nothing

An index takes in every edge whose ends are both known and counts the others.  Its answers are said here
without looking into it: `Index.Faithful` lists, for each id, the edges of the graph that leave, enter or touch
it, in the order of the graph, and pairs each with the first entity that carries the id at the other end.

Over all known ids, each edge leaves one id and enters one id, so the answers to either question add up to the
number of edges.  An edge touches two ids, or one if it is a loop, and so the answers about touching add up to
twice that number less the loops (`sum_length_touching`).

None of this depends on how the edges at an id are found.  A store that is told them in any order answers as the
index does (`EdgeStore.AnswersAs`).
-/

namespace CodeAtlas

/-! ### Counting a list by a key -/

/-- The members of a list, counted for each value of a key, add up to its length. -/
theorem sum_length_filter {α κ : Type} [DecidableEq κ] {keys : Finset κ} {key : α → κ} {l : List α}
    (h : ∀ a ∈ l, key a ∈ keys) : ∑ k ∈ keys, (l.filter fun a => key a = k).length = l.length := by
  induction l with
  | nil => simp
  | cons a l ih =>
    have ha : key a ∈ keys := h a List.mem_cons_self
    have hl := ih fun b hb => h b (List.mem_cons_of_mem a hb)
    simp only [← List.countP_eq_length_filter, List.countP_cons, Finset.sum_add_distrib,
      decide_eq_true_eq, Finset.sum_ite_eq, if_pos ha, List.length_cons] at hl ⊢
    rw [hl]

/-- What passes either of two tests, and again what passes both, is what passes the one and what passes the
other. -/
theorem length_filter_or_add_and {α : Type} (p q : α → Prop) [DecidablePred p] [DecidablePred q]
    (l : List α) :
    (l.filter fun a => p a ∨ q a).length + (l.filter fun a => p a ∧ q a).length =
      (l.filter fun a => p a).length + (l.filter fun a => q a).length := by
  have hsplit := congrArg Multiset.card (Multiset.filter_add_filter p q (l : Multiset α))
  simpa [Multiset.filter_coe] using hsplit.symm

namespace Index

variable {g : Graph} {extra : Option Entity}

/-! ### Known entities -/

/-- The first entity that carries the id, of the graph or else the one more. -/
def known? (g : Graph) (extra : Option Entity) (id : String) : Option Entity :=
  (g.nodes ++ extra.toList).find? fun e => e.id = id

/-- The edges with both ends known, in the order of the graph. -/
def resolvedEdges (g : Graph) (extra : Option Entity) : List Edge :=
  g.edgesAmong (knownIds g extra)

theorem entity?_ofGraph (id : String) : (ofGraph g extra).entity? id = known? g extra id :=
  lookUp_firstPerId _ id

/-- A link is an edge with the first entities under its ids. -/
theorem known?_of_mem_links {l : Link} (h : l ∈ (ofGraph g extra).links) :
    known? g extra l.edge.source = some l.source ∧ known? g extra l.edge.target = some l.target := by
  obtain ⟨hsource, htarget⟩ := lookUp_of_mem_links h
  obtain ⟨hs, ht⟩ := id_of_mem_links h
  rw [entity?_ofGraph, hs] at hsource
  rw [entity?_ofGraph, ht] at htarget
  exact ⟨hsource, htarget⟩

/-! ### Which edges are listed -/

theorem map_edge_links (g : Graph) (extra : Option Entity) :
    (ofGraph g extra).links.map Link.edge = resolvedEdges g extra := by
  have hlinks := filterMap_links g extra (fun l => some l.edge) some fun _ _ _ _ _ => rfl
  rwa [List.filterMap_some, List.filterMap_eq_map'] at hlinks

theorem length_links (g : Graph) (extra : Option Entity) :
    (ofGraph g extra).links.length = (resolvedEdges g extra).length := by
  rw [← map_edge_links, List.length_map]

/-- Each edge is a link or dangles. -/
theorem length_links_add_dangling (g : Graph) (extra : Option Entity) :
    (ofGraph g extra).links.length + (ofGraph g extra).dangling = g.edges.length := by
  show (g.edges.filterMap (resolve (ofGraph g extra).entities)).length +
    (g.edges.countP fun e => (resolve (ofGraph g extra).entities e).isNone) = g.edges.length
  rw [List.length_filterMap_eq_countP,
    List.length_eq_countP_add_countP fun e => (resolve (ofGraph g extra).entities e).isSome]
  congr 2
  funext e
  cases resolve (ofGraph g extra).entities e <;> rfl

/-! ### Answers -/

/-- An answer of an index: the edges that were asked for, of those with known ends and in the order of the graph,
each with the first entity that carries the id at its far end. -/
structure Answers (g : Graph) (extra : Option Entity) (asked : Edge → Prop) [DecidablePred asked]
    (farEnd : Edge → String) (answer : List (Edge × Entity)) : Prop where
  edges : answer.map Prod.fst = (resolvedEdges g extra).filter fun e => asked e
  ends : ∀ q ∈ answer, known? g extra (farEnd q.1) = some q.2

theorem Answers.length_eq {asked : Edge → Prop} [DecidablePred asked] {farEnd : Edge → String}
    {answer : List (Edge × Entity)} (h : Answers g extra asked farEnd answer) :
    answer.length = ((resolvedEdges g extra).filter fun e => asked e).length := by
  rw [← h.edges, List.length_map]

/-- An answer is read off the links: those that were asked for, each with one of its ends. -/
theorem answers_of_links {asked : Edge → Prop} [DecidablePred asked] {farEnd : Edge → String}
    {other : Link → Entity}
    (hother : ∀ l ∈ (ofGraph g extra).links, known? g extra (farEnd l.edge) = some (other l)) :
    Answers g extra asked farEnd
      ((ofGraph g extra).links.filterMap fun l => if asked l.edge then some (l.edge, other l) else none) where
  edges := by
    rw [← map_edge_links, List.filter_map]
    induction (ofGraph g extra).links with
    | nil => rfl
    | cons l links ih =>
      by_cases hl : asked l.edge
      · simpa [hl] using ih
      · simpa [hl] using ih
  ends := by
    intro q hq
    obtain ⟨l, hl, hsome⟩ := List.mem_filterMap.1 hq
    split at hsome
    · obtain rfl : (l.edge, other l) = q := Option.some.inj hsome
      exact hother l hl
    · cases hsome

theorem answers_outgoing (a : String) :
    Answers g extra (fun e => e.source = a) Edge.target ((ofGraph g extra).outgoing a) :=
  answers_of_links fun _ hl => (known?_of_mem_links hl).2

theorem answers_incoming (a : String) :
    Answers g extra (fun e => e.target = a) Edge.source ((ofGraph g extra).incoming a) :=
  answers_of_links fun _ hl => (known?_of_mem_links hl).1

/-- Seen from an id, the far end of an edge that leaves it is the target, also if the edge is a loop. -/
theorem answers_touching (a : String) :
    Answers g extra (fun e => e.source = a ∨ e.target = a)
      (fun e => if e.source = a then e.target else e.source) ((ofGraph g extra).touching a) := by
  have hlinks : (ofGraph g extra).touching a = (ofGraph g extra).links.filterMap fun l =>
      if l.edge.source = a ∨ l.edge.target = a then
        some (l.edge, if l.edge.source = a then l.target else l.source) else none := by
    refine List.filterMap_congr fun l _ => ?_
    by_cases hs : l.edge.source = a
    · simp [hs]
    · simp [hs]
  rw [hlinks]
  apply answers_of_links
  intro l hl
  obtain ⟨hsource, htarget⟩ := known?_of_mem_links hl
  by_cases hs : l.edge.source = a
  · rw [if_pos hs, if_pos hs, htarget]
  · rw [if_neg hs, if_neg hs, hsource]

/-- What touches an id, member by member. -/
theorem mem_touching_iff {a : String} {e : Edge} {y : Entity} :
    (e, y) ∈ (ofGraph g extra).touching a ↔
      e ∈ resolvedEdges g extra ∧ e.Joins a y.id ∧ known? g extra y.id = some y := by
  have hids : ∀ b, (∃ z, (e, z) ∈ (ofGraph g extra).touching a ∧ z.id = b) ↔
      e ∈ resolvedEdges g extra ∧ e.Joins a b := by
    intro b
    have hmem := congrArg ((e, b) ∈ ·) (touching_ofGraph g extra a)
    simp only [List.mem_map, List.mem_filterMap, Option.map_eq_some_iff, Prod.mk.injEq,
      Edge.otherEnd?_eq_some_iff, eq_iff_iff] at hmem
    constructor
    · rintro ⟨z, hz, rfl⟩
      obtain ⟨e', he', c, hjoins, rfl, rfl⟩ := hmem.1 ⟨(e, z), hz, rfl, rfl⟩
      exact ⟨he', hjoins⟩
    · rintro ⟨he, hjoins⟩
      obtain ⟨⟨e', z⟩, hz, rfl, hid⟩ := hmem.2 ⟨e, he, b, hjoins, rfl, rfl⟩
      exact ⟨z, hz, hid⟩
  constructor
  · intro h
    obtain ⟨he, hjoins⟩ := (hids y.id).1 ⟨y, h, rfl⟩
    refine ⟨he, hjoins, ?_⟩
    rw [← entity?_ofGraph]
    exact entity?_of_touching h
  · rintro ⟨he, hjoins, hy⟩
    obtain ⟨z, hz, hid⟩ := (hids y.id).2 ⟨he, hjoins⟩
    have hknown := entity?_of_touching hz
    rw [entity?_ofGraph, hid, hy] at hknown
    rwa [Option.some.inj hknown]

/-! ### Sums over the known ids -/

/-- The known ids, each once. -/
def idSet (g : Graph) (extra : Option Entity) : Finset String := (knownIds g extra).toFinset

theorem mem_idSet_of_mem_resolvedEdges {e : Edge} (h : e ∈ resolvedEdges g extra) :
    e.source ∈ idSet g extra ∧ e.target ∈ idSet g extra := by
  rw [idSet, List.mem_toFinset, List.mem_toFinset]
  exact (Graph.mem_edgesAmong.1 h).2

theorem sum_length_outgoing (g : Graph) (extra : Option Entity) :
    ∑ a ∈ idSet g extra, ((ofGraph g extra).outgoing a).length = (ofGraph g extra).links.length := by
  simp only [(answers_outgoing _).length_eq, length_links]
  exact sum_length_filter fun e he => (mem_idSet_of_mem_resolvedEdges he).1

theorem sum_length_incoming (g : Graph) (extra : Option Entity) :
    ∑ a ∈ idSet g extra, ((ofGraph g extra).incoming a).length = (ofGraph g extra).links.length := by
  simp only [(answers_incoming _).length_eq, length_links]
  exact sum_length_filter fun e he => (mem_idSet_of_mem_resolvedEdges he).2

/-- The edges with known ends that lead back to where they start. -/
def loops (g : Graph) (extra : Option Entity) : List Edge :=
  (resolvedEdges g extra).filter fun e => e.source = e.target

theorem sum_length_loops (g : Graph) (extra : Option Entity) :
    ∑ a ∈ idSet g extra, ((resolvedEdges g extra).filter fun e => e.source = a ∧ e.target = a).length =
      (loops g extra).length := by
  have hloops : ∀ e ∈ loops g extra, e.source ∈ idSet g extra := fun e he =>
    (mem_idSet_of_mem_resolvedEdges (List.mem_filter.1 he).1).1
  rw [← sum_length_filter hloops]
  refine Finset.sum_congr rfl fun a _ => ?_
  rw [loops, List.filter_filter]
  congr 1
  refine List.filter_congr fun e _ => ?_
  by_cases hs : e.source = a
  · simp [hs, eq_comm]
  · simp [hs]

/-- A loop is left and entered at one id, where it is listed once. -/
theorem sum_length_touching (g : Graph) (extra : Option Entity) :
    ∑ a ∈ idSet g extra, ((ofGraph g extra).touching a).length + (loops g extra).length =
      2 * (ofGraph g extra).links.length := by
  calc ∑ a ∈ idSet g extra, ((ofGraph g extra).touching a).length + (loops g extra).length
      = ∑ a ∈ idSet g extra, (((ofGraph g extra).outgoing a).length +
          ((ofGraph g extra).incoming a).length) := by
        rw [← sum_length_loops, ← Finset.sum_add_distrib]
        refine Finset.sum_congr rfl fun a _ => ?_
        rw [(answers_touching a).length_eq, (answers_outgoing a).length_eq, (answers_incoming a).length_eq]
        exact length_filter_or_add_and _ _ _
    _ = 2 * (ofGraph g extra).links.length := by
        rw [Finset.sum_add_distrib, sum_length_outgoing, sum_length_incoming, Nat.two_mul]

/-! ### The index as a whole -/

/-- The index says of a graph, with one entity more or none, what there is to say about its edges. -/
structure Faithful (index : Index) (g : Graph) (extra : Option Entity) : Prop where
  links : index.links.map Link.edge = resolvedEdges g extra
  every_edge : index.links.length + index.dangling = g.edges.length
  outgoing : ∀ a, Answers g extra (fun e => e.source = a) Edge.target (index.outgoing a)
  incoming : ∀ a, Answers g extra (fun e => e.target = a) Edge.source (index.incoming a)
  touching : ∀ a, Answers g extra (fun e => e.source = a ∨ e.target = a)
    (fun e => if e.source = a then e.target else e.source) (index.touching a)
  /-- A loop is listed once in each answer, as often as it is recorded. -/
  loop_once : ∀ a ∈ knownIds g extra, ∀ e : Edge, e.source = a → e.target = a →
    ∀ answer ∈ [index.outgoing a, index.incoming a, index.touching a],
      (answer.map Prod.fst).count e = g.edges.count e
  /-- Of two known entities, an edge that touches the one with the other touches the other with the one. -/
  symmetric : ∀ x y e, known? g extra x.id = some x → known? g extra y.id = some y →
    ((e, y) ∈ index.touching x.id ↔ (e, x) ∈ index.touching y.id)
  sum_outgoing : ∑ a ∈ idSet g extra, (index.outgoing a).length = index.links.length
  sum_incoming : ∑ a ∈ idSet g extra, (index.incoming a).length = index.links.length
  sum_touching : ∑ a ∈ idSet g extra, (index.touching a).length + (loops g extra).length =
    2 * index.links.length

theorem count_loop {a : String} {e : Edge} (ha : a ∈ knownIds g extra) (hs : e.source = a)
    (ht : e.target = a) {asked : Edge → Prop} [DecidablePred asked] {farEnd : Edge → String}
    {answer : List (Edge × Entity)} (h : Answers g extra asked farEnd answer) (hasked : asked e) :
    (answer.map Prod.fst).count e = g.edges.count e := by
  have hknown : e.source ∈ knownIds g extra ∧ e.target ∈ knownIds g extra := by
    rw [hs, ht]
    exact ⟨ha, ha⟩
  calc (answer.map Prod.fst).count e
      = ((resolvedEdges g extra).filter fun e => asked e).count e := by rw [h.edges]
    _ = (resolvedEdges g extra).count e := List.count_filter (by simpa using hasked)
    _ = g.edges.count e := List.count_filter (by simpa using hknown)

theorem answers_faithfully (g : Graph) (extra : Option Entity) : (ofGraph g extra).Faithful g extra where
  links := map_edge_links g extra
  every_edge := length_links_add_dangling g extra
  outgoing := answers_outgoing
  incoming := answers_incoming
  touching := answers_touching
  loop_once := by
    intro a ha e hs ht answer hanswer
    simp only [List.mem_cons, List.not_mem_nil, or_false] at hanswer
    rcases hanswer with rfl | rfl | rfl
    · exact count_loop ha hs ht (answers_outgoing a) hs
    · exact count_loop ha hs ht (answers_incoming a) ht
    · exact count_loop ha hs ht (answers_touching a) (Or.inl hs)
  symmetric := by
    intro x y e hx hy
    rw [mem_touching_iff, mem_touching_iff]
    constructor
    · rintro ⟨he, hjoins, -⟩
      exact ⟨he, hjoins.symm, hx⟩
    · rintro ⟨he, hjoins, -⟩
      exact ⟨he, hjoins.symm, hy⟩
  sum_outgoing := sum_length_outgoing g extra
  sum_incoming := sum_length_incoming g extra
  sum_touching := sum_length_touching g extra

/-- **The index is faithful.**  Every edge is listed or dangles.  What leaves, enters and touches an id is listed
in the order of the graph with the first entity at the other end, and over all known ids nothing is listed too
often or too rarely.  A store that is told each edge once at each of its ends, in whatever order, has the same
entities and counts and gives the same answers. -/
theorem ofGraph_faithful (g : Graph) (extra : Option Entity) :
    (ofGraph g extra).Faithful g extra ∧
      ∀ edgesDirected, (EdgeStore.ofGraph g extra).Enumerates edgesDirected →
        (EdgeStore.ofGraph g extra).AnswersAs edgesDirected (ofGraph g extra) :=
  ⟨answers_faithfully g extra, fun _ h => EdgeStore.answersAs_ofGraph h⟩

/-- Two entities with one id, edges that are given twice, that loop, that lead to the one entity more and that
dangle. -/
def looped : Graph :=
  { nodes := [Entity.plain "a" "function", Entity.plain "b" "class", Entity.plain "a" "class"]
    edges := [Edge.plain "x" "a", Edge.plain "a" "b", Edge.plain "b" "ghost", Edge.plain "a" "a",
      Edge.plain "a" "b", Edge.plain "x" "x"] }

/-- The edges at `a` are told from the last one to the first, and the loop among them twice. -/
theorem ofGraph_faithful_looped :
    let store := EdgeStore.ofGraph looped (some (Entity.plain "x" "file"))
    (store.Enumerates store.newestFirst ∧ store.newestFirst 0 .outgoing = [3, 2, 1] ∧
        store.newestFirst 0 .incoming = [2, 0]) ∧
      store.touching store.newestFirst "a" =
        [(Edge.plain "x" "a", Entity.plain "x" "file"), (Edge.plain "a" "b", Entity.plain "b" "class"),
          (Edge.plain "a" "a", Entity.plain "a" "function"), (Edge.plain "a" "b", Entity.plain "b" "class")] ∧
      (ofGraph looped (some (Entity.plain "x" "file"))).dangling = 1 ∧
      (ofGraph looped (some (Entity.plain "x" "file"))).touching "a" =
        [(Edge.plain "x" "a", Entity.plain "x" "file"), (Edge.plain "a" "b", Entity.plain "b" "class"),
          (Edge.plain "a" "a", Entity.plain "a" "function"), (Edge.plain "a" "b", Entity.plain "b" "class")] ∧
      (Edge.plain "x" "a", Entity.plain "a" "function") ∈
        (ofGraph looped (some (Entity.plain "x" "file"))).touching "x" ∧
      ∑ a ∈ idSet looped (some (Entity.plain "x" "file")),
        ((ofGraph looped (some (Entity.plain "x" "file"))).touching a).length = 8 := by
  intro store
  obtain ⟨hfaithful, hstore⟩ := ofGraph_faithful looped (some (Entity.plain "x" "file"))
  have henumerates : store.Enumerates store.newestFirst := store.enumerates_newestFirst
  have htouching : (ofGraph looped (some (Entity.plain "x" "file"))).touching "a" =
      [(Edge.plain "x" "a", Entity.plain "x" "file"), (Edge.plain "a" "b", Entity.plain "b" "class"),
        (Edge.plain "a" "a", Entity.plain "a" "function"), (Edge.plain "a" "b", Entity.plain "b" "class")] := by
    decide
  have hlinks : (ofGraph looped (some (Entity.plain "x" "file"))).links.length = 5 := by decide
  have hloops : (loops looped (some (Entity.plain "x" "file"))).length = 2 := by decide
  refine ⟨⟨henumerates, by decide, by decide⟩, ?_, ?_, htouching, ?_, ?_⟩
  · rw [(hstore _ henumerates).touching, htouching]
  · have hevery := hfaithful.every_edge
    rw [hlinks] at hevery
    exact Nat.add_left_cancel hevery
  · apply (hfaithful.symmetric (Entity.plain "a" "function") (Entity.plain "x" "file") _ (by decide)
      (by decide)).1
    show _ ∈ (ofGraph looped (some (Entity.plain "x" "file"))).touching "a"
    rw [htouching]
    exact List.mem_cons_self
  · have hsum := hfaithful.sum_touching
    rw [hlinks, hloops] at hsum
    exact Nat.add_right_cancel hsum

end Index

end CodeAtlas
