import CodeAtlas.Proofs.Graph.Resolved
import CodeAtlas.Proofs.Text.StableSort

/-!
# The store behind the index

An index reads its answers off the list of links.  A store gets at them in another way.  It numbers entities and
edges as they are added, looks up the number of an id, and asks for the numbers of the edges that leave or enter
there.  Nothing is known about the order in which it is told these (`EdgeStore.Enumerates`): the answer is put
together from what comes, a loop is skipped where it comes a second time, and sorting by number restores the order
of adding.

* `EdgeStore.entities_foldl_addEntity`, `EdgeStore.foldl_addEdge` — what adding one after the other leaves in
  the store;
* `EdgeStore.Numbered` — an id has the number at which its entity stands, kept by each step of adding;
* `EdgeStore.getElem?_links` — under each number stands the same edge as in the list of links;
* `EdgeStore.inOrder_eq` — whatever comes once under each number of a wanted link is, sorted, what is read off the
  links;
* `EdgeStore.answersAs_ofGraph` — so the store and the index give the same answers.
-/

namespace CodeAtlas

/-- The two ways to go along an edge. -/
inductive Direction where
  | outgoing
  | incoming
  deriving DecidableEq, Repr

/-- The id from which the edge is followed. -/
def Edge.near (e : Edge) : Direction → String
  | .outgoing => e.source
  | .incoming => e.target

/-- The entity to which the link is followed. -/
def Link.far (l : Link) : Direction → Entity
  | .outgoing => l.target
  | .incoming => l.source

/-- An edge in a store, with the numbers of the entities that it leaves and enters. -/
structure StoredEdge where
  edge : Edge
  source : ℕ
  target : ℕ
  deriving DecidableEq, Repr

namespace StoredEdge

/-- The number of the entity from which the edge is followed. -/
def near (x : StoredEdge) : Direction → ℕ
  | .outgoing => x.source
  | .incoming => x.target

/-- The number of the entity to which the edge is followed. -/
def far (x : StoredEdge) : Direction → ℕ
  | .outgoing => x.target
  | .incoming => x.source

end StoredEdge

/-- Entities and edges, each under the number of those added before it. -/
structure EdgeStore where
  entities : List Entity
  /-- The number of each known id. -/
  numbers : List (String × ℕ)
  edges : List StoredEdge
  /-- How many edges were not added because an end is unknown. -/
  dangling : ℕ
  deriving Repr

namespace EdgeStore

/-! ### Adding -/

def empty : EdgeStore := { entities := [], numbers := [], edges := [], dangling := 0 }

/-- The number of the entity with the id. -/
def number? (s : EdgeStore) (id : String) : Option ℕ := s.numbers.lookup id

/-- Add an entity unless its id is known. -/
def addEntity (s : EdgeStore) (e : Entity) : EdgeStore :=
  if (s.number? e.id).isSome then s
  else { s with entities := s.entities ++ [e], numbers := (e.id, s.entities.length) :: s.numbers }

/-- The edge with the numbers of its ends, if both are known. -/
def resolve? (s : EdgeStore) (e : Edge) : Option StoredEdge :=
  match s.number? e.source, s.number? e.target with
  | some source, some target => some ⟨e, source, target⟩
  | _, _ => none

/-- Add an edge, or count it if it dangles. -/
def addEdge (s : EdgeStore) (e : Edge) : EdgeStore :=
  match s.resolve? e with
  | some x => { s with edges := s.edges ++ [x] }
  | none => { s with dangling := s.dangling + 1 }

/-- The store of a graph, with one more entity if its id is new. -/
def ofGraph (g : Graph) (extra : Option Entity) : EdgeStore :=
  g.edges.foldl addEdge ((g.nodes ++ extra.toList).foldl addEntity empty)

/-! ### Answering -/

/-- How the numbers of the edges at an entity are told, by direction. -/
abbrev Adjacency := (number : ℕ) → Direction → List ℕ

/-- Each edge is told once at the entity that it leaves and once at the one that it enters, and nothing else is
told. -/
structure Enumerates (s : EdgeStore) (edgesDirected : Adjacency) : Prop where
  once : ∀ n d, (edgesDirected n d).Nodup
  mem_iff : ∀ n d i, i ∈ edgesDirected n d ↔ ∃ x, s.edges[i]? = some x ∧ x.near d = n

/-- The entity with the id. -/
def entity? (s : EdgeStore) (id : String) : Option Entity :=
  (s.number? id).bind fun n => s.entities[n]?

/-- The edge under a number and the entity to which it is followed. -/
def found? (s : EdgeStore) (d : Direction) (i : ℕ) : Option (ℕ × Edge × Entity) :=
  s.edges[i]?.bind fun x => s.entities[x.far d]?.map fun other => (i, x.edge, other)

/-- Does the edge under the number lead back to where it starts? -/
def isLoop (s : EdgeStore) (i : ℕ) : Bool :=
  s.edges[i]?.any fun x => x.source = x.target

/-- What was found, in the order of numbers. -/
def inOrder (found : List (ℕ × Edge × Entity)) : List (Edge × Entity) :=
  (found.mergeSort fun a b => decide (a.1 ≤ b.1)).map Prod.snd

/-- The edges at the id in one direction, each with the entity at its other end. -/
def directed (s : EdgeStore) (edgesDirected : Adjacency) (id : String) (d : Direction) : List (Edge × Entity) :=
  match s.number? id with
  | none => []
  | some n => inOrder ((edgesDirected n d).filterMap (s.found? d))

/-- The edges at the id in both directions.  A loop is told in both of them, and the second time it is
skipped. -/
def touching (s : EdgeStore) (edgesDirected : Adjacency) (id : String) : List (Edge × Entity) :=
  match s.number? id with
  | none => []
  | some n =>
    inOrder ((edgesDirected n .outgoing).filterMap (s.found? .outgoing) ++
      ((edgesDirected n .incoming).filter fun i => !s.isLoop i).filterMap (s.found? .incoming))

/-! ### What adding leaves in the store -/

/-- An id has the number at which the first entity that carries it stands. -/
def Numbered (s : EdgeStore) : Prop :=
  ∀ id, s.number? id = s.entities.findIdx? fun e => e.id = id

theorem numbered_empty : empty.Numbered := fun _ => rfl

theorem addEntity_of_known {s : EdgeStore} {e : Entity} (h : (s.number? e.id).isSome) : s.addEntity e = s := by
  rw [addEntity, if_pos h]

theorem addEntity_of_new {s : EdgeStore} {e : Entity} (h : s.number? e.id = none) :
    s.addEntity e =
      { s with entities := s.entities ++ [e], numbers := (e.id, s.entities.length) :: s.numbers } := by
  rw [addEntity, h]
  rfl

theorem number?_addEntity {s : EdgeStore} {e : Entity} (h : s.number? e.id = none) (id : String) :
    (s.addEntity e).number? id = if id = e.id then some s.entities.length else s.number? id := by
  rw [addEntity_of_new h, number?, List.lookup_cons]
  by_cases hid : id = e.id
  · simp [hid]
  · rw [beq_false_of_ne hid, if_neg hid]
    rfl

theorem Numbered.addEntity {s : EdgeStore} (h : s.Numbered) (e : Entity) : (s.addEntity e).Numbered := by
  cases hnew : s.number? e.id with
  | some n =>
    rw [addEntity_of_known (by rw [hnew]; rfl)]
    exact h
  | none =>
    intro id
    have hlookup := h id
    rw [number?_addEntity hnew, addEntity_of_new hnew, List.findIdx?_append, ← hlookup]
    by_cases hid : id = e.id
    · rw [if_pos hid, hid, hnew]
      simp
    · rw [if_neg hid]
      simp [Ne.symm hid]

theorem Numbered.foldl_addEntity {s : EdgeStore} (h : s.Numbered) (l : List Entity) :
    (l.foldl EdgeStore.addEntity s).Numbered := by
  induction l generalizing s with
  | nil => exact h
  | cons e l ih => exact ih (h.addEntity e)

/-- Of the entities added, the first with each id that was unknown before is appended. -/
theorem entities_foldl_addEntity (s : EdgeStore) (l : List Entity) :
    (l.foldl addEntity s).entities =
      s.entities ++ (Index.firstPerId l).filter fun e => (s.number? e.id).isNone := by
  induction l generalizing s with
  | nil => simp [Index.firstPerId]
  | cons e l ih =>
    rw [List.foldl_cons, ih, Index.firstPerId]
    cases hnew : s.number? e.id with
    | some n =>
      rw [addEntity_of_known (by rw [hnew]; rfl), List.filter_cons_of_neg (by simp [hnew]), List.filter_filter]
      congr 1
      refine List.filter_congr fun other _ => ?_
      by_cases hid : other.id = e.id
      · simp [hid, hnew]
      · simp [hid]
    | none =>
      rw [List.filter_cons_of_pos (by simp [hnew]), List.filter_filter]
      simp only [number?_addEntity hnew]
      rw [addEntity_of_new hnew, List.append_assoc, List.singleton_append]
      congr 2
      refine List.filter_congr fun other _ => ?_
      by_cases hid : other.id = e.id
      · simp [hid]
      · simp [hid]

/-- Adding entities adds no edge. -/
theorem edges_foldl_addEntity (s : EdgeStore) (l : List Entity) :
    (l.foldl addEntity s).edges = s.edges ∧ (l.foldl addEntity s).dangling = s.dangling := by
  induction l generalizing s with
  | nil => exact ⟨rfl, rfl⟩
  | cons e l ih =>
    have hstep : (s.addEntity e).edges = s.edges ∧ (s.addEntity e).dangling = s.dangling := by
      rw [addEntity]
      split <;> exact ⟨rfl, rfl⟩
    rw [List.foldl_cons, (ih _).1, (ih _).2]
    exact hstep

/-- Of the edges added, those with known ends are appended and the others counted. -/
theorem foldl_addEdge (s : EdgeStore) (l : List Edge) :
    l.foldl addEdge s =
      { s with
        edges := s.edges ++ l.filterMap s.resolve?
        dangling := s.dangling + l.countP fun e => (s.resolve? e).isNone } := by
  induction l generalizing s with
  | nil => simp
  | cons e l ih =>
    cases he : s.resolve? e with
    | some x =>
      have hstep : s.addEdge e = { s with edges := s.edges ++ [x] } := by rw [addEdge, he]
      rw [List.foldl_cons, ih, hstep, List.filterMap_cons_some he, List.countP_cons_of_neg (by simp [he]),
        List.append_cons s.edges x (l.filterMap s.resolve?)]
      rfl
    | none =>
      have hstep : s.addEdge e = { s with dangling := s.dangling + 1 } := by rw [addEdge, he]
      rw [List.foldl_cons, ih, hstep, List.filterMap_cons_none he, List.countP_cons_of_pos (by simp [he]),
        Nat.add_comm (l.countP _) 1, ← Nat.add_assoc]
      rfl

/-! ### The store of a graph and its index -/

section

variable (g : Graph) (extra : Option Entity)

theorem entities_ofGraph : (ofGraph g extra).entities = (Index.ofGraph g extra).entities := by
  rw [ofGraph, foldl_addEdge]
  show ((g.nodes ++ extra.toList).foldl addEntity empty).entities = Index.firstPerId (g.nodes ++ extra.toList)
  have hnew : ∀ e ∈ Index.firstPerId (g.nodes ++ extra.toList), (empty.number? e.id).isNone = true :=
    fun _ _ => rfl
  rw [entities_foldl_addEntity, List.filter_eq_self.2 hnew]
  rfl

theorem numbered_ofGraph : (ofGraph g extra).Numbered := by
  rw [ofGraph, foldl_addEdge]
  exact numbered_empty.foldl_addEntity _

theorem edges_ofGraph : (ofGraph g extra).edges = g.edges.filterMap (ofGraph g extra).resolve? := by
  rw [ofGraph, foldl_addEdge]
  show ((g.nodes ++ extra.toList).foldl addEntity empty).edges ++ _ = _
  rw [(edges_foldl_addEntity _ _).1]
  rfl

theorem dangling_ofGraph :
    (ofGraph g extra).dangling = g.edges.countP fun e => ((ofGraph g extra).resolve? e).isNone := by
  rw [ofGraph, foldl_addEdge]
  show ((g.nodes ++ extra.toList).foldl addEntity empty).dangling + _ = _
  rw [(edges_foldl_addEntity _ _).2]
  exact Nat.zero_add _

theorem Numbered.lookUp_eq {s : EdgeStore} (h : s.Numbered) (id : String) :
    Index.lookUp s.entities id = s.entity? id := by
  rw [entity?, h id, Index.lookUp, List.find?_eq_bind_findIdx?_getElem?]

theorem entity?_ofGraph (id : String) : (ofGraph g extra).entity? id = (Index.ofGraph g extra).entity? id := by
  rw [Index.entity?, ← entities_ofGraph, (numbered_ofGraph g extra).lookUp_eq]

end

section

variable {g : Graph} {extra : Option Entity} {s : EdgeStore}

/-- Under the number of an id stands an entity that carries it. -/
theorem Numbered.exists_entity (h : s.Numbered) {id : String} {n : ℕ} (hn : s.number? id = some n) :
    ∃ e, s.entities[n]? = some e ∧ e.id = id := by
  rw [h id, List.findIdx?_eq_some_iff_getElem] at hn
  obtain ⟨hlt, hid, -⟩ := hn
  exact ⟨s.entities[n], List.getElem?_eq_getElem hlt, of_decide_eq_true hid⟩

theorem Numbered.id_unique (h : s.Numbered) {a b : String} {n : ℕ} (ha : s.number? a = some n)
    (hb : s.number? b = some n) : a = b := by
  obtain ⟨e, he, rfl⟩ := h.exists_entity ha
  obtain ⟨e', he', rfl⟩ := h.exists_entity hb
  rw [Option.some.inj (he.symm.trans he')]

theorem resolve?_eq_some_iff {e : Edge} {x : StoredEdge} :
    s.resolve? e = some x ↔
      x.edge = e ∧ s.number? e.source = some x.source ∧ s.number? e.target = some x.target := by
  unfold resolve?
  split
  · rename_i a b ha hb
    rw [ha, hb]
    cases x
    simp [eq_comm]
  · rename_i hnot
    constructor
    · intro h
      cases h
    · rintro ⟨-, ha, hb⟩
      exact absurd hb (hnot _ _ ha)

/-- An edge is resolved in the store if it is resolved in the index, with the entities under its two numbers. -/
theorem Numbered.resolve_cases (h : s.Numbered) (e : Edge) :
    (s.resolve? e = none ∧ Index.resolve s.entities e = none) ∨
      ∃ x a b, s.resolve? e = some x ∧ Index.resolve s.entities e = some ⟨e, a, b⟩ ∧
        s.entities[x.source]? = some a ∧ s.entities[x.target]? = some b := by
  unfold resolve? Index.resolve
  rw [h.lookUp_eq, h.lookUp_eq]
  cases ha : s.number? e.source with
  | none => exact .inl ⟨rfl, by simp [entity?, ha]⟩
  | some n =>
    cases hb : s.number? e.target with
    | none => exact .inl ⟨rfl, by simp [entity?, hb]⟩
    | some m =>
      obtain ⟨a, hsource, -⟩ := h.exists_entity ha
      obtain ⟨b, htarget, -⟩ := h.exists_entity hb
      exact .inr ⟨⟨e, n, m⟩, a, b, rfl, by simp [entity?, ha, hb, hsource, htarget], hsource, htarget⟩

/-- Under each number stands an edge with the entities that its link has, or there is none. -/
theorem getElem?_links (g : Graph) (extra : Option Entity) (i : ℕ) :
    let s := ofGraph g extra
    (s.edges[i]? = none ∧ (Index.ofGraph g extra).links[i]? = none) ∨
      ∃ x l, s.edges[i]? = some x ∧ (Index.ofGraph g extra).links[i]? = some l ∧ x.edge = l.edge ∧
        (∀ d, s.number? (l.edge.near d) = some (x.near d)) ∧ ∀ d, s.entities[x.far d]? = some (l.far d) := by
  intro s
  have hlinks : (Index.ofGraph g extra).links = g.edges.filterMap (Index.resolve s.entities) := by
    rw [entities_ofGraph]
    rfl
  rw [hlinks, edges_ofGraph]
  have hs : s.Numbered := numbered_ofGraph g extra
  show ((g.edges.filterMap s.resolve?)[i]? = none ∧ _) ∨ ∃ x l, (g.edges.filterMap s.resolve?)[i]? = some x ∧ _
  induction g.edges generalizing i with
  | nil => exact .inl ⟨rfl, rfl⟩
  | cons e edges ih =>
    rcases hs.resolve_cases e with ⟨hnone, hnone'⟩ | ⟨x, a, b, hx, hlink, ha, hb⟩
    · rw [List.filterMap_cons_none hnone, List.filterMap_cons_none hnone']
      exact ih i
    · rw [List.filterMap_cons_some hx, List.filterMap_cons_some hlink]
      cases i with
      | succ i => exact ih i
      | zero =>
        obtain ⟨hedge, hsource, htarget⟩ := resolve?_eq_some_iff.1 hx
        refine .inr ⟨x, ⟨e, a, b⟩, rfl, rfl, hedge, ?_, ?_⟩
        · intro d
          cases d with
          | outgoing => exact hsource
          | incoming => exact htarget
        · intro d
          cases d with
          | outgoing => exact hb
          | incoming => exact ha

theorem length_edges_ofGraph (g : Graph) (extra : Option Entity) :
    (ofGraph g extra).edges.length = (Index.ofGraph g extra).links.length := by
  apply Nat.le_antisymm
  · by_contra hlt
    rcases getElem?_links g extra (Index.ofGraph g extra).links.length with ⟨hnone, -⟩ | ⟨x, l, -, hl, -⟩
    · exact hlt (List.getElem?_eq_none_iff.1 hnone)
    · rw [List.getElem?_eq_none (Nat.le_refl _)] at hl
      cases hl
  · by_contra hlt
    rcases getElem?_links g extra (ofGraph g extra).edges.length with ⟨-, hnone⟩ | ⟨x, l, hx, -⟩
    · exact hlt (List.getElem?_eq_none_iff.1 hnone)
    · rw [List.getElem?_eq_none (Nat.le_refl _)] at hx
      cases hx

theorem dangling_eq (g : Graph) (extra : Option Entity) :
    (ofGraph g extra).dangling = (Index.ofGraph g extra).dangling := by
  rw [dangling_ofGraph]
  show _ = g.edges.countP fun e => (Index.resolve (Index.ofGraph g extra).entities e).isNone
  rw [← entities_ofGraph]
  congr 1
  funext e
  rcases (numbered_ofGraph g extra).resolve_cases e with ⟨hnone, hnone'⟩ | ⟨x, a, b, hx, hlink, -⟩
  · rw [hnone, hnone']
    rfl
  · rw [hx, hlink]
    rfl

/-! ### From what is told to the answer -/

/-- What is wanted of the links, each under its number. -/
def underNumbers (want : Link → Option (Edge × Entity)) (links : List Link) : List (ℕ × Edge × Entity) :=
  links.zipIdx.filterMap fun x => (want x.1).map fun q => (x.2, q)

theorem mem_underNumbers {want : Link → Option (Edge × Entity)} {links : List Link} {i : ℕ} {q : Edge × Entity} :
    (i, q) ∈ underNumbers want links ↔ ∃ l, links[i]? = some l ∧ want l = some q := by
  rw [underNumbers, List.mem_filterMap]
  constructor
  · rintro ⟨⟨l, j⟩, hl, hq⟩
    obtain ⟨q', hq', heq⟩ := Option.map_eq_some_iff.1 hq
    obtain ⟨rfl, rfl⟩ := Prod.mk.inj heq
    exact ⟨l, List.mem_zipIdx_iff_getElem?.1 hl, hq'⟩
  · rintro ⟨l, hl, hq⟩
    exact ⟨(l, i), List.mem_zipIdx_iff_getElem?.2 hl, by rw [hq]; rfl⟩

theorem map_snd_underNumbers (want : Link → Option (Edge × Entity)) (links : List Link) :
    (underNumbers want links).map Prod.snd = links.filterMap want := by
  simp only [underNumbers, List.map_filterMap, Option.map_map, Function.comp_def, Option.map_id']
  conv_rhs => rw [← List.zipIdx_map_fst 0 links, List.filterMap_map]
  rfl

theorem pairwise_underNumbers (want : Link → Option (Edge × Entity)) (links : List Link) :
    (underNumbers want links).Pairwise fun a b => a.1 < b.1 := by
  refine List.pairwise_filterMap.2 ((Text.pairwise_zipIdx links).imp ?_)
  rintro x y hxy a ha b hb
  obtain ⟨q, -, rfl⟩ := Option.map_eq_some_iff.1 ha
  obtain ⟨q', -, rfl⟩ := Option.map_eq_some_iff.1 hb
  exact hxy

/-- If each wanted link comes once, under its number, then in the order of numbers these are the wanted links in
their order. -/
theorem inOrder_eq {links : List Link} {want : Link → Option (Edge × Entity)} {found : List (ℕ × Edge × Entity)}
    (hnodup : (found.map Prod.fst).Nodup)
    (hmem : ∀ i q, (i, q) ∈ found ↔ ∃ l, links[i]? = some l ∧ want l = some q) :
    inOrder found = links.filterMap want := by
  have hincreasing := pairwise_underNumbers want links
  have hperm : found.Perm (underNumbers want links) := by
    refine (List.perm_ext_iff_of_nodup hnodup.of_map (hincreasing.imp ?_)).2 ?_
    · rintro a b hlt rfl
      exact Nat.lt_irrefl _ hlt
    · rintro ⟨i, q⟩
      rw [hmem, mem_underNumbers]
  have hstrict : (underNumbers want links).Pairwise fun a b =>
      decide (a.1 ≤ b.1) = true ∧ decide (b.1 ≤ a.1) = false := by
    refine hincreasing.imp ?_
    intro a b hlt
    exact ⟨decide_eq_true (Nat.le_of_lt hlt), decide_eq_false (Nat.not_le.2 hlt)⟩
  rw [inOrder, Text.mergeSort_eq_of_strict ?_ ?_ hperm hstrict, map_snd_underNumbers]
  · intro a b c hab hbc
    exact decide_eq_true (Nat.le_trans (of_decide_eq_true hab) (of_decide_eq_true hbc))
  · intro a b
    simpa using Nat.le_total a.1 b.1

variable {edgesDirected : Adjacency}

theorem found?_ofGraph (d : Direction) (i : ℕ) :
    (ofGraph g extra).found? d i = (Index.ofGraph g extra).links[i]?.map fun l => (i, l.edge, l.far d) := by
  rw [found?]
  rcases getElem?_links g extra i with ⟨hx, hl⟩ | ⟨x, l, hx, hl, hedge, -, hfar⟩
  · rw [hx, hl]
    rfl
  · rw [hx, hl, Option.bind_some, hfar, hedge]
    rfl

theorem isLoop_ofGraph (i : ℕ) :
    (ofGraph g extra).isLoop i =
      (Index.ofGraph g extra).links[i]?.any fun l => l.edge.source = l.edge.target := by
  rw [isLoop]
  rcases getElem?_links g extra i with ⟨hx, hl⟩ | ⟨x, l, hx, hl, -, hnear, -⟩
  · rw [hx, hl]
    rfl
  · rw [hx, hl, Option.any_some, Option.any_some, Bool.eq_iff_iff, decide_eq_true_eq, decide_eq_true_eq]
    have hsource := hnear .outgoing
    have htarget := hnear .incoming
    constructor
    · intro h
      rw [StoredEdge.near, h] at hsource
      exact (numbered_ofGraph g extra).id_unique hsource htarget
    · intro h
      exact Option.some.inj (hsource.symm.trans ((congrArg _ h).trans htarget))

/-- What is told at an id are the numbers of the links there. -/
theorem Enumerates.mem_iff_link (h : (ofGraph g extra).Enumerates edgesDirected) {id : String} {n : ℕ}
    (hn : (ofGraph g extra).number? id = some n) {d : Direction} {i : ℕ} :
    i ∈ edgesDirected n d ↔ ∃ l, (Index.ofGraph g extra).links[i]? = some l ∧ l.edge.near d = id := by
  rw [h.mem_iff]
  rcases getElem?_links g extra i with ⟨hx, hl⟩ | ⟨x, l, hx, hl, -, hnear, -⟩
  · rw [hx, hl]
    simp
  · rw [hx, hl]
    constructor
    · rintro ⟨x', hx', rfl⟩
      cases hx'
      exact ⟨l, rfl, (numbered_ofGraph g extra).id_unique (hnear d) hn⟩
    · rintro ⟨l', hl', rfl⟩
      cases hl'
      exact ⟨x, rfl, Option.some.inj ((hnear d).symm.trans hn)⟩

/-- Of what is told to enter at an id, those that are no loops do not leave there. -/
theorem Enumerates.mem_not_loop_iff (h : (ofGraph g extra).Enumerates edgesDirected) {id : String} {n : ℕ}
    (hn : (ofGraph g extra).number? id = some n) {i : ℕ} :
    i ∈ (edgesDirected n .incoming).filter (fun i => !(ofGraph g extra).isLoop i) ↔
      ∃ l, (Index.ofGraph g extra).links[i]? = some l ∧ l.edge.target = id ∧ l.edge.source ≠ id := by
  rw [List.mem_filter, h.mem_iff_link hn, isLoop_ofGraph]
  constructor
  · rintro ⟨⟨l, hl, rfl⟩, hloop⟩
    rw [hl] at hloop
    exact ⟨l, hl, rfl, by simpa [Edge.near] using hloop⟩
  · rintro ⟨l, hl, rfl, hloop⟩
    rw [hl]
    exact ⟨⟨l, rfl, rfl⟩, by simpa using hloop⟩

/-- An id without a number is at no link. -/
theorem near_ne_of_unknown {id : String} (hid : (ofGraph g extra).number? id = none) {l : Link}
    (hl : l ∈ (Index.ofGraph g extra).links) (d : Direction) : l.edge.near d ≠ id := by
  rintro rfl
  obtain ⟨i, hi⟩ := List.mem_iff_getElem?.1 hl
  rcases getElem?_links g extra i with ⟨-, hnone⟩ | ⟨x, l', -, hl', -, hnear, -⟩
  · rw [hnone] at hi
    cases hi
  · cases hl'.symm.trans hi
    rw [hnear d] at hid
    cases hid

/-- The links that go in one direction, each with its other end. -/
theorem mem_filterMap_found? {numbers : List ℕ} {d : Direction} {i : ℕ} {q : Edge × Entity} :
    (i, q) ∈ numbers.filterMap ((ofGraph g extra).found? d) ↔
      i ∈ numbers ∧ ∃ l, (Index.ofGraph g extra).links[i]? = some l ∧ (l.edge, l.far d) = q := by
  simp only [List.mem_filterMap, found?_ofGraph, Option.map_eq_some_iff]
  constructor
  · rintro ⟨j, hj, l, hl, heq⟩
    obtain ⟨rfl, rfl⟩ := Prod.mk.inj heq
    exact ⟨hj, l, hl, rfl⟩
  · rintro ⟨hi, l, hl, rfl⟩
    exact ⟨i, hi, l, hl, rfl⟩

theorem nodup_map_fst_found? {numbers : List ℕ} (h : numbers.Nodup) (d : Direction) :
    ((numbers.filterMap ((ofGraph g extra).found? d)).map Prod.fst).Nodup := by
  rw [List.map_filterMap]
  refine h.filterMap ?_
  intro i j k hi hj
  simp only [found?_ofGraph, Option.map_map, Option.map_eq_some_iff, Option.mem_def,
    Function.comp_apply] at hi hj
  obtain ⟨-, -, rfl⟩ := hi
  obtain ⟨-, -, hk⟩ := hj
  exact hk.symm

/-- One pass and a sort give the links in one direction. -/
theorem directed_ofGraph (h : (ofGraph g extra).Enumerates edgesDirected) (id : String) (d : Direction) :
    (ofGraph g extra).directed edgesDirected id d =
      (Index.ofGraph g extra).links.filterMap fun l =>
        if l.edge.near d = id then some (l.edge, l.far d) else none := by
  rw [directed]
  cases hn : (ofGraph g extra).number? id with
  | none =>
    symm
    refine List.filterMap_eq_nil_iff.2 fun l hl => ?_
    rw [if_neg (near_ne_of_unknown hn hl d)]
  | some n =>
    refine inOrder_eq (nodup_map_fst_found? (h.once n d) d) ?_
    intro i q
    rw [mem_filterMap_found?, h.mem_iff_link hn]
    constructor
    · rintro ⟨⟨l, hl, hid⟩, l', hl', rfl⟩
      cases hl.symm.trans hl'
      exact ⟨l, hl, if_pos hid⟩
    · rintro ⟨l, hl, hq⟩
      obtain ⟨hid, hq⟩ := Option.ite_none_right_eq_some.1 hq
      exact ⟨⟨l, hl, hid⟩, l, hl, Option.some.inj hq⟩

/-- Two passes, of which the second leaves out loops, and a sort give the links in either direction. -/
theorem touching_ofGraph (h : (ofGraph g extra).Enumerates edgesDirected) (id : String) :
    (ofGraph g extra).touching edgesDirected id = (Index.ofGraph g extra).touching id := by
  rw [touching, Index.touching]
  cases hn : (ofGraph g extra).number? id with
  | none =>
    symm
    refine List.filterMap_eq_nil_iff.2 fun l hl => ?_
    exact (if_neg (near_ne_of_unknown hn hl .outgoing)).trans (if_neg (near_ne_of_unknown hn hl .incoming))
  | some n =>
    refine inOrder_eq ?_ ?_
    · rw [List.map_append]
      refine List.nodup_append.2 ⟨nodup_map_fst_found? (h.once n _) _,
        nodup_map_fst_found? ((h.once n _).filter _) _, ?_⟩
      -- what comes in the second pass does not leave the id, so it did not come in the first
      intro i hi j hj hij
      subst hij
      obtain ⟨⟨i, q⟩, hq, rfl⟩ := List.mem_map.1 hi
      obtain ⟨⟨j, q'⟩, hq', rfl : j = i⟩ := List.mem_map.1 hj
      obtain ⟨l, hl, hsource⟩ := (h.mem_iff_link hn).1 (mem_filterMap_found?.1 hq).1
      obtain ⟨l', hl', -, hnot⟩ := (h.mem_not_loop_iff hn).1 (mem_filterMap_found?.1 hq').1
      cases hl.symm.trans hl'
      exact hnot hsource
    · intro i q
      rw [List.mem_append, mem_filterMap_found?, mem_filterMap_found?, h.mem_iff_link hn,
        h.mem_not_loop_iff hn]
      constructor
      · rintro (⟨⟨l, hl, hsource⟩, l', hl', rfl⟩ | ⟨⟨l, hl, htarget, hsource⟩, l', hl', rfl⟩)
        · cases hl.symm.trans hl'
          exact ⟨l, hl, if_pos hsource⟩
        · cases hl.symm.trans hl'
          exact ⟨l, hl, (if_neg hsource).trans (if_pos htarget)⟩
      · rintro ⟨l, hl, hq⟩
        by_cases hsource : l.edge.source = id
        · rw [if_pos hsource] at hq
          exact .inl ⟨⟨l, hl, hsource⟩, l, hl, Option.some.inj hq⟩
        · rw [if_neg hsource] at hq
          obtain ⟨htarget, hq⟩ := Option.ite_none_right_eq_some.1 hq
          exact .inr ⟨⟨l, hl, htarget, hsource⟩, l, hl, Option.some.inj hq⟩

end

/-- The store holds what the index holds, and gives the same answers. -/
structure AnswersAs (s : EdgeStore) (edgesDirected : Adjacency) (index : Index) : Prop where
  entities : s.entities = index.entities
  entity? : ∀ id, s.entity? id = index.entity? id
  edge_count : s.edges.length = index.links.length
  dangling : s.dangling = index.dangling
  outgoing : ∀ id, s.directed edgesDirected id .outgoing = index.outgoing id
  incoming : ∀ id, s.directed edgesDirected id .incoming = index.incoming id
  touching : ∀ id, s.touching edgesDirected id = index.touching id

/-- However the edges at an entity are enumerated, the answers are those of the index. -/
theorem answersAs_ofGraph {g : Graph} {extra : Option Entity} {edgesDirected : Adjacency}
    (h : (ofGraph g extra).Enumerates edgesDirected) :
    (ofGraph g extra).AnswersAs edgesDirected (Index.ofGraph g extra) where
  entities := entities_ofGraph g extra
  entity? := entity?_ofGraph g extra
  edge_count := length_edges_ofGraph g extra
  dangling := dangling_eq g extra
  outgoing id := directed_ofGraph h id .outgoing
  incoming id := directed_ofGraph h id .incoming
  touching id := touching_ofGraph h id

/-! ### Newest first -/

/-- Of the edges at an entity, the one that was added last comes first. -/
def newestFirst (s : EdgeStore) : Adjacency := fun n d =>
  ((s.edges.zipIdx.filter fun x => x.1.near d = n).map Prod.snd).reverse

theorem enumerates_newestFirst (s : EdgeStore) : s.Enumerates s.newestFirst where
  once n d := by
    refine List.nodup_reverse.2 ?_
    have hplaces : (s.edges.zipIdx.filter fun x => x.1.near d = n).Pairwise fun x y => x.2 < y.2 :=
      (Text.pairwise_zipIdx s.edges).filter _
    exact List.pairwise_map.2 (hplaces.imp Nat.ne_of_lt)
  mem_iff n d i := by
    simp [newestFirst, List.mem_zipIdx_iff_getElem?]

end EdgeStore

end CodeAtlas
