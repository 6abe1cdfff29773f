import CodeAtlas.Proofs.Filter.Restrict
import CodeAtlas.Proofs.Hierarchy.Provenance
import CodeAtlas.Reference.Analyze

/-!
# Edges that dangle

An edge dangles if one of its ends is no known id.  Such edges may stand anywhere among the edges of a graph,
in any number, and nothing that is computed from the graph takes notice, except for the count of edges that a
filter was given.

* `Interleaves l extra whole` — `whole` is `l` with the items of `extra` put in somewhere;
* `Index.links_of_interleaves` — the index has the same links with and without dangling edges.  Edges are
  always followed through the links, so trees, detours and references cannot tell the difference
  (`Tree.build_congr_links`, `Bridge.between_congr_links`, `ReferenceFile.analyze_congr_links`);
* `Graph.restrict_of_interleaves` — a restriction is the same up to the count of edges before it;
* `Graph.dangling_edges_unnoticed` — all of it together.
-/

namespace CodeAtlas

/-! ### Putting items into a list -/

/-- The whole holds the items of two lists, those of each list in their order. -/
inductive Interleaves {α : Type} : (l extra whole : List α) → Prop where
  | nil : Interleaves [] [] []
  | old {a : α} {l extra whole : List α} : Interleaves l extra whole → Interleaves (a :: l) extra (a :: whole)
  | new {a : α} {l extra whole : List α} : Interleaves l extra whole → Interleaves l (a :: extra) (a :: whole)

namespace Interleaves

variable {α β : Type} {l extra whole : List α}

theorem length_eq (h : Interleaves l extra whole) : whole.length = l.length + extra.length := by
  induction h with
  | nil => rfl
  | old _ ih =>
    simp only [List.length_cons, ih]
    omega
  | new _ ih =>
    simp only [List.length_cons, ih]
    omega

/-- A view that shows none of the items put in does not change. -/
theorem filterMap_eq {f : α → Option β} (h : Interleaves l extra whole) (hf : ∀ a ∈ extra, f a = none) :
    whole.filterMap f = l.filterMap f := by
  induction h with
  | nil => rfl
  | @old a l extra whole _ ih =>
    rw [List.filterMap_cons, List.filterMap_cons, ih hf]
  | @new a l extra whole _ ih =>
    rw [List.filterMap_cons_none (hf a List.mem_cons_self)]
    exact ih fun b hb => hf b (List.mem_cons_of_mem a hb)

theorem filter_eq {p : α → Bool} (h : Interleaves l extra whole) (hp : ∀ a ∈ extra, p a = false) :
    whole.filter p = l.filter p := by
  have hguard := h.filterMap_eq (f := Option.guard fun a => p a) fun a ha => by
    rw [Option.guard_eq_none_iff, hp a ha]
  rwa [List.filterMap_eq_filter] at hguard

end Interleaves

/-- One end of the edge is not among the ids. -/
def Edge.Dangles (e : Edge) (ids : List String) : Prop :=
  e.source ∉ ids ∨ e.target ∉ ids

instance (e : Edge) (ids : List String) : Decidable (e.Dangles ids) :=
  inferInstanceAs (Decidable (_ ∨ _))

/-! ### Links -/

namespace Index

theorem outgoing_congr {index index' : Index} (h : index.links = index'.links) (a : String) :
    index.outgoing a = index'.outgoing a := by
  rw [outgoing, outgoing, h]

/-- Dangling edges make no links. -/
theorem links_of_interleaves {g : Graph} (extra : Option Entity) {inserted edges : List Edge}
    (hedges : Interleaves g.edges inserted edges) (h : ∀ e ∈ inserted, e.Dangles (knownIds g extra)) :
    (ofGraph { g with edges := edges } extra).links = (ofGraph g extra).links := by
  show edges.filterMap (resolve (ofGraph g extra).entities) =
    g.edges.filterMap (resolve (ofGraph g extra).entities)
  refine hedges.filterMap_eq fun e he => ?_
  rcases resolve_cases g extra e with ⟨s, t, -, -, -, hs, ht⟩ | ⟨hnone, -⟩
  · rcases h e he with hsource | htarget
    · exact absurd hs hsource
    · exact absurd ht htarget
  · exact hnone

theorem links_around_of_interleaves {selected : Entity} {g : Graph} {inserted edges : List Edge}
    (hedges : Interleaves g.edges inserted edges)
    (h : ∀ e ∈ inserted, e.Dangles (selected.id :: g.ids)) :
    (around selected { g with edges := edges }).links = (around selected g).links := by
  refine links_of_interleaves (extraFor selected g) hedges fun e he => ?_
  rcases h e he with hsource | htarget
  · exact Or.inl fun hs => hsource (mem_knownIds_around.1 hs)
  · exact Or.inr fun ht => htarget (mem_knownIds_around.1 ht)

end Index

/-! ### Whatever follows links -/

namespace Bridge

variable {index index' : Index}

theorem detours_congr_links (h : index.links = index'.links) (kept : String → Bool) (hops : ℕ)
    (path : List String) (last : String) :
    detours index kept hops path last = detours index' kept hops path last := by
  induction hops generalizing path last with
  | zero => rfl
  | succ hops ih =>
    rw [detours, detours, Index.outgoing_congr h]
    simp only [ih]

theorem between_congr_links (h : index.links = index'.links) (kept : String → Bool)
    (starts : List String) : between index kept starts = between index' kept starts := by
  rw [between, between]
  simp only [detours_congr_links h]

end Bridge

namespace Contribution

variable {index index' : Index}

theorem neighbourhood_congr_links (h : index.links = index'.links) (selected : Entity) (hops : ℕ) :
    neighbourhood index selected hops = neighbourhood index' selected hops := by
  rw [neighbourhood, neighbourhood]
  simp only [Index.touching_congr h]

theorem of?_congr_links (h : index.links = index'.links) (extract : Extractor) (selected : Entity)
    (hop : ℕ) (e : Entity) : of? index extract selected hop e = of? index' extract selected hop e := by
  have hshared : sharedEdge? index selected e = sharedEdge? index' selected e := by
    rw [sharedEdge?, sharedEdge?, Index.touching_congr h]
  simp only [of?, usagesIn, hshared]

end Contribution

theorem ReferenceFile.analyze_congr_links {selected : Entity} {g g' : Graph}
    (h : (Index.around selected g).links = (Index.around selected g').links) (extract : Extractor)
    (root : Option String) (hops : ℕ) :
    analyze extract root selected g hops = analyze extract root selected g' hops := by
  simp only [analyze, Contribution.all, Contribution.neighbourhood_congr_links h,
    Contribution.of?_congr_links h]

/-! ### Restrictions -/

/-- The counts with more edges before filtering. -/
def FilterStats.withMoreEdgesBefore (s : FilterStats) (count : ℕ) : FilterStats :=
  { s with edgesBefore := s.edgesBefore + count }

namespace Graph

variable {g : Graph} {selected : Entity} {inserted edges : List Edge}

/-- Of dangling edges a restriction keeps only the count of what it was given. -/
theorem restrict_of_interleaves (hedges : Interleaves g.edges inserted edges)
    (h : ∀ e ∈ inserted, e.Dangles g.ids) (keep : Entity → Bool) (bridged : Bool) :
    { g with edges := edges }.restrict keep bridged =
      { g.restrict keep bridged with
        stats := (g.restrict keep bridged).stats.withMoreEdgesBefore inserted.length } := by
  have hlinks : (Index.ofGraph { g with edges := edges } none).links = (Index.ofGraph g none).links := by
    refine Index.links_of_interleaves none hedges fun e he => ?_
    rw [Index.knownIds, Option.toList_none, List.append_nil]
    exact h e he
  have hkept : (edges.filter fun e => g.keeps keep e.source && g.keeps keep e.target) =
      g.edges.filter fun e => g.keeps keep e.source && g.keeps keep e.target := by
    refine hedges.filter_eq fun e he => ?_
    rw [Bool.and_eq_false_iff]
    rcases h e he with hsource | htarget
    · exact Or.inl (Bool.eq_false_iff.2 fun hs => hsource (mem_ids_of_keeps hs))
    · exact Or.inr (Bool.eq_false_iff.2 fun ht => htarget (mem_ids_of_keeps ht))
  have hbridges : ∀ kept starts,
      Bridge.between (Index.ofGraph { g with edges := edges } none) kept starts =
        Bridge.between (Index.ofGraph g none) kept starts :=
    Bridge.between_congr_links hlinks
  unfold keeps at hkept
  simp only [restrict, FilterStats.withMoreEdgesBefore, hbridges, hkept, hedges.length_eq]

theorem filterPinned_of_interleaves {options : FilterOptions} (hactive : options.active = true)
    (hedges : Interleaves g.edges inserted edges) (h : ∀ e ∈ inserted, e.Dangles g.ids)
    (pinned : Option String) :
    { g with edges := edges }.filterPinned options pinned =
      { g.filterPinned options pinned with
        stats := (g.filterPinned options pinned).stats.withMoreEdgesBefore inserted.length } := by
  rw [filterPinned_eq hactive, filterPinned_eq hactive, restrict_of_interleaves hedges h]

/-- **Dangling edges go unnoticed.**  Put edges anywhere among those of a graph, each with an end that is
neither an id of the graph nor the selected id.  The tree, the references and the filtered graph with its
bridges stay the same, and so does the filtered tree.  Only the count of edges before filtering grows, by as
many as were put in. -/
theorem dangling_edges_unnoticed (selected : Entity) (g : Graph) (options : FilterOptions)
    (hactive : options.active = true) (hedges : Interleaves g.edges inserted edges)
    (h : ∀ e ∈ inserted, e.Dangles (selected.id :: g.ids)) :
    (∀ maxDepth, Tree.build selected { g with edges := edges } maxDepth = Tree.build selected g maxDepth) ∧
    (∀ maxDepth, Tree.buildFiltered selected { g with edges := edges } maxDepth options =
      { Tree.buildFiltered selected g maxDepth options with
        filterStats := (Tree.buildFiltered selected g maxDepth options).filterStats.map
          (·.withMoreEdgesBefore inserted.length) }) ∧
    (∀ extract root hops, ReferenceFile.analyze extract root selected { g with edges := edges } hops =
      ReferenceFile.analyze extract root selected g hops) ∧
    { g with edges := edges }.filterByCategory options =
      { g.filterByCategory options with
        stats := (g.filterByCategory options).stats.withMoreEdgesBefore inserted.length } := by
  have hids : ∀ e ∈ inserted, e.Dangles g.ids := fun e he =>
    (h e he).imp (fun hs hmem => hs (List.mem_cons_of_mem _ hmem))
      fun ht hmem => ht (List.mem_cons_of_mem _ hmem)
  have hlinks := Index.links_around_of_interleaves hedges h
  refine ⟨?_, ?_, ?_, filterPinned_of_interleaves hactive hedges hids none⟩
  · intro maxDepth
    exact Tree.build_congr_links hlinks
  · intro maxDepth
    rw [Tree.buildFiltered, Tree.buildFiltered, if_pos hactive, if_pos hactive,
      filterPinned_of_interleaves hactive hedges hids]
    rfl
  · intro extract root hops
    exact ReferenceFile.analyze_congr_links hlinks extract root hops

/-- A class stands between two functions.  The second function uses the first one by name. -/
def throughClass : Graph :=
  { nodes := [Entity.plain "a" "function", Entity.plain "b" "class",
      { Entity.plain "c" "function" with file := some "src/main", code := some "a()" }]
    edges := [Edge.plain "a" "b", Edge.plain "b" "c"] }

/-- The filter lays a bridge over the class, and the search finds a usage two hops away. -/
theorem dangling_edges_unnoticed_throughClass :
    let options := FilterOptions.only "function"
    let inserted := [Edge.plain "b" "ghost", Edge.plain "ghost" "a"]
    let edges := [Edge.plain "b" "ghost", Edge.plain "a" "b", Edge.plain "ghost" "a", Edge.plain "b" "c"]
    let selected := Entity.plain "a" "function"
    let extract := Usage.find UsageRule.unlimited
    (options.active = true ∧ Interleaves throughClass.edges inserted edges ∧
      ∀ e ∈ inserted, e.Dangles (selected.id :: throughClass.ids)) ∧
    Tree.build selected { throughClass with edges := edges } 2 = Tree.build selected throughClass 2 ∧
    Tree.buildFiltered selected { throughClass with edges := edges } 2 options =
      { Tree.buildFiltered selected throughClass 2 options with
        filterStats := (Tree.buildFiltered selected throughClass 2 options).filterStats.map
          (·.withMoreEdgesBefore 2) } ∧
    (ReferenceFile.analyze extract none selected { throughClass with edges := edges } 2 =
        ReferenceFile.analyze extract none selected throughClass 2 ∧
      (ReferenceFile.analyze extract none selected throughClass 2).map ReferenceFile.totalUsages = [1]) ∧
    { throughClass with edges := edges }.filterByCategory options =
        { throughClass.filterByCategory options with
          stats := (throughClass.filterByCategory options).stats.withMoreEdgesBefore 2 } ∧
      (throughClass.filterByCategory options).bridges.map Bridge.path = [["a", "b", "c"]] := by
  intro options inserted edges selected extract
  have hedges : Interleaves throughClass.edges inserted edges := .new (.old (.new (.old .nil)))
  have hdangle : ∀ e ∈ inserted, e.Dangles (selected.id :: throughClass.ids) := by decide
  obtain ⟨htree, hfiltered, hreferences, hfilter⟩ :=
    dangling_edges_unnoticed selected throughClass options rfl hedges hdangle
  exact ⟨⟨rfl, hedges, hdangle⟩, htree 2, hfiltered 2, ⟨hreferences extract none 2, by decide +kernel⟩, hfilter,
    by decide +kernel⟩

end Graph

end CodeAtlas
