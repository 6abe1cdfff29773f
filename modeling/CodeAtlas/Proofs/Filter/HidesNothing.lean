import CodeAtlas.Proofs.Filter.Restrict
import CodeAtlas.Proofs.Hierarchy.Provenance

/-!
# A filter that hides nothing

Where every entity of a graph has an allowed category, a filter keeps all entities, finds no detour to
bridge and drops only edges that dangle (`Graph.graph_restrict_of_keeps_all`).  For a selected entity of
the graph such edges are no links, and the filtered tree is the plain one.

For a selected entity that the graph does not list the two trees differ.  Building a plain tree adds the
entity to the index and follows its edges.  Filtering comes before that: it looks at the entities of the
graph alone, takes the edges of the selected entity for dangling ones and drops them, so the filtered tree
is a root without neighbours at any depth (`Tree.buildFiltered_of_all_allowed`).
-/

namespace CodeAtlas

open PlacedEdge

namespace Graph

variable {g : Graph}

/-- A detour passes a known id that is hidden. -/
theorem IsDetour.exists_hidden {kept : String → Bool} {a : String} {t : List PlacedEdge}
    (h : g.IsDetour kept a t) : ∃ id ∈ g.ids, kept id = false := by
  obtain ⟨mid, z, -, hmid, -, hlen⟩ := h.path_eq
  cases mid with
  | nil => simp at hlen
  | cons b mid =>
    have hb : b ∈ (targets t).dropLast := by
      rw [← hmid]
      exact List.mem_cons_self
    obtain ⟨x, hx, rfl⟩ := List.mem_map.1 (List.dropLast_subset _ hb)
    exact ⟨_, (h.resolved x hx).2, h.hidden _ hb⟩

variable {keep : Entity → Bool}

theorem keeps_eq_of_keeps_all (hkeep : ∀ e ∈ g.nodes, keep e = true) (id : String) :
    g.keeps keep id = decide (id ∈ g.ids) := by
  rw [keeps, List.filter_eq_self.2 hkeep, Bool.eq_iff_iff, List.contains_iff_mem, decide_eq_true_eq]
  rfl

theorem bridges_restrict_of_keeps_all (hkeep : ∀ e ∈ g.nodes, keep e = true) (bridged : Bool) :
    (g.restrict keep bridged).bridges = [] := by
  cases bridged with
  | false => rfl
  | true =>
    rw [List.eq_nil_iff_forall_not_mem]
    intro b hb
    obtain ⟨-, t, ht, -⟩ := exists_isDetour_of_mem_bridges hb
    obtain ⟨id, hid, hhidden⟩ := ht.exists_hidden
    rw [keeps_eq_of_keeps_all hkeep, decide_eq_false_iff_not] at hhidden
    exact hhidden hid

/-- Nothing is hidden: all entities stay, and all edges between them. -/
theorem graph_restrict_of_keeps_all (hkeep : ∀ e ∈ g.nodes, keep e = true) (bridged : Bool) :
    (g.restrict keep bridged).graph = { nodes := g.nodes, edges := g.edgesAmong g.ids } := by
  have hnodes : (g.restrict keep bridged).graph.nodes = g.nodes := List.filter_eq_self.2 hkeep
  have hedges : (g.restrict keep bridged).graph.edges = g.edgesAmong g.ids := by
    rw [edges_restrict, bridges_restrict_of_keeps_all hkeep, List.map_nil, List.append_nil]
    refine List.filter_congr fun e _ => ?_
    rw [keeps_eq_of_keeps_all hkeep, keeps_eq_of_keeps_all hkeep, Bool.decide_and]
  rw [← hnodes, ← hedges]

end Graph

namespace Tree

variable {selected : Entity} {g : Graph} {maxDepth : ℕ} {options : FilterOptions}

/-- Without its filter summary, a filtered tree is a tree over the filtered graph. -/
theorem buildFiltered_eq (hactive : options.active = true) :
    { buildFiltered selected g maxDepth options with filterStats := none, bridges := none } =
      build selected (g.filterPinned options (some selected.id)).graph maxDepth := by
  rw [buildFiltered, if_pos hactive]
  rfl

/-- Edges with an end outside the graph are no links as seen from an entity of the graph. -/
theorem build_edgesAmong (hselected : selected.id ∈ g.ids) :
    build selected { g with edges := g.edgesAmong g.ids } maxDepth = build selected g maxDepth := by
  have hextra : Index.extraFor selected g = none := by
    rw [Index.extraFor, if_pos (Graph.entity?_isSome_iff.2 hselected)]
  apply build_congr_links
  show (Index.ofGraph { g with edges := g.edgesAmong g.ids } (Index.extraFor selected g)).links =
    (Index.ofGraph g (Index.extraFor selected g)).links
  rw [hextra]
  apply Index.links_filter_edges
  intro e _ hdropped hknown
  rw [decide_eq_false_iff_not] at hdropped
  simp only [Index.knownIds, Option.toList_none, List.append_nil] at hknown
  exact hdropped hknown

/-- Seen from elsewhere, the edges between entities of the graph lead nowhere. -/
theorem build_edgesAmong_of_not_mem (hselected : selected.id ∉ g.ids) :
    build selected { g with edges := g.edgesAmong g.ids } maxDepth = alone selected := by
  apply build_eq_alone
  rw [List.eq_nil_iff_forall_not_mem]
  intro q hq
  obtain ⟨he, hjoins, -⟩ := Index.mem_touching_around hq
  obtain ⟨-, hs, ht⟩ := Graph.mem_edgesAmong.1 he
  rcases hjoins with ⟨hsource, -⟩ | ⟨-, htarget⟩
  · exact hselected (hsource ▸ hs)
  · exact hselected (htarget ▸ ht)

/-- **A filter that hides nothing.**  Where every category of the graph is allowed, the filtered tree of an
entity of the graph is its plain tree, and that of any other entity is its root alone. -/
theorem buildFiltered_of_all_allowed (selected : Entity) (g : Graph) (maxDepth : ℕ)
    (options : FilterOptions) (hactive : options.active = true)
    (hall : ∀ e ∈ g.nodes, options.categories.contains e.category = true) :
    (selected.id ∈ g.ids →
      { buildFiltered selected g maxDepth options with filterStats := none, bridges := none } =
        build selected g maxDepth) ∧
    (selected.id ∉ g.ids →
      { buildFiltered selected g maxDepth options with filterStats := none, bridges := none } =
        alone selected) := by
  have hgraph : (g.filterPinned options (some selected.id)).graph =
      { g with edges := g.edgesAmong g.ids } := by
    rw [Graph.filterPinned_eq hactive]
    apply Graph.graph_restrict_of_keeps_all
    intro e he
    rw [FilterOptions.allows, hall e he]
    rfl
  rw [buildFiltered_eq hactive, hgraph]
  exact ⟨build_edgesAmong, build_edgesAmong_of_not_mem⟩

/-- A function that an entity calls which is not listed. -/
def unlistedCaller : Graph :=
  { nodes := [Entity.plain "b" "function"]
    edges := [Edge.plain "a" "b", Edge.plain "b" "ghost"] }

theorem buildFiltered_of_all_allowed_unlistedCaller :
    (FilterOptions.only "function").active = true ∧
      (∀ e ∈ unlistedCaller.nodes, (FilterOptions.only "function").categories.contains e.category = true) ∧
      "b" ∈ unlistedCaller.ids ∧
      { buildFiltered (Entity.plain "b" "function") unlistedCaller 2 (FilterOptions.only "function") with
        filterStats := none, bridges := none } =
          build (Entity.plain "b" "function") unlistedCaller 2 ∧
      "a" ∉ unlistedCaller.ids ∧
      { buildFiltered (Entity.plain "a" "function") unlistedCaller 2 (FilterOptions.only "function") with
        filterStats := none, bridges := none } = alone (Entity.plain "a" "function") := by
  have hall : ∀ e ∈ unlistedCaller.nodes,
      (FilterOptions.only "function").categories.contains e.category = true := by decide
  have hb := buildFiltered_of_all_allowed (Entity.plain "b" "function") unlistedCaller 2
    (FilterOptions.only "function") rfl hall
  have ha := buildFiltered_of_all_allowed (Entity.plain "a" "function") unlistedCaller 2
    (FilterOptions.only "function") rfl hall
  exact ⟨rfl, hall, by decide, hb.1 (by decide), by decide, ha.2 (by decide)⟩

/-- The filter allows every category and the selected entity has a neighbour, yet the filtered tree shows
none. -/
theorem buildFiltered_loses_unlisted :
    (FilterOptions.only "function").active = true ∧
      (FilterOptions.only "function").categories.contains (Entity.plain "a" "function").category = true ∧
      (∀ e ∈ unlistedCaller.nodes, (FilterOptions.only "function").categories.contains e.category = true) ∧
      (build (Entity.plain "a" "function") unlistedCaller 2).root.children.map Node.id = ["b"] ∧
      (buildFiltered (Entity.plain "a" "function") unlistedCaller 2
        (FilterOptions.only "function")).root.children.map Node.id = [] := by
  refine ⟨rfl, by decide, by decide, ?_, ?_⟩
  · decide +kernel
  · decide +kernel

end Tree

end CodeAtlas
