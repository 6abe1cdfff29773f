import CodeAtlas.Proofs.Filter.HidesNothing

/-!
# What a filter reports, and filtering twice

The three lists of a filter's outcome are made in three ways: entities are kept one by one, edges by the ids
of kept entities, and bridges by a search that knows each id by its first entity, which need not be a kept
one.  `FilterOutcome.Accounts` says how the lists fit together and what the counts count.

The filtered graph is *closed*: each of its edges joins ids of its own entities.  An active filter leaves a
graph as it is exactly if the graph is closed and has no hidden entity
(`Graph.filterByCategory_eq_unfiltered_iff`).  So filtering a second time changes nothing.
-/

namespace CodeAtlas

namespace Bridge

/-! ### One bridge for a pair of ends -/

theorem ends_notMem_of_mem_firstPerPair {seen : List (String × String)} {l : List Bridge} {b : Bridge}
    (h : b ∈ between.firstPerPair seen l) : b.ends ∉ seen := by
  induction l generalizing seen with
  | nil => cases h
  | cons c rest ih =>
    rw [firstPerPair_cons] at h
    by_cases hc : c.ends ∈ seen
    · rw [if_pos hc] at h
      exact ih h
    · rw [if_neg hc] at h
      rcases List.mem_cons.1 h with rfl | h
      · exact hc
      · exact fun hb => ih h (List.mem_cons_of_mem _ hb)

/-- What is left over has no pair of ends twice. -/
theorem nodup_ends_firstPerPair (seen : List (String × String)) (l : List Bridge) :
    ((between.firstPerPair seen l).map ends).Nodup := by
  induction l generalizing seen with
  | nil => exact List.nodup_nil
  | cons b rest ih =>
    rw [firstPerPair_cons]
    by_cases hb : b.ends ∈ seen
    · rw [if_pos hb]
      exact ih seen
    · rw [if_neg hb, List.map_cons, List.nodup_cons]
      refine ⟨?_, ih (b.ends :: seen)⟩
      -- a later bridge with the ends of `b` would have been passed over
      intro hmem
      obtain ⟨c, hc, hends⟩ := List.mem_map.1 hmem
      have hnew := ends_notMem_of_mem_firstPerPair hc
      rw [hends] at hnew
      exact hnew List.mem_cons_self

end Bridge

/-! ### The outcome of a filter -/

/-- Each edge joins ids of the graph's own entities. -/
def Graph.Closed (g : Graph) : Prop := ∀ e ∈ g.edges, e.source ∈ g.ids ∧ e.target ∈ g.ids

/-- The outcome accounts for what was filtered: which entities, edges and bridges there are, and how they
were counted. -/
structure FilterOutcome.Accounts (o : FilterOutcome) (g : Graph) (options : FilterOptions) : Prop where
  /-- The entities of an allowed category are left. -/
  nodes : o.graph.nodes = g.nodes.filter fun e => e.category ∈ options.categories.members
  /-- The edges between their ids are left, and one edge for each bridge follows. -/
  edges : o.graph.edges = g.edgesAmong o.graph.ids ++ o.bridges.map fun b =>
    { source := b.source, target := b.target, relationship := some b.relationship }
  unbridged : options.skipHidden = false → o.bridges = []
  closed : o.graph.Closed
  /-- No pair of ends has two bridges. -/
  one_per_pair : (o.bridges.map fun b => (b.source, b.target)).Nodup
  counts : o.stats =
    { nodesBefore := g.nodes.length
      nodesAfter := o.graph.nodes.length
      edgesBefore := g.edges.length
      edgesAfter := o.graph.edges.length
      bridges := o.bridges.length
      hiddenCategories := o.stats.hiddenCategories }
  increasing : o.stats.hiddenCategories.Pairwise (· < ·)
  mem_hidden : ∀ category, category ∈ o.stats.hiddenCategories ↔
    category ∉ options.categories.members ∧ ∃ e ∈ g.nodes, e.category = category

namespace Graph

variable {g : Graph} {keep : Entity → Bool} {options : FilterOptions}

theorem mem_ids_restrict {bridged : Bool} {id : String} :
    id ∈ (g.restrict keep bridged).graph.ids ↔ g.keeps keep id = true := by
  rw [ids, nodes_restrict, keeps, List.contains_iff_mem]

theorem edgesAmong_ids_restrict (bridged : Bool) :
    g.edgesAmong (g.restrict keep bridged).graph.ids =
      g.edges.filter fun e => g.keeps keep e.source && g.keeps keep e.target := by
  refine List.filter_congr fun e _ => ?_
  rw [Bool.eq_iff_iff, decide_eq_true_eq, mem_ids_restrict, mem_ids_restrict, Bool.and_eq_true]

/-- A bridge joins ids of kept entities. -/
theorem keeps_of_mem_bridges {bridged : Bool} {b : Bridge} (hb : b ∈ (g.restrict keep bridged).bridges) :
    g.keeps keep b.source = true ∧ g.keeps keep b.target = true := by
  cases bridged with
  | false => cases hb
  | true =>
    obtain ⟨hsource, t, ht, htarget, -⟩ := exists_isDetour_of_mem_bridges hb
    obtain ⟨z, hz, hkept⟩ := ht.reaches
    obtain rfl : b.target = z := Option.some.inj (htarget.symm.trans hz)
    exact ⟨hsource, hkept⟩

theorem closed_restrict (bridged : Bool) : (g.restrict keep bridged).graph.Closed := by
  intro e he
  rw [mem_ids_restrict, mem_ids_restrict]
  rw [edges_restrict] at he
  rcases List.mem_append.1 he with he | he
  · exact Bool.and_eq_true_iff.1 (List.mem_filter.1 he).2
  · obtain ⟨b, hb, rfl⟩ := List.mem_map.1 he
    exact keeps_of_mem_bridges hb

theorem nodup_ends_bridges_restrict (bridged : Bool) :
    ((g.restrict keep bridged).bridges.map Bridge.ends).Nodup := by
  cases bridged with
  | false => exact List.nodup_nil
  | true =>
    rw [bridges_restrict]
    exact Bridge.nodup_ends_firstPerPair _ _

theorem mem_hiddenCategories_restrict {bridged : Bool} {category : String} :
    category ∈ (g.restrict keep bridged).stats.hiddenCategories ↔
      ∃ e ∈ g.nodes, keep e = false ∧ e.category = category := by
  show category ∈ Text.distinctSorted ((g.nodes.filter fun e => !keep e).map Entity.category) ↔ _
  simp only [Text.mem_distinctSorted, List.mem_map, List.mem_filter, Bool.not_eq_true', and_assoc]

/-- **The outcome is accounted for.**  An active filter leaves the entities of the allowed categories, the edges
between their ids and one edge for each of its bridges; nothing in the result points outside of it, no pair
of ends is bridged twice, and the report counts these lists and names the hidden categories in order. -/
theorem filterByCategory_accounts (g : Graph) (options : FilterOptions) (hactive : options.active = true) :
    (g.filterByCategory options).Accounts g options := by
  rw [filterByCategory_eq hactive]
  exact
    { nodes := by
        rw [nodes_restrict]
        refine List.filter_congr fun e _ => ?_
        rw [FilterOptions.allows, CategorySet.contains, Bool.eq_iff_iff, List.contains_iff_mem, decide_eq_true_eq]
      edges := by
        rw [edgesAmong_ids_restrict]
        exact edges_restrict g _ _
      unbridged := fun hskip => by
        rw [hskip]
        rfl
      closed := closed_restrict _
      one_per_pair := nodup_ends_bridges_restrict _
      counts := rfl
      increasing := Text.pairwise_distinctSorted _
      mem_hidden := fun category => by
        rw [mem_hiddenCategories_restrict]
        simp only [FilterOptions.allows, CategorySet.contains, List.contains_eq_mem, decide_eq_false_iff_not]
        constructor
        · rintro ⟨e, he, hhidden, rfl⟩
          exact ⟨hhidden, e, he, rfl⟩
        · rintro ⟨hhidden, e, he, rfl⟩
          exact ⟨e, he, hhidden, rfl⟩ }

/-- `D` stands for a hidden entity first and for a function later.  `A` reaches it directly and over `B`, and an
edge leaves the graph. -/
def hiddenTwin : Graph :=
  { nodes := [Entity.plain "A" "function", Entity.plain "B" "internal", Entity.plain "D" "internal",
      Entity.plain "D" "function"]
    edges := [Edge.plain "A" "B", Edge.plain "B" "D", Edge.plain "A" "D", Edge.plain "D" "ghost"] }

theorem filterByCategory_accounts_hiddenTwin :
    (FilterOptions.only "function").active = true ∧
      (hiddenTwin.filterByCategory (FilterOptions.only "function")).graph.edges =
        [Edge.plain "A" "D", { source := "A", target := "D", relationship := some "remapped_1_hops" }] ∧
      (hiddenTwin.filterByCategory (FilterOptions.only "function")).stats =
        { nodesBefore := 4, nodesAfter := 2, edgesBefore := 4, edgesAfter := 2, bridges := 1
          hiddenCategories := ["internal"] } := by
  have haccounts := filterByCategory_accounts hiddenTwin (FilterOptions.only "function") rfl
  exact ⟨rfl, haccounts.edges.trans (by decide +kernel), haccounts.counts.trans (by decide +kernel)⟩

/-! ### Filtering what was filtered -/

/-- Restricting a closed graph to all of its entities leaves it as it is. -/
theorem restrict_of_closed (hclosed : g.Closed) (hkeep : ∀ e ∈ g.nodes, keep e = true) (bridged : Bool) :
    g.restrict keep bridged = g.unfiltered := by
  have hbridges := bridges_restrict_of_keeps_all hkeep bridged
  have hgraph : (g.restrict keep bridged).graph = g := by
    rw [graph_restrict_of_keeps_all hkeep, edgesAmong, List.filter_eq_self.2]
    intro e he
    exact decide_eq_true (hclosed e he)
  have hhidden : (g.restrict keep bridged).stats.hiddenCategories = [] := by
    rw [List.eq_nil_iff_forall_not_mem]
    intro category hmem
    obtain ⟨e, he, hlost, -⟩ := mem_hiddenCategories_restrict.1 hmem
    rw [hkeep e he] at hlost
    cases hlost
  calc g.restrict keep bridged
      = { graph := (g.restrict keep bridged).graph
          bridges := (g.restrict keep bridged).bridges
          stats :=
            { nodesBefore := g.nodes.length
              nodesAfter := (g.restrict keep bridged).graph.nodes.length
              edgesBefore := g.edges.length
              edgesAfter := (g.restrict keep bridged).graph.edges.length
              bridges := (g.restrict keep bridged).bridges.length
              hiddenCategories := (g.restrict keep bridged).stats.hiddenCategories } } := rfl
    _ = g.unfiltered := by
        rw [hgraph, hbridges, hhidden]
        rfl

theorem filterByCategory_of_inactive (hinactive : options.active = false) :
    g.filterByCategory options = g.unfiltered := by
  rw [filterByCategory, filterPinned, hinactive]
  rfl

/-- An active filter leaves a graph as it is exactly if the graph has no edge that dangles and no hidden
entity. -/
theorem filterByCategory_eq_unfiltered_iff (hactive : options.active = true) :
    g.filterByCategory options = g.unfiltered ↔
      g.Closed ∧ ∀ e ∈ g.nodes, options.allows e = true := by
  rw [filterByCategory_eq hactive]
  constructor
  · intro hsame
    have hgraph := congrArg FilterOutcome.graph hsame
    constructor
    · have hclosed : (g.restrict options.allows options.skipHidden).graph.Closed := closed_restrict _
      rwa [hgraph] at hclosed
    · exact List.filter_eq_self.1 (congrArg Graph.nodes hgraph)
  · rintro ⟨hclosed, hallowed⟩
    exact restrict_of_closed hclosed hallowed _

/-- **Filtering twice is filtering once.**  A second filter with the same options returns the graph that it is
given, lays no bridge, hides no category and counts the same before and after. -/
theorem filterByCategory_filtered (g : Graph) (options : FilterOptions) :
    (g.filterByCategory options).graph.filterByCategory options =
      { graph := (g.filterByCategory options).graph
        bridges := []
        stats :=
          { nodesBefore := (g.filterByCategory options).graph.nodes.length
            nodesAfter := (g.filterByCategory options).graph.nodes.length
            edgesBefore := (g.filterByCategory options).graph.edges.length
            edgesAfter := (g.filterByCategory options).graph.edges.length
            bridges := 0
            hiddenCategories := [] } } := by
  cases hactive : options.active with
  | false => exact filterByCategory_of_inactive hactive
  | true =>
    apply (filterByCategory_eq_unfiltered_iff hactive).2
    rw [filterByCategory_eq hactive]
    refine ⟨closed_restrict _, fun e he => ?_⟩
    exact (List.mem_filter.1 he).2

end Graph

end CodeAtlas
