import CodeAtlas.Proofs.Filter.LinkOrigin
import CodeAtlas.Proofs.Graph.Dangling
import CodeAtlas.Proofs.Reference.ByDistance
import CodeAtlas.Settings.Exclude

/-!
# What is left out is out of sight

Entities of excluded files are taken off the list of entities, while the edges at them stay.  They must not
come back by way of an edge.  They cannot, because nothing is ever read off an edge but ids, and whatever is
shown is an entity that was looked up among those listed:

* `Tree.entity_of_mem_preorder_buildFiltered`, `Tree.entity_mem_of_mem_parents_buildFiltered` — a node of a
  tree shows a listed entity or the selected one, a parent of the root a listed one;
* `Graph.path_subset_of_mem_bridges` — bridges run over listed ids;
* `ReferenceFile.mem_of_mem_referencing` — references are found in listed entities.

These hold for any graph.  For a graph without certain files the listed entities are the ones that survive
(`Graph.mem_nodes_withoutFiles`), and the selected entity, which is found in that graph, is one of them.
-/

namespace CodeAtlas

namespace Graph

/-! ### Entities that survive -/

/-- The entity is listed, and its file, if it has one, is not excluded. -/
structure Survives (excluded : String → Bool) (g : Graph) (e : Entity) : Prop where
  listed : e ∈ g.nodes
  file : ∀ path, e.file = some path → excluded path = false

variable {excluded : String → Bool} {g : Graph} {e : Entity}

theorem mem_nodes_withoutFiles : e ∈ (g.withoutFiles excluded).nodes ↔ g.Survives excluded e := by
  rw [withoutFiles, List.mem_filter]
  constructor
  · intro ⟨hlisted, hfile⟩
    refine ⟨hlisted, ?_⟩
    intro path hpath
    simpa [hpath] using hfile
  · intro h
    refine ⟨h.listed, ?_⟩
    cases hpath : e.file with
    | none => rfl
    | some path => simp [h.file path hpath]

/-- An id of the graph without the excluded files belongs to an entity that survives. -/
theorem exists_survives_of_mem_ids {id : String} (h : id ∈ (g.withoutFiles excluded).ids) :
    ∃ e, g.Survives excluded e ∧ e.id = id := by
  obtain ⟨e, he, hid⟩ := List.mem_map.1 h
  exact ⟨e, mem_nodes_withoutFiles.1 he, hid⟩

theorem mem_of_leastId {l : List Entity} (h : leastId l = some e) : e ∈ l := by
  induction l generalizing e with
  | nil => cases h
  | cons first rest ih =>
    rw [leastId] at h
    cases hrest : leastId rest with
    | none =>
      rw [hrest] at h
      cases h
      exact List.mem_cons_self
    | some other =>
      rw [hrest] at h
      dsimp only at h
      split at h
      · cases h
        exact List.mem_cons_of_mem _ (ih hrest)
      · cases h
        exact List.mem_cons_self

/-- A query names a listed entity. -/
theorem mem_of_find? {query : String} (h : g.find? query = some e) : e ∈ g.nodes := by
  rw [find?] at h
  cases hid : g.entity? query with
  | some found =>
    rw [hid] at h
    cases h
    exact List.mem_of_find?_eq_some hid
  | none =>
    rw [hid] at h
    exact (List.mem_filter.1 (mem_of_leastId h)).1

/-! ### Filtered graphs and bridges -/

variable {options : FilterOptions} {pinned : Option String}

/-- A filter lists no entity that was not listed before. -/
theorem mem_of_mem_nodes_filterPinned (h : e ∈ (g.filterPinned options pinned).graph.nodes) :
    e ∈ g.nodes := by
  rw [filterPinned] at h
  split at h
  · rw [nodes_restrict] at h
    exact (List.mem_filter.1 h).1
  · exact h

/-- The path of a bridge runs over ids of the graph. -/
theorem path_subset_of_mem_bridges {b : Bridge} (hb : b ∈ (g.filterPinned options pinned).bridges) :
    b.path ⊆ g.ids ∧ b.skipped ⊆ g.ids := by
  rw [filterPinned] at hb
  split at hb
  · cases hskip : options.skipHidden with
    | false =>
      rw [hskip] at hb
      cases hb
    | true =>
      rw [hskip] at hb
      obtain ⟨hsource, t, ht, -, heq⟩ := exists_isDetour_of_mem_bridges hb
      have hpath : b.path = b.source :: PlacedEdge.targets t := congrArg Bridge.path heq
      have hskipped : b.skipped = b.path.tail.dropLast := by
        rw [hpath]
        exact congrArg Bridge.skipped heq
      have hids : b.path ⊆ g.ids := by
        rw [hpath]
        intro id hid
        rcases List.mem_cons.1 hid with hid | hid
        · rw [hid]
          exact mem_ids_of_keeps hsource
        · obtain ⟨x, hx, hxid⟩ := List.mem_map.1 hid
          rw [← hxid]
          exact (ht.resolved x hx).2
      refine ⟨hids, ?_⟩
      rw [hskipped]
      intro id hid
      exact hids (List.mem_of_mem_tail (List.dropLast_subset _ hid))
  · cases hb

end Graph

/-! ### Trees -/

namespace Tree

variable {selected : Entity} {g : Graph} {maxDepth : ℕ} {options : FilterOptions} {n : Node}

theorem entity_of_mem_preorder (h : n ∈ (build selected g maxDepth).root.preorder) :
    n.entity = selected ∨ n.entity ∈ g.nodes := by
  rw [Node.preorder_eq] at h
  rcases List.mem_cons.1 h with hroot | hbelow
  · left
    rw [hroot]
    exact congrArg Node.entity (Node.bare_assemble _ (Claim.root selected))
  · right
    have htail : n ∈ (build selected g maxDepth).root.preorder.tail := by
      rw [Node.preorder_eq]
      exact hbelow
    exact List.mem_of_find?_eq_some
      (Index.graph_entity?_of_around (id_ne_of_mem_tail_preorder htail) (entity?_of_mem_tail_preorder htail))

theorem entity_mem_of_mem_parents (h : n ∈ (build selected g maxDepth).root.parents) :
    n.entity ∈ g.nodes := by
  obtain ⟨hne, q, hq, hentity, -⟩ := exists_incoming_of_mem_parents h
  have hknown := (Index.mem_incoming_around hq).2.2.2
  rw [← hentity] at hknown
  exact List.mem_of_find?_eq_some (Index.graph_entity?_of_around hne hknown)

/-- A filtered tree shows the selected entity and listed ones. -/
theorem entity_of_mem_preorder_buildFiltered
    (h : n ∈ (buildFiltered selected g maxDepth options).root.preorder) :
    n.entity = selected ∨ n.entity ∈ g.nodes := by
  rw [buildFiltered] at h
  split at h
  · exact (entity_of_mem_preorder h).imp_right Graph.mem_of_mem_nodes_filterPinned
  · exact entity_of_mem_preorder h

theorem entity_mem_of_mem_parents_buildFiltered
    (h : n ∈ (buildFiltered selected g maxDepth options).root.parents) : n.entity ∈ g.nodes := by
  rw [buildFiltered] at h
  split at h
  · exact Graph.mem_of_mem_nodes_filterPinned (entity_mem_of_mem_parents h)
  · exact entity_mem_of_mem_parents h

/-- The bridges that a tree lists are those of its filter. -/
theorem mem_bridges_filterPinned {bridges : List Bridge} {b : Bridge}
    (h : (buildFiltered selected g maxDepth options).bridges = some bridges) (hb : b ∈ bridges) :
    b ∈ (g.filterPinned options (some selected.id)).bridges := by
  rw [buildFiltered] at h
  split at h
  · dsimp only at h
    split at h
    · cases h
      exact hb
    · cases h
  · cases h

end Tree

/-! ### References -/

namespace ReferenceFile

variable {extract : Extractor} {root : Option String} {selected : Entity} {g : Graph} {hops : ℕ}
  {r : ReferenceFile}

/-- References are found in listed entities. -/
theorem mem_of_mem_neighbourhood {e : Entity}
    (h : e ∈ (Contribution.neighbourhood (Index.around selected g) selected hops).flatten) :
    e ∈ g.nodes :=
  List.mem_of_find?_eq_some ((Contribution.breadthFirst_neighbourhood selected g hops).first e h)

theorem mem_of_mem_referencing (hr : r ∈ analyze extract root selected g hops) {e : Entity}
    (he : e ∈ r.referencing) : e ∈ g.nodes := by
  rw [(gathers_analyze extract root selected g hops).referencing r hr] at he
  exact mem_of_mem_neighbourhood (List.mem_filter.1 he).1

/-- The file of a reference is that of a listed entity. -/
theorem exists_file_eq (hr : r ∈ analyze extract root selected g hops) :
    ∃ e ∈ g.nodes, e.file = some r.file := by
  obtain ⟨e, he, hfile, -⟩ :=
    ((gathers_analyze extract root selected g hops).mem_file r.file).1 (List.mem_map_of_mem hr)
  exact ⟨e, mem_of_mem_neighbourhood he, hfile⟩

end ReferenceFile

/-! ### Every view at once -/

namespace Graph

/-- **What is left out is out of sight.**  Leave the entities of excluded files out of a graph and select one
that is left.  Every node of a filtered tree, every parent of its root, every entity of the filtered graph and
every entity that references are found in survives, and no reference is to an excluded file.  The ids that a
bridge runs over or skips belong to entities that survive. -/
theorem withoutFiles_out_of_sight (excluded : String → Bool) (g : Graph) {query : String}
    {selected : Entity} (hfind : (g.withoutFiles excluded).find? query = some selected) :
    (∀ maxDepth options,
      let tree := Tree.buildFiltered selected (g.withoutFiles excluded) maxDepth options
      (∀ n ∈ tree.root.preorder, g.Survives excluded n.entity) ∧
      (∀ n ∈ tree.root.parents, g.Survives excluded n.entity) ∧
      ∀ bridges, tree.bridges = some bridges → ∀ b ∈ bridges, ∀ id ∈ b.path ++ b.skipped,
        ∃ e, g.Survives excluded e ∧ e.id = id) ∧
    (∀ options,
      let outcome := (g.withoutFiles excluded).filterByCategory options
      (∀ e ∈ outcome.graph.nodes, g.Survives excluded e) ∧
      ∀ b ∈ outcome.bridges, ∀ id ∈ b.path ++ b.skipped, ∃ e, g.Survives excluded e ∧ e.id = id) ∧
    ∀ extract root hops,
      ∀ r ∈ ReferenceFile.analyze extract root selected (g.withoutFiles excluded) hops,
        (∀ e ∈ r.referencing, g.Survives excluded e) ∧ excluded r.file = false := by
  -- the root shows the selected entity unseen by any look-up, so it has to be a listed one
  have hselected : selected ∈ (g.withoutFiles excluded).nodes := mem_of_find? hfind
  have hbridge : ∀ options pinned, ∀ b ∈ ((g.withoutFiles excluded).filterPinned options pinned).bridges,
      ∀ id ∈ b.path ++ b.skipped, ∃ e, g.Survives excluded e ∧ e.id = id := by
    intro options pinned b hb id hid
    obtain ⟨hpath, hskipped⟩ := path_subset_of_mem_bridges hb
    rcases List.mem_append.1 hid with hid | hid
    · exact exists_survives_of_mem_ids (hpath hid)
    · exact exists_survives_of_mem_ids (hskipped hid)
  refine ⟨?_, ?_, ?_⟩
  · intro maxDepth options
    refine ⟨?_, ?_, ?_⟩
    · intro n hn
      rcases Tree.entity_of_mem_preorder_buildFiltered hn with hroot | hlisted
      · rw [hroot]
        exact mem_nodes_withoutFiles.1 hselected
      · exact mem_nodes_withoutFiles.1 hlisted
    · intro n hn
      exact mem_nodes_withoutFiles.1 (Tree.entity_mem_of_mem_parents_buildFiltered hn)
    · intro bridges hbridges b hb
      exact hbridge options _ b (Tree.mem_bridges_filterPinned hbridges hb)
  · intro options
    refine ⟨?_, hbridge options none⟩
    intro e he
    exact mem_nodes_withoutFiles.1 (mem_of_mem_nodes_filterPinned he)
  · intro extract root hops r hr
    constructor
    · intro e he
      exact mem_nodes_withoutFiles.1 (ReferenceFile.mem_of_mem_referencing hr he)
    · obtain ⟨e, he, hfile⟩ := ReferenceFile.exists_file_eq hr
      exact (mem_nodes_withoutFiles.1 he).file r.file hfile

/-- Anything below `vendor` is left out. -/
def vendorLess : Settings := { Settings.unset with exclude := some ["vendor/**"] }

/-- `app` reaches `dep` over `glue`, and `far` over `shim`.  `shim` is recorded in an excluded file, and so is
`dep` at first. -/
def vendored : Graph :=
  { nodes := [{ Entity.plain "app" "function" with file := some "src/app" },
      { Entity.plain "dep" "function" with file := some "vendor/dep" },
      { Entity.plain "dep" "function" with file := some "src/dep" },
      { Entity.plain "glue" "internal" with file := some "src/glue" },
      { Entity.plain "shim" "internal" with file := some "vendor/shim" },
      { Entity.plain "far" "function" with file := some "src/far" }]
    edges := [Edge.plain "app" "glue", Edge.plain "glue" "dep", Edge.plain "app" "shim",
      Edge.plain "shim" "far"] }

theorem withoutFiles_out_of_sight_vendored :
    ∃ app, (vendorLess.applyExcludes vendored).find? "app" = some app ∧
      let tree := Tree.buildFiltered app (vendorLess.applyExcludes vendored) 2 (FilterOptions.only "function")
      tree.root.preorder.map (fun n => (n.id, n.entity.file)) =
        [("app", some "src/app"), ("dep", some "src/dep")] ∧
      tree.bridges.map (fun bridges => bridges.map Bridge.path) = some [["app", "glue", "dep"]] ∧
      ∀ n ∈ tree.root.preorder, vendored.Survives vendorLess.excludes n.entity := by
  refine ⟨{ Entity.plain "app" "function" with file := some "src/app" }, ?_, ?_, ?_, ?_⟩
  · decide +kernel
  · decide +kernel
  · decide +kernel
  · exact ((withoutFiles_out_of_sight vendorLess.excludes vendored
      (show (vendorLess.applyExcludes vendored).find? "app" = some _ by decide +kernel)).1 2
        (FilterOptions.only "function")).1

end Graph

end CodeAtlas
