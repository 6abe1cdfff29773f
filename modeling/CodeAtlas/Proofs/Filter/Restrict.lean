import CodeAtlas.Proofs.Filter.Detour

/-!
# What restricting a graph keeps

A filter restricts a graph to the entities that pass a test.  Two tests are in use: filtering a graph asks
for the category (`Graph.filterByCategory_eq`), and filtering for a tree also lets the selected id pass
(`Graph.filterPinned_eq`).  What is said here holds for any test.

* `Bridge.mem_of_mem_firstPerPair`, `Bridge.exists_mem_firstPerPair` — of bridges with equal ends only one is
  left; nothing is made up, and no pair is lost;
* `Bridge.overPath_ends` — a bridge names its ends and what lies between them;
* `Graph.keeps g keep id` — some entity with the id passes the test;
* `Graph.edges_restrict` — the edges between kept ids stay, and one edge per bridge follows;
* `Graph.exists_isDetour_of_mem_bridges`, `Graph.exists_bridge_iff` — bridges run over detours, and each
  detour has a bridge with its ends.
-/

namespace CodeAtlas

open PlacedEdge

/-! ### Bridges, one for each pair of ends -/

namespace Bridge

/-- The pair of ids that a bridge connects. -/
def ends (b : Bridge) : String × String := (b.source, b.target)

theorem firstPerPair_cons (seen : List (String × String)) (b : Bridge) (rest : List Bridge) :
    between.firstPerPair seen (b :: rest) =
      if b.ends ∈ seen then between.firstPerPair seen rest
      else b :: between.firstPerPair (b.ends :: seen) rest := rfl

theorem mem_of_mem_firstPerPair {seen : List (String × String)} {l : List Bridge} {b : Bridge}
    (h : b ∈ between.firstPerPair seen l) : b ∈ l := by
  induction l generalizing seen with
  | nil => cases h
  | cons c rest ih =>
    rw [firstPerPair_cons] at h
    split at h
    · exact List.mem_cons_of_mem _ (ih h)
    · rcases List.mem_cons.1 h with rfl | h
      · exact List.mem_cons_self
      · exact List.mem_cons_of_mem _ (ih h)

/-- Every pair of ends that was not met before keeps a bridge. -/
theorem exists_mem_firstPerPair {seen : List (String × String)} {l : List Bridge} {b : Bridge}
    (hb : b ∈ l) (hseen : b.ends ∉ seen) : ∃ c ∈ between.firstPerPair seen l, c.ends = b.ends := by
  induction l generalizing seen with
  | nil => cases hb
  | cons c rest ih =>
    rw [firstPerPair_cons]
    by_cases hc : c.ends ∈ seen
    · rw [if_pos hc]
      refine ih ((List.mem_cons.1 hb).resolve_left ?_) hseen
      rintro rfl
      exact hseen hc
    · rw [if_neg hc]
      by_cases hcb : b.ends = c.ends
      · exact ⟨c, List.mem_cons_self, hcb.symm⟩
      · have hrest : b ∈ rest := (List.mem_cons.1 hb).resolve_left fun h => hcb (h ▸ rfl)
        have hnew : b.ends ∉ c.ends :: seen := by
          intro h
          exact (List.mem_cons.1 h).elim hcb hseen
        obtain ⟨d, hd, hdb⟩ := ih hrest hnew
        exact ⟨d, List.mem_cons_of_mem _ hd, hdb⟩

/-- A bridge tells its path by its ends and what lies between them, and its label counts the latter. -/
theorem overPath_ends (a z : String) (mid : List String) :
    overPath (a :: (mid ++ [z])) =
      { path := a :: (mid ++ [z])
        source := a
        target := z
        relationship := "remapped_" ++ toString mid.length ++ "_hops"
        skipped := mid } := by
  have hlast : (a :: (mid ++ [z])).getLastD "" = z := by
    rw [List.getLastD_cons, List.getLastD_concat]
  simp only [overPath, List.tail_cons, List.dropLast_concat, List.headD_cons, hlast]

end Bridge

/-! ### What a restriction keeps -/

namespace Graph

variable {g : Graph} {keep : Entity → Bool} {id : String}

/-- Does an entity with the id pass the test? -/
def keeps (g : Graph) (keep : Entity → Bool) (id : String) : Bool :=
  ((g.nodes.filter keep).map Entity.id).contains id

theorem keeps_iff : g.keeps keep id = true ↔ ∃ e ∈ g.nodes, keep e = true ∧ e.id = id := by
  simp only [keeps, List.contains_iff_mem, List.mem_map, List.mem_filter, and_assoc]

theorem mem_ids_of_keeps (h : g.keeps keep id = true) : id ∈ g.ids := by
  obtain ⟨e, he, -, rfl⟩ := keeps_iff.1 h
  exact List.mem_map_of_mem he

theorem edges_restrict (g : Graph) (keep : Entity → Bool) (bridged : Bool) :
    (g.restrict keep bridged).graph.edges =
      (g.edges.filter fun e => g.keeps keep e.source && g.keeps keep e.target) ++
        (g.restrict keep bridged).bridges.map Bridge.edge := rfl

theorem nodes_restrict (g : Graph) (keep : Entity → Bool) (bridged : Bool) :
    (g.restrict keep bridged).graph.nodes = g.nodes.filter keep := rfl

/-! ### The bridges of a restriction -/

/-- The bridges of a restriction: over all detours of the kept entities, the first of each pair of ends. -/
theorem bridges_restrict (g : Graph) (keep : Entity → Bool) :
    (g.restrict keep true).bridges =
      Bridge.between.firstPerPair [] ((((g.nodes.filter keep).map Entity.id).flatMap fun a =>
        (g.detourWays (g.keeps keep) a).map fun t => a :: targets t).map Bridge.overPath) := by
  show Bridge.between (Index.ofGraph g none) (g.keeps keep) ((g.nodes.filter keep).map Entity.id) = _
  rw [Bridge.between]
  simp only [Bridge.detours_start]

/-- The ends of a detour and what lies between them. -/
theorem IsDetour.path_eq {kept : String → Bool} {a : String} {t : List PlacedEdge}
    (h : g.IsDetour kept a t) :
    ∃ mid z, a :: targets t = a :: (mid ++ [z]) ∧ mid = (targets t).dropLast ∧ kept z = true ∧
      (mid.length = 1 ∨ mid.length = 2) := by
  obtain ⟨z, hz, hkept⟩ := h.reaches
  have heq : targets t = (targets t).dropLast ++ [z] := (List.dropLast_append_getLast? z hz).symm
  refine ⟨_, z, congrArg _ heq, rfl, hkept, ?_⟩
  rw [List.length_dropLast, length_targets]
  have hlen := h.two_or_three
  omega

/-- A bridge stands for a detour from its source. -/
theorem exists_isDetour_of_mem_bridges {b : Bridge} (hb : b ∈ (g.restrict keep true).bridges) :
    g.keeps keep b.source = true ∧ ∃ t, g.IsDetour (g.keeps keep) b.source t ∧
      (targets t).getLast? = some b.target ∧ b = Bridge.overPath (b.source :: targets t) := by
  rw [bridges_restrict] at hb
  obtain ⟨path, hpath, rfl⟩ := List.mem_map.1 (Bridge.mem_of_mem_firstPerPair hb)
  obtain ⟨a, ha, hpath⟩ := List.mem_flatMap.1 hpath
  obtain ⟨t, ht, rfl⟩ := List.mem_map.1 hpath
  have hdetour := mem_detourWays.1 ht
  obtain ⟨z, hz, -⟩ := hdetour.reaches
  have htargets : targets t = (targets t).dropLast ++ [z] := (List.dropLast_append_getLast? z hz).symm
  have htarget : (Bridge.overPath (a :: targets t)).target = z := by
    rw [htargets, Bridge.overPath_ends]
  exact ⟨List.contains_iff_mem.2 ha, t, hdetour, hz.trans (congrArg some htarget.symm), rfl⟩

/-- A bridge joins two ids exactly if a detour leads from the one to the other. -/
theorem exists_bridge_iff {s z : String} :
    (∃ b ∈ (g.restrict keep true).bridges, b.source = s ∧ b.target = z) ↔
      g.keeps keep s = true ∧
        ∃ t, g.IsDetour (g.keeps keep) s t ∧ (targets t).getLast? = some z := by
  constructor
  · rintro ⟨b, hb, rfl, rfl⟩
    obtain ⟨hs, t, ht, hz, -⟩ := exists_isDetour_of_mem_bridges hb
    exact ⟨hs, t, ht, hz⟩
  · rintro ⟨hs, t, ht, hz⟩
    have hpath : s :: targets t ∈ ((g.nodes.filter keep).map Entity.id).flatMap fun a =>
        (g.detourWays (g.keeps keep) a).map fun t => a :: targets t :=
      List.mem_flatMap.2 ⟨s, List.contains_iff_mem.1 hs, List.mem_map.2 ⟨t, mem_detourWays.2 ht, rfl⟩⟩
    obtain ⟨b, hb, hends⟩ := Bridge.exists_mem_firstPerPair
      (List.mem_map_of_mem (f := Bridge.overPath) hpath) List.not_mem_nil
    have htargets : targets t = (targets t).dropLast ++ [z] :=
      (List.dropLast_append_getLast? z hz).symm
    rw [htargets, Bridge.overPath_ends] at hends
    rw [← bridges_restrict] at hb
    exact ⟨b, hb, congrArg Prod.fst hends, congrArg Prod.snd hends⟩

end Graph

/-! ### Filters are restrictions -/

namespace FilterOptions

/-- Is the entity of an allowed category? -/
def allows (options : FilterOptions) (e : Entity) : Bool :=
  options.categories.contains e.category

/-- Keep one category and bridge what it leaves apart. -/
def only (category : String) : FilterOptions :=
  { categories := ⟨[category], List.pairwise_singleton _ _⟩, skipHidden := true }

end FilterOptions

namespace Graph

section

variable {g : Graph} {options : FilterOptions} (hactive : options.active = true)
include hactive

theorem filterPinned_eq (pinned : Option String) :
    g.filterPinned options pinned =
      g.restrict (fun e => options.allows e || pinned = some e.id) options.skipHidden := by
  rw [filterPinned, if_pos hactive]
  rfl

/-- An active filter restricts the graph to the allowed categories. -/
theorem filterByCategory_eq : g.filterByCategory options = g.restrict options.allows options.skipHidden := by
  rw [filterByCategory, filterPinned_eq hactive]
  congr 1
  funext e
  simp

theorem edges_filterByCategory :
    (g.filterByCategory options).graph.edges =
      (g.edges.filter fun e => g.keeps options.allows e.source && g.keeps options.allows e.target) ++
        (g.filterByCategory options).bridges.map Bridge.edge := by
  rw [filterByCategory_eq hactive, edges_restrict]

theorem bridges_filterByCategory (hskip : options.skipHidden = true) :
    (g.filterByCategory options).bridges = (g.restrict options.allows true).bridges := by
  rw [filterByCategory_eq hactive, hskip]

end

end Graph

end CodeAtlas
