import CodeAtlas.Proofs.Filter.Connectivity
import CodeAtlas.Proofs.Hierarchy.Provenance

/-!
# Where the links of a filtered tree come from

A filtered tree is built over a graph with edges of two kinds, those of the original graph and one for each
bridge.  Every link of the tree is traced back to one of them (`Tree.buildFiltered_links_justified`).

* `Bridge.Spans` — the bridge stands for a path of the graph over hidden entities;
* `Graph.origin_of_mem_edges` — an edge of a restricted graph is an original one or belongs to such a bridge;
* `Tree.Justifies` — a link and its label are explained by an edge of the graph or by a bridge that the tree
  lists.

The selected entity passes the filter whatever its category.  It cannot be what a bridge skips, and no other
node has its id, so all other nodes have an allowed category.
-/

namespace CodeAtlas

open PlacedEdge

/-- A label that is not blank is what an edge shows to every viewer. -/
theorem Edge.labelFrom_of_not_blank {e : Edge} {label : String} (h : e.relationship = some label)
    (hblank : Text.isBlankText label = false) (viewer : String) : e.labelFrom viewer = label := by
  rw [Edge.labelFrom, h, Option.filter_some, hblank]
  rfl

/-! ### Bridges over paths of the graph -/

namespace Bridge

/-- The bridge stands for a path of the graph that meets no id twice.  There is at least one id between the
ends, and no entity with such an id passes the test. -/
structure Spans (b : Bridge) (g : Graph) (keep : Entity → Bool) : Prop where
  path_eq : b.path = b.source :: (b.skipped ++ [b.target])
  skips : b.skipped ≠ []
  simple : b.path.Nodup
  chain : b.path.IsChain (Leads g.edges)
  hidden : ∀ id ∈ b.skipped, id ∈ g.ids ∧ ∀ e ∈ g.nodes, e.id = id → keep e = false

variable {b : Bridge} {g : Graph} {keep : Entity → Bool}

/-- What a test hides, a stricter test hides as well. -/
theorem Spans.mono {strict : Entity → Bool} (h : b.Spans g keep)
    (himp : ∀ e, strict e = true → keep e = true) : b.Spans g strict := by
  refine ⟨h.path_eq, h.skips, h.simple, h.chain, ?_⟩
  intro id hid
  obtain ⟨hknown, hhidden⟩ := h.hidden id hid
  refine ⟨hknown, ?_⟩
  intro e he heid
  have hkeep := hhidden e he heid
  rw [Bool.eq_false_iff] at hkeep ⊢
  intro hstrict
  exact hkeep (himp e hstrict)

/-- A text that begins as the labels of bridges do is not blank. -/
theorem isBlankText_remapped (s : String) : Text.isBlankText ("remapped_" ++ s) = false := by
  have hhead : "remapped_".toList.all Text.isBlank = false := by decide
  rw [Text.isBlankText, String.toList_append, List.all_append, hhead, Bool.false_and]

/-- The edge of a bridge reads the same from everywhere. -/
theorem labelFrom_edge_overPath (path : List String) (viewer : String) :
    (overPath path).edge.labelFrom viewer = (overPath path).relationship := by
  have hblank : Text.isBlankText (overPath path).relationship = false := by
    show Text.isBlankText ("remapped_" ++ toString path.tail.dropLast.length ++ "_hops") = false
    rw [String.append_assoc]
    exact isBlankText_remapped _
  exact Edge.labelFrom_of_not_blank rfl hblank viewer

end Bridge

namespace Graph

variable {g : Graph} {keep : Entity → Bool} {id : String}

theorem keep_eq_false_of_keeps_eq_false (h : g.keeps keep id = false) {e : Entity} (he : e ∈ g.nodes)
    (heid : e.id = id) : keep e = false := by
  rw [Bool.eq_false_iff] at h ⊢
  intro hkeep
  exact h (keeps_iff.2 ⟨e, he, hkeep, heid⟩)

theorem spans_of_mem_bridges {b : Bridge} (hb : b ∈ (g.restrict keep true).bridges) :
    b.Spans g keep := by
  obtain ⟨-, t, ht, -, heq⟩ := exists_isDetour_of_mem_bridges hb
  obtain ⟨mid, z, hpath, hmid, -, hlen⟩ := ht.path_eq
  have hsimple := ht.simple
  have hchain := ht.isChain
  rw [hpath] at heq hsimple hchain
  rw [Bridge.overPath_ends] at heq
  have hbpath : b.path = b.source :: (mid ++ [z]) := congrArg Bridge.path heq
  have htarget : b.target = z := congrArg Bridge.target heq
  have hskipped : b.skipped = mid := congrArg Bridge.skipped heq
  refine ⟨?_, ?_, ?_, ?_, ?_⟩
  · rw [hbpath, hskipped, htarget]
  · rw [hskipped]
    intro hnil
    rw [hnil] at hlen
    simp at hlen
  · rw [hbpath]
    exact hsimple
  · rw [hbpath]
    refine hchain.imp ?_
    intro x y hxy
    obtain ⟨e, he, hends⟩ := hxy
    exact ⟨e, (mem_edgesAmong.1 he).1, hends⟩
  · intro id hid
    rw [hskipped, hmid] at hid
    obtain ⟨x, hx, rfl⟩ := List.mem_map.1 (List.dropLast_subset _ hid)
    refine ⟨(ht.resolved x hx).2, ?_⟩
    intro e he heid
    exact keep_eq_false_of_keeps_eq_false (ht.hidden _ hid) he heid

/-- **Two kinds of edges.**  An edge of a restricted graph is one of the original graph, or it belongs to a
bridge over hidden entities and shows the label of the bridge. -/
theorem origin_of_mem_edges {e : Edge} {bridged : Bool}
    (he : e ∈ (g.restrict keep bridged).graph.edges) :
    e ∈ g.edges ∨ bridged = true ∧ ∃ b ∈ (g.restrict keep bridged).bridges,
      e = b.edge ∧ b.Spans g keep ∧ ∀ viewer, e.labelFrom viewer = b.relationship := by
  rw [edges_restrict] at he
  rcases List.mem_append.1 he with he | he
  · exact Or.inl (List.mem_filter.1 he).1
  · obtain ⟨b, hb, rfl⟩ := List.mem_map.1 he
    cases bridged with
    | false => cases hb
    | true =>
      refine Or.inr ⟨rfl, b, hb, rfl, spans_of_mem_bridges hb, ?_⟩
      intro viewer
      obtain ⟨-, t, -, -, heq⟩ := exists_isDetour_of_mem_bridges hb
      rw [heq]
      exact Bridge.labelFrom_edge_overPath _ viewer

/-- What is found in a filtered graph under another id than the pinned one has an allowed category. -/
theorem allowed_of_entity?_filterPinned {options : FilterOptions} {pinned : String} {e : Entity}
    (hactive : options.active = true)
    (h : (g.filterPinned options (some pinned)).graph.entity? e.id = some e) (hne : e.id ≠ pinned) :
    options.categories.contains e.category = true := by
  have hmem : e ∈ (g.filterPinned options (some pinned)).graph.nodes := List.mem_of_find?_eq_some h
  rw [filterPinned_eq hactive, nodes_restrict, List.mem_filter] at hmem
  have hkeep := hmem.2
  simp only [Bool.or_eq_true, decide_eq_true_eq] at hkeep
  rcases hkeep with hallowed | hpinned
  · exact hallowed
  · exact absurd (Option.some.inj hpinned).symm hne

end Graph

/-! ### Links of a filtered tree -/

namespace Tree

variable {selected : Entity} {g : Graph} {maxDepth : ℕ} {options : FilterOptions} {n p : Node}

/-- The link of the tree between `a` and `b` with a label as seen from `a` is an edge of the graph, or the
filter bridges and the tree lists a bridge for it over entities of categories that are not allowed. -/
def Justifies (tree : Tree) (g : Graph) (options : FilterOptions) (a b : String)
    (label : Option String) : Prop :=
  (∃ e ∈ g.edges, e.Joins a b ∧ label = some (e.labelFrom a)) ∨
    options.skipHidden = true ∧ ∃ bridges, tree.bridges = some bridges ∧ ∃ c ∈ bridges,
      c.edge.Joins a b ∧ label = some c.relationship ∧
        c.Spans g fun e => options.categories.contains e.category

theorem root_buildFiltered (hactive : options.active = true) :
    (buildFiltered selected g maxDepth options).root =
      (build selected (g.filterPinned options (some selected.id)).graph maxDepth).root := by
  rw [buildFiltered, if_pos hactive]

theorem bridges_buildFiltered (hactive : options.active = true) (hskip : options.skipHidden = true) :
    (buildFiltered selected g maxDepth options).bridges =
      some (g.filterPinned options (some selected.id)).bridges := by
  rw [buildFiltered, if_pos hactive]
  show (if options.skipHidden then some (g.filterPinned options (some selected.id)).bridges else none) = _
  rw [if_pos hskip]

/-- An edge of the filtered graph justifies the link that it makes. -/
theorem justifies_of_mem_edges (hactive : options.active = true) {e : Edge} {a b : String}
    (he : e ∈ (g.filterPinned options (some selected.id)).graph.edges) (hjoins : e.Joins a b) :
    (buildFiltered selected g maxDepth options).Justifies g options a b (some (e.labelFrom a)) := by
  rw [Graph.filterPinned_eq hactive] at he
  rcases Graph.origin_of_mem_edges he with horiginal | ⟨hskip, c, hc, rfl, hspans, hlabel⟩
  · exact Or.inl ⟨e, horiginal, hjoins, rfl⟩
  · rw [← Graph.filterPinned_eq hactive] at hc
    refine Or.inr ⟨hskip, _, bridges_buildFiltered hactive hskip, c, hc, hjoins, ?_, ?_⟩
    · rw [hlabel a]
    · -- the pinned id passes the test of the filter, so what the filter hides has no allowed category
      apply hspans.mono
      intro e hallowed
      rw [FilterOptions.allows, hallowed]
      rfl

theorem allowed_of_mem_tail_preorder (hactive : options.active = true)
    (hn : n ∈ (buildFiltered selected g maxDepth options).root.preorder.tail) :
    options.categories.contains n.entity.category = true := by
  rw [root_buildFiltered hactive] at hn
  have hne := id_ne_of_mem_tail_preorder hn
  have hentity := entity?_of_mem_tail_preorder hn
  exact Graph.allowed_of_entity?_filterPinned hactive (Index.graph_entity?_of_around hne hentity) hne

theorem allowed_of_mem_parents (hactive : options.active = true)
    (hn : n ∈ (buildFiltered selected g maxDepth options).root.parents) :
    options.categories.contains n.entity.category = true := by
  rw [root_buildFiltered hactive] at hn
  obtain ⟨hne, q, hq, hentity, -⟩ := exists_incoming_of_mem_parents hn
  have hknown := (Index.mem_incoming_around hq).2.2.2
  rw [← hentity] at hknown
  exact Graph.allowed_of_entity?_filterPinned hactive (Index.graph_entity?_of_around hne hknown) hne

theorem justifies_of_mem_children (hactive : options.active = true)
    (hp : p ∈ (buildFiltered selected g maxDepth options).root.preorder) (hn : n ∈ p.children) :
    (buildFiltered selected g maxDepth options).Justifies g options p.id n.id n.relationship := by
  rw [root_buildFiltered hactive] at hp
  obtain ⟨q, hq, hentity, hlabel⟩ := exists_touching_of_mem_children hp hn
  obtain ⟨he, hjoins, -⟩ := Index.mem_touching_around hq
  have hid : n.id = q.2.id := congrArg Entity.id hentity
  rw [hlabel, hid]
  exact justifies_of_mem_edges hactive he hjoins

theorem justifies_of_mem_parents (hactive : options.active = true)
    (hn : n ∈ (buildFiltered selected g maxDepth options).root.parents) :
    (buildFiltered selected g maxDepth options).Justifies g options n.id selected.id n.relationship := by
  rw [root_buildFiltered hactive] at hn
  obtain ⟨-, q, hq, hentity, hlabel⟩ := exists_incoming_of_mem_parents hn
  obtain ⟨he, hsource, htarget, -⟩ := Index.mem_incoming_around hq
  rw [hlabel]
  apply justifies_of_mem_edges hactive he
  left
  rw [Node.id, hentity]
  exact ⟨hsource, htarget⟩

/-- **Every link of a filtered tree is justified.**  All nodes but the root have an allowed category.  A node
hangs on another, or above the root, by an edge of the graph or by a bridge that the tree lists, and shows
the label of that edge or bridge. -/
theorem buildFiltered_links_justified (selected : Entity) (g : Graph) (maxDepth : ℕ)
    (options : FilterOptions) (hactive : options.active = true) :
    (∀ n ∈ (buildFiltered selected g maxDepth options).root.preorder.tail,
      options.categories.contains n.entity.category = true) ∧
    (∀ n ∈ (buildFiltered selected g maxDepth options).root.parents,
      options.categories.contains n.entity.category = true) ∧
    (∀ p ∈ (buildFiltered selected g maxDepth options).root.preorder, ∀ c ∈ p.children,
      (buildFiltered selected g maxDepth options).Justifies g options p.id c.id c.relationship) ∧
    ∀ n ∈ (buildFiltered selected g maxDepth options).root.parents,
      (buildFiltered selected g maxDepth options).Justifies g options n.id selected.id n.relationship := by
  refine ⟨?_, ?_, ?_, ?_⟩
  · intro n hn
    exact allowed_of_mem_tail_preorder hactive hn
  · intro n hn
    exact allowed_of_mem_parents hactive hn
  · intro p hp c hc
    exact justifies_of_mem_children hactive hp hc
  · intro n hn
    exact justifies_of_mem_parents hactive hn

/-- `A` is of a hidden category and reaches `D` over a hidden id.  `D` is listed twice, first in a hidden
category. -/
def hiddenRoot : Graph :=
  { nodes := [Entity.plain "A" "internal", Entity.plain "B" "internal", Entity.plain "D" "internal",
      Entity.plain "D" "function", Entity.plain "E" "function"]
    edges := [Edge.plain "A" "B", Edge.plain "B" "D", Edge.plain "E" "D"] }

theorem buildFiltered_links_justified_hiddenRoot :
    (FilterOptions.only "function").active = true ∧
      (buildFiltered (Entity.plain "A" "internal") hiddenRoot 1
          (FilterOptions.only "function")).root.preorder.map (fun n => (n.id, n.relationship)) =
        [("A", none), ("D", some "remapped_1_hops")] ∧
      ∀ p ∈ (buildFiltered (Entity.plain "A" "internal") hiddenRoot 1
          (FilterOptions.only "function")).root.preorder, ∀ c ∈ p.children,
        (buildFiltered (Entity.plain "A" "internal") hiddenRoot 1
          (FilterOptions.only "function")).Justifies hiddenRoot (FilterOptions.only "function")
            p.id c.id c.relationship := by
  have hlinks := buildFiltered_links_justified (Entity.plain "A" "internal") hiddenRoot 1
    (FilterOptions.only "function") rfl
  exact ⟨rfl, by decide +kernel, hlinks.2.2.1⟩

end Tree

end CodeAtlas
