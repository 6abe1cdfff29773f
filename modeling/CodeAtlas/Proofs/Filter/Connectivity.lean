import CodeAtlas.Proofs.Filter.FirstBridge
import Mathlib.Data.List.Chain
import Mathlib.Logic.Relation

/-!
# Filtering with bridges keeps connectivity

Between kept ids, the bridged graph connects what the original graph connects by a walk that never
meets three hidden ids in a row, and nothing else (`Graph.filterByCategory_reaches_iff`).

Both directions cut a walk at its kept ids.

* `Graph.reaches_of_walk` — a walk of the original graph is cut into stretches with at most two hidden ids
  between kept ones.  A stretch whose ends are equal is dropped, one that meets a hidden id twice is
  shortened, and what is left is an edge or a detour, for whose ends there is a bridge.
* `Graph.exists_walk_of_reaches` — every edge of the filtered graph is put back as the stretch it stands
  for.  Stretches meet at kept ids, so three hidden ids in a row would lie within one of them.
-/

namespace CodeAtlas

open PlacedEdge

/-- Some edge of the list leads from the first id to the second. -/
def Leads (edges : List Edge) (a b : String) : Prop :=
  ∃ e ∈ edges, e.source = a ∧ e.target = b

/-- A part that avoids a member lies before it or after it. -/
theorem isInfix_append_cons {α : Type} {u l₁ l₂ : List α} {b : α} (h : u <:+: l₁ ++ b :: l₂)
    (hb : b ∉ u) : u <:+: l₁ ∨ u <:+: l₂ := by
  induction l₁ with
  | nil =>
    rcases List.infix_cons_iff.1 h with hp | hi
    · rcases List.prefix_cons_iff.1 hp with rfl | ⟨v, rfl, -⟩
      · exact Or.inl (List.nil_infix)
      · exact absurd List.mem_cons_self hb
    · exact Or.inr hi
  | cons x l₁ ih =>
    rcases List.infix_cons_iff.1 h with hp | hi
    · left
      obtain ⟨v, hv⟩ := hp
      have hsplit : u ++ v = (x :: l₁) ++ b :: l₂ := hv
      rcases List.append_eq_append_iff.1 hsplit with ⟨w, hw, -⟩ | ⟨w, hw, hrest⟩
      · exact hw ▸ (List.prefix_append _ _).isInfix
      · cases w with
        | nil =>
          rw [List.append_nil] at hw
          exact hw ▸ List.infix_rfl
        | cons c w =>
          obtain ⟨rfl, -⟩ := List.cons.inj hrest
          exact absurd (hw ▸ List.mem_append_right _ List.mem_cons_self) hb
    · rcases ih hi with hl | hr
      · exact Or.inl (hl.trans (List.suffix_cons _ _).isInfix)
      · exact Or.inr hr

/-! ### Walks without three hidden ids in a row -/

/-- No three members in a row fail the test. -/
def NoThreeHidden (kept : String → Bool) (w : List String) : Prop :=
  ∀ a b c, [a, b, c] <:+: w → kept a = true ∨ kept b = true ∨ kept c = true

theorem NoThreeHidden.of_isInfix {kept : String → Bool} {v w : List String}
    (h : NoThreeHidden kept w) (hv : v <:+: w) : NoThreeHidden kept v :=
  fun a b c habc => h a b c (habc.trans hv)

/-- Two walks joined by a stretch of at most two ids between kept ones. -/
theorem NoThreeHidden.join {kept : String → Bool} {a b : String} {mid rest : List String}
    (ha : kept a = true) (hb : kept b = true) (hmid : mid.length ≤ 2)
    (h : NoThreeHidden kept (b :: rest)) : NoThreeHidden kept (a :: (mid ++ b :: rest)) := by
  intro x y z hxyz
  by_contra hhid
  simp only [not_or, Bool.not_eq_true] at hhid
  obtain ⟨hx, hy, hz⟩ := hhid
  have hout : ∀ c, kept c = true → c ∉ [x, y, z] := by
    intro c hc hmem
    simp only [List.mem_cons, List.not_mem_nil, or_false] at hmem
    rcases hmem with rfl | rfl | rfl <;> simp_all
  -- the three avoid both `a` and `b`, so they lie between them or after `b`
  have hafter : [x, y, z] <:+: mid ++ b :: rest := by
    have hfirst : [x, y, z] <:+: [] ++ a :: (mid ++ b :: rest) := hxyz
    rcases isInfix_append_cons hfirst (hout a ha) with hnil | h'
    · exact absurd hnil.length_le (by simp)
    · exact h'
  rcases isInfix_append_cons hafter (hout b hb) with hin | hin
  · have := hin.length_le
    simp only [List.length_cons, List.length_nil] at this
    omega
  · rcases h x y z (hin.trans (List.suffix_cons _ _).isInfix) with hk | hk | hk <;> simp_all

/-! ### The edges of a filtered graph -/

namespace Graph

variable {g : Graph} {options : FilterOptions}

/-- An edge between kept ids stays. -/
theorem leads_of_keeps (hactive : options.active = true) {a b : String}
    (ha : g.keeps options.allows a = true) (hb : g.keeps options.allows b = true)
    (h : Leads (g.edgesAmong g.ids) a b) : Leads (g.filterByCategory options).graph.edges a b := by
  obtain ⟨e, he, rfl, rfl⟩ := h
  refine ⟨e, ?_, rfl, rfl⟩
  rw [edges_filterByCategory hactive]
  apply List.mem_append_left
  rw [List.mem_filter, ha, hb]
  exact ⟨(mem_edgesAmong.1 he).1, rfl⟩

/-- Where a detour leads, an edge of the filtered graph leads. -/
theorem leads_of_isDetour (hactive : options.active = true) (hskip : options.skipHidden = true)
    {a z : String} {t : List PlacedEdge} (ha : g.keeps options.allows a = true)
    (ht : g.IsDetour (g.keeps options.allows) a t) (hz : (targets t).getLast? = some z) :
    Leads (g.filterByCategory options).graph.edges a z := by
  have hbridge : ∃ c ∈ (g.filterByCategory options).bridges, c.source = a ∧ c.target = z := by
    rw [bridges_filterByCategory hactive hskip]
    exact exists_bridge_iff.2 ⟨ha, t, ht, hz⟩
  obtain ⟨c, hc, hsource, htarget⟩ := hbridge
  refine ⟨c.edge, ?_, hsource, htarget⟩
  rw [edges_filterByCategory hactive]
  exact List.mem_append_right _ (List.mem_map_of_mem hc)

/-- Edges of which each leaves the id that the one before it entered make a walk. -/
theorem isChain_of_linked (g : Graph) (a : String) (t : List PlacedEdge)
    (hlink : sources t = (a :: targets t).dropLast) (hmem : ∀ x ∈ t, x.1 ∈ g.edgesAmong g.ids) :
    (a :: targets t).IsChain (Leads (g.edgesAmong g.ids)) := by
  induction t generalizing a with
  | nil => exact List.IsChain.singleton a
  | cons x t ih =>
    rw [sources_cons, targets_cons, List.dropLast_cons_cons] at hlink
    obtain ⟨hx, hlink⟩ := List.cons.inj hlink
    refine List.IsChain.cons_cons ⟨x.1, hmem x List.mem_cons_self, hx, rfl⟩ ?_
    exact ih x.1.target hlink fun y hy => hmem y (List.mem_cons_of_mem _ hy)

theorem IsDetour.isChain {kept : String → Bool} {a : String} {t : List PlacedEdge}
    (h : g.IsDetour kept a t) : (a :: targets t).IsChain (Leads (g.edgesAmong g.ids)) :=
  isChain_of_linked g a t h.linked fun x hx =>
    mem_edgesAmong.2 ⟨List.mem_of_getElem? (h.recorded x hx), h.resolved x hx⟩

/-- Every edge of the filtered graph stands for a stretch of the original one: its ends are kept, and
at most two ids lie between them. -/
theorem stretch_of_leads (hactive : options.active = true) (hskip : options.skipHidden = true)
    {a b : String} (h : Leads (g.filterByCategory options).graph.edges a b) :
    g.keeps options.allows a = true ∧ g.keeps options.allows b = true ∧
      ∃ mid : List String, mid.length ≤ 2 ∧
        (a :: (mid ++ [b])).IsChain (Leads (g.edgesAmong g.ids)) := by
  obtain ⟨e, he, rfl, rfl⟩ := h
  rw [edges_filterByCategory hactive] at he
  rcases List.mem_append.1 he with he | he
  · obtain ⟨hmem, hends⟩ := List.mem_filter.1 he
    obtain ⟨hs, ht⟩ := Bool.and_eq_true_iff.1 hends
    refine ⟨hs, ht, [], Nat.zero_le _, ?_⟩
    refine List.IsChain.cons_cons ⟨e, ?_, rfl, rfl⟩ (List.IsChain.singleton _)
    exact mem_edgesAmong.2 ⟨hmem, mem_ids_of_keeps hs, mem_ids_of_keeps ht⟩
  · obtain ⟨b, hb, rfl⟩ := List.mem_map.1 he
    rw [bridges_filterByCategory hactive hskip] at hb
    obtain ⟨hsource, t, ht, htarget, -⟩ := exists_isDetour_of_mem_bridges hb
    obtain ⟨mid, z, hpath, -, hz, hlen⟩ := ht.path_eq
    rw [(List.cons.inj hpath).2, List.getLast?_concat] at htarget
    obtain rfl : z = b.target := Option.some.inj htarget
    have hchain := ht.isChain
    rw [hpath] at hchain
    exact ⟨hsource, hz, mid, by omega, hchain⟩

/-! ### From a walk to the filtered graph -/

/-- An id leads to another one in the filtered graph, over any number of edges. -/
def FilteredReaches (g : Graph) (options : FilterOptions) : String → String → Prop :=
  Relation.ReflTransGen (Leads (g.filterByCategory options).graph.edges)

/-- A walk along resolved edges is a way along placed ones. -/
theorem exists_linked_of_isChain (g : Graph) (a : String) (w : List String)
    (h : (a :: w).IsChain (Leads (g.edgesAmong g.ids))) :
    ∃ t : List PlacedEdge, targets t = w ∧ sources t = (a :: w).dropLast ∧
      ∀ x ∈ t, x ∈ g.placedEdges := by
  induction w generalizing a with
  | nil => exact ⟨[], rfl, rfl, fun x hx => absurd hx List.not_mem_nil⟩
  | cons b w ih =>
    obtain ⟨hab, hrest⟩ := List.isChain_cons_cons.1 h
    obtain ⟨t, htargets, hsources, hmem⟩ := ih b hrest
    obtain ⟨e, he, rfl, rfl⟩ := hab
    rw [← map_fst_placedEdges] at he
    obtain ⟨x, hx, rfl⟩ := List.mem_map.1 he
    refine ⟨x :: t, ?_, ?_, List.forall_mem_cons.2 ⟨hx, hmem⟩⟩
    · rw [targets_cons, htargets]
    · rw [sources_cons, hsources, List.dropLast_cons_cons]

/-- A stretch of one or two different hidden ids between kept ones leads over a bridge, or back to
where it began. -/
theorem reaches_over_stretch (hactive : options.active = true) (hskip : options.skipHidden = true)
    {a z : String} {mid : List String} (ha : g.keeps options.allows a = true)
    (hz : g.keeps options.allows z = true) (hmid : ∀ b ∈ mid, g.keeps options.allows b = false)
    (hlen : mid.length = 1 ∨ mid.length = 2) (hnodup : mid.Nodup)
    (hchain : (a :: (mid ++ [z])).IsChain (Leads (g.edgesAmong g.ids))) :
    FilteredReaches g options a z := by
  by_cases haz : a = z
  · rw [haz]
    exact Relation.ReflTransGen.refl
  · have hout : ∀ b, g.keeps options.allows b = true → b ∉ mid := by
      intro b hb hmem
      rw [hmid b hmem] at hb
      cases hb
    obtain ⟨t, htargets, hsources, hmem⟩ := exists_linked_of_isChain g a _ hchain
    have hlast : (targets t).getLast? = some z := by
      rw [htargets, List.getLast?_concat]
    have hcount : t.length = mid.length + 1 := by
      rw [← length_targets, htargets, List.length_append, List.length_singleton]
    have hdetour : g.IsDetour (g.keeps options.allows) a t :=
      { two_or_three := by omega
        recorded := fun x hx => (mem_placedEdges.1 (hmem x hx)).1
        resolved := fun x hx => (mem_placedEdges.1 (hmem x hx)).2
        linked := htargets ▸ hsources
        simple := by
          rw [htargets, List.nodup_cons, List.mem_append, List.mem_singleton]
          exact ⟨fun h => h.elim (hout a ha) haz, (nodup_concat_iff hnodup).2 (hout z hz)⟩
        hidden := by
          rw [htargets, List.dropLast_concat]
          exact hmid
        reaches := ⟨z, hlast, hz⟩ }
    exact Relation.ReflTransGen.single (leads_of_isDetour hactive hskip ha hdetour hlast)

theorem reaches_over_one (hactive : options.active = true) (hskip : options.skipHidden = true)
    {a b c : String} (ha : g.keeps options.allows a = true) (hb : g.keeps options.allows b = false)
    (hc : g.keeps options.allows c = true) (hab : Leads (g.edgesAmong g.ids) a b)
    (hbc : Leads (g.edgesAmong g.ids) b c) : FilteredReaches g options a c := by
  have hmid : ∀ x ∈ [b], g.keeps options.allows x = false := by
    simp [hb]
  refine reaches_over_stretch hactive hskip ha hc hmid (Or.inl rfl) (List.nodup_singleton b) ?_
  simp [hab, hbc]

theorem reaches_over_two (hactive : options.active = true) (hskip : options.skipHidden = true)
    {a b c d : String} (ha : g.keeps options.allows a = true) (hb : g.keeps options.allows b = false)
    (hc : g.keeps options.allows c = false) (hd : g.keeps options.allows d = true)
    (hab : Leads (g.edgesAmong g.ids) a b) (hbc : Leads (g.edgesAmong g.ids) b c)
    (hcd : Leads (g.edgesAmong g.ids) c d) : FilteredReaches g options a d := by
  by_cases heq : b = c
  · -- a hidden id that leads to itself is passed once
    subst heq
    exact reaches_over_one hactive hskip ha hb hd hab hcd
  · have hmid : ∀ x ∈ [b, c], g.keeps options.allows x = false := by
      simp [hb, hc]
    refine reaches_over_stretch hactive hskip ha hd hmid (Or.inr rfl) (by simpa using heq) ?_
    simp [hab, hbc, hcd]

/-- A walk between kept ids is cut at the kept ids that it meets. -/
theorem reaches_of_walk (hactive : options.active = true) (hskip : options.skipHidden = true)
    {t : String} (ht : g.keeps options.allows t = true) (w : List String) (s : String)
    (hs : g.keeps options.allows s = true) (hlast : (s :: w).getLast? = some t)
    (hchain : (s :: w).IsChain (Leads (g.edgesAmong g.ids)))
    (hthree : NoThreeHidden (g.keeps options.allows) (s :: w)) : FilteredReaches g options s t := by
  -- induction on the length: up to three ids are taken off at once
  induction hn : w.length using Nat.strong_induction_on generalizing w s with
  | _ n ih =>
  subst hn
  cases w with
  | nil =>
    obtain rfl : s = t := by simpa using hlast
    exact Relation.ReflTransGen.refl
  | cons b w =>
    obtain ⟨hsb, hchain⟩ := List.isChain_cons_cons.1 hchain
    have hthree := hthree.of_isInfix (List.suffix_cons s _).isInfix
    rw [List.getLast?_cons_cons] at hlast
    by_cases hb : g.keeps options.allows b = true
    · have hrest := ih w.length (by simp only [List.length_cons]; omega) w b hb hlast hchain hthree rfl
      exact Relation.ReflTransGen.head (leads_of_keeps hactive hs hb hsb) hrest
    · cases w with
      | nil =>
        obtain rfl : b = t := by simpa using hlast
        exact absurd ht hb
      | cons c w =>
        obtain ⟨hbc, hchain⟩ := List.isChain_cons_cons.1 hchain
        have hthree' := hthree.of_isInfix (List.suffix_cons b _).isInfix
        rw [List.getLast?_cons_cons] at hlast
        by_cases hc : g.keeps options.allows c = true
        · have hrest := ih w.length (by simp only [List.length_cons]; omega) w c hc hlast hchain hthree' rfl
          exact (reaches_over_one hactive hskip hs (by simpa using hb) hc hsb hbc).trans hrest
        · cases w with
          | nil =>
            obtain rfl : c = t := by simpa using hlast
            exact absurd ht hc
          | cons d w =>
            obtain ⟨hcd, hchain⟩ := List.isChain_cons_cons.1 hchain
            have hthree'' := hthree'.of_isInfix (List.suffix_cons c _).isInfix
            rw [List.getLast?_cons_cons] at hlast
            -- after two hidden ids the walk is back at a kept one
            have hd : g.keeps options.allows d = true :=
              ((hthree b c d ⟨[], w, rfl⟩).resolve_left hb).resolve_left hc
            have hrest := ih w.length (by simp only [List.length_cons]; omega) w d hd hlast hchain hthree'' rfl
            exact (reaches_over_two hactive hskip hs (by simpa using hb) (by simpa using hc) hd hsb
              hbc hcd).trans hrest

/-! ### From the filtered graph to a walk -/

theorem exists_walk_of_reaches (hactive : options.active = true) (hskip : options.skipHidden = true)
    {s t : String} (hs : g.keeps options.allows s = true) (h : FilteredReaches g options s t) :
    ∃ w : List String, (s :: w).getLast? = some t ∧
      (s :: w).IsChain (Leads (g.edgesAmong g.ids)) ∧
      NoThreeHidden (g.keeps options.allows) (s :: w) := by
  induction h using Relation.ReflTransGen.head_induction_on with
  | refl =>
    refine ⟨[], rfl, List.IsChain.singleton _, ?_⟩
    intro a b c habc
    exact absurd habc.length_le (by simp)
  | @head a b hab _ ih =>
    obtain ⟨-, hb, mid, hlen, hstretch⟩ := stretch_of_leads hactive hskip hab
    obtain ⟨w, hlast, hchain, hthree⟩ := ih hb
    refine ⟨mid ++ b :: w, ?_, ?_, NoThreeHidden.join hs hb hlen hthree⟩
    · rw [← List.cons_append, List.getLast?_append_of_ne_nil _ (List.cons_ne_nil _ _)]
      exact hlast
    · rw [← List.cons_append] at hstretch ⊢
      exact List.isChain_split.2 ⟨hstretch, hchain⟩

/-- **Filtering with bridges keeps connectivity.**  Between kept ids, the filtered graph leads from one
to the other exactly if the original graph has a walk over resolved edges that never meets three hidden ids
in a row. -/
theorem filterByCategory_reaches_iff (g : Graph) (options : FilterOptions)
    (hactive : options.active = true) (hskip : options.skipHidden = true) (s t : String)
    (hs : g.keeps options.allows s = true) (ht : g.keeps options.allows t = true) :
    Relation.ReflTransGen (Leads (g.filterByCategory options).graph.edges) s t ↔
      ∃ w : List String, w.head? = some s ∧ w.getLast? = some t ∧
        w.IsChain (Leads (g.edgesAmong g.ids)) ∧
        ∀ a b c, [a, b, c] <:+: w →
          ¬(g.keeps options.allows a = false ∧ g.keeps options.allows b = false ∧
            g.keeps options.allows c = false) := by
  have hthree : ∀ w, NoThreeHidden (g.keeps options.allows) w ↔ ∀ a b c, [a, b, c] <:+: w →
      ¬(g.keeps options.allows a = false ∧ g.keeps options.allows b = false ∧
        g.keeps options.allows c = false) := by
    intro w
    refine forall_congr' fun a => forall_congr' fun b => forall_congr' fun c => imp_congr_right ?_
    intro _
    simp only [← Bool.not_eq_true]
    tauto
  constructor
  · intro h
    obtain ⟨w, hlast, hchain, hw⟩ := exists_walk_of_reaches hactive hskip hs h
    exact ⟨s :: w, rfl, hlast, hchain, (hthree _).1 hw⟩
  · rintro ⟨w, hhead, hlast, hchain, hw⟩
    obtain ⟨w, rfl⟩ := List.head?_eq_some_iff.1 hhead
    exact reaches_of_walk hactive hskip ht w s hs hlast hchain ((hthree _).2 hw)

theorem filterByCategory_reaches_iff_twoWays :
    (FilterOptions.only "function").active = true ∧
      (FilterOptions.only "function").skipHidden = true ∧
      twoWays.keeps (FilterOptions.only "function").allows "A" = true ∧
      twoWays.keeps (FilterOptions.only "function").allows "D" = true ∧
      ∃ w : List String, w.head? = some "A" ∧ w.getLast? = some "D" ∧
        w.IsChain (Leads (twoWays.edgesAmong twoWays.ids)) ∧
        ∀ a b c, [a, b, c] <:+: w →
          ¬(twoWays.keeps (FilterOptions.only "function").allows a = false ∧
            twoWays.keeps (FilterOptions.only "function").allows b = false ∧
            twoWays.keeps (FilterOptions.only "function").allows c = false) := by
  have hedge : Leads (twoWays.filterByCategory (FilterOptions.only "function")).graph.edges "A" "D" :=
    ⟨⟨"A", "D", some "remapped_2_hops"⟩, by decide +kernel, rfl, rfl⟩
  have hA : twoWays.keeps (FilterOptions.only "function").allows "A" = true := by decide +kernel
  have hD : twoWays.keeps (FilterOptions.only "function").allows "D" = true := by decide +kernel
  exact ⟨rfl, rfl, hA, hD, (filterByCategory_reaches_iff twoWays (FilterOptions.only "function")
    rfl rfl "A" "D" hA hD).1 (Relation.ReflTransGen.single hedge)⟩

end Graph

end CodeAtlas
