import CodeAtlas.Proofs.Hierarchy.ClaimOrder
import CodeAtlas.Proofs.Hierarchy.InputOrder
import CodeAtlas.Proofs.Hierarchy.Position

/-!
# The tree follows the order of claims

The walk that builds a tree claims entities level by level while it strikes out what has been claimed.  Its table
of claims is the one list that `Graph.ClaimOrder` describes (`Claim.claimOrder_table`), and the tree is read off
that list (`Tree.build_canonical`): a node hangs on its claimant, shows the least label that an edge between the
two has, and stands among its siblings by name, and by claim among equal names.

What one entity claims is settled first.  Its candidates are sorted by label and name, and since sorting is
stable, by the place of the edge among equals (`Claim.exists_ranked`).  Of several candidates for one id the first
is taken, so its label is the least one, and its edge the first one with that label (`Claim.leastLabel_of_first`,
`Claim.firstEdge_of_first`).
-/

namespace CodeAtlas

namespace Claim

/-! ### What one entity claims -/

/-- The claim that an entity makes along an edge. -/
def along (c : Claim) (x : (Edge × Entity) × ℕ) : Claim :=
  { entity := x.1.2, hops := c.hops + 1, relationship := some (x.1.1.labelFrom c.id), claimant := some c.id }

/-- Labels come first and names second. -/
def edgeLe (a : String) (x y : (Edge × Entity) × ℕ) : Bool :=
  candidateLe (x.1.1.labelFrom a, x.1.2) (y.1.1.labelFrom a, y.1.2)

/-- Labels come first, names second and places in the graph third. -/
def Ranked (a : String) (x y : (Edge × Entity) × ℕ) : Prop :=
  edgeLe a x y = true ∧ (edgeLe a y x = true → x.2 < y.2)

theorem Ranked.lex {a : String} {x y : (Edge × Entity) × ℕ} (h : Ranked a x y) :
    x.1.1.labelFrom a < y.1.1.labelFrom a ∨ x.1.1.labelFrom a = y.1.1.labelFrom a ∧
      (x.1.2.name < y.1.2.name ∨ x.1.2.name = y.1.2.name ∧ x.2 < y.2) := by
  rcases candidateLe_iff.1 h.1 with hlabel | ⟨hlabel, hname⟩
  · exact .inl hlabel
  · refine .inr ⟨hlabel, ?_⟩
    by_cases hlt : x.1.2.name < y.1.2.name
    · exact .inl hlt
    · have hge : y.1.2.name ≤ x.1.2.name := String.not_lt.1 hlt
      exact .inr ⟨String.le_antisymm hname hge, h.2 (candidateLe_iff.2 (.inr ⟨hlabel.symm, hge⟩))⟩

theorem exists_ranked (selected : Entity) (g : Graph) (c : Claim) :
    ∃ ranked : List ((Edge × Entity) × ℕ), expand (Index.around selected g) c = ranked.map c.along ∧
      (∀ x, x ∈ ranked ↔ x ∈ Index.numbered selected g c.id) ∧ ranked.Pairwise (Ranked c.id) := by
  refine ⟨(Index.numbered selected g c.id).mergeSort (edgeLe c.id), ?_, ?_, ?_⟩
  · have hsort : (((Index.numbered selected g c.id).mergeSort (edgeLe c.id)).map fun x =>
        (x.1.1.labelFrom c.id, x.1.2)) = candidates (Index.around selected g) c.id := by
      rw [candidates, ← Index.map_fst_numbered, List.map_map]
      apply List.map_mergeSort
      intro x _ y _
      rfl
    rw [expand, ← hsort, List.map_map]
    rfl
  · intro x
    exact (List.mergeSort_perm _ _).mem_iff
  · refine Text.pairwise_mergeSort_stable ?_ ?_ (Index.pairwise_numbered selected g c.id)
    · intro x y z
      exact candidateLe_trans _ _ _
    · intro x y
      exact candidateLe_total _ _

section First

variable {selected : Entity} {g : Graph} {a : String} {x : (Edge × Entity) × ℕ}
  (hx : x ∈ Index.numbered selected g a)
  (hfirst : ∀ y ∈ Index.numbered selected g a, y.1.2.id = x.1.2.id → y = x ∨ Ranked a x y)

include hx hfirst

/-- The first candidate for an id shows the least label. -/
theorem leastLabel_of_first : g.LeastLabel selected a x.1.2.id (x.1.1.labelFrom a) := by
  obtain ⟨-, hhop, hjoins, -⟩ := Index.mem_numbered hx
  refine ⟨⟨x.1.1, hhop, hjoins, rfl⟩, ?_⟩
  intro e he hjoins'
  obtain ⟨i, hi⟩ := List.mem_iff_getElem?.1 (Graph.mem_edgesAmong.1 he).1
  obtain ⟨q, hq, rfl, hid⟩ := Index.exists_mem_numbered hi he hjoins'
  rcases hfirst (q, i) hq hid with heq | hranked
  · exact heq ▸ String.le_refl _
  · rcases hranked.lex with hlt | ⟨heq, -⟩
    · exact String.not_lt.1 fun hgt => String.lt_irrefl _ (String.lt_trans hlt hgt)
    · exact heq ▸ String.le_refl _

/-- The first candidate for an id is met over the first edge with its label. -/
theorem firstEdge_of_first : g.firstEdge a x.1.2.id (x.1.1.labelFrom a) = x.2 := by
  obtain ⟨hplace, hhop, hjoins, hknown⟩ := Index.mem_numbered hx
  obtain ⟨hlt, hedge⟩ := List.getElem?_eq_some_iff.1 hplace
  refine (List.findIdx_eq hlt).2 ⟨?_, ?_⟩
  · rw [hedge]
    exact decide_eq_true ⟨hjoins, rfl⟩
  · intro j hj
    apply decide_eq_false
    rintro ⟨hjoins', hlabel⟩
    -- an edge before that would be another candidate for the id, with the same label and the same name
    have hj' := List.getElem?_eq_getElem (Nat.lt_trans hj hlt)
    obtain ⟨q, hq, hqedge, hid⟩ := Index.exists_mem_numbered hj'
      (Graph.mem_hopEdges_of_joins hhop hjoins (List.getElem_mem _) hjoins') hjoins'
    have hentity : q.2 = x.1.2 := by
      have hknown' := (Index.mem_numbered hq).2.2.2
      rw [hid, hknown] at hknown'
      exact (Option.some.inj hknown').symm
    rcases hfirst (q, j) hq hid with heq | hranked
    · rw [← heq] at hj
      exact Nat.lt_irrefl _ hj
    · have hle : edgeLe a (q, j) x = true := by
        refine candidateLe_iff.2 (.inr ⟨?_, hentity ▸ String.le_refl _⟩)
        rw [hqedge]
        exact hlabel
      exact Nat.lt_asymm hj (hranked.2 hle)

end First

variable {selected : Entity} {g : Graph} {maxDepth : ℕ}

/-- A claim shows the least label, and claims of one entity are made in the order that it prefers. -/
theorem ranked_of_fresh (c : Claim) (seen : List String) :
    (∀ d ∈ Walk.fresh Claim.id seen (expand (Index.around selected g) c),
      ∃ label, d.relationship = some label ∧ g.LeastLabel selected c.id d.id label) ∧
    (Walk.fresh Claim.id seen (expand (Index.around selected g) c)).Pairwise fun d d' =>
      g.Preferred selected c.id d.entity d'.entity := by
  obtain ⟨ranked, hexpand, hmem, hsorted⟩ := exists_ranked selected g c
  rw [hexpand, Walk.fresh_map]
  have hnumbered : ∀ x ∈ Walk.fresh (fun x => (c.along x).id) seen ranked,
      x ∈ Index.numbered selected g c.id := by
    intro x hx
    exact (hmem x).1 ((Walk.fresh_sublist _ _).subset hx)
  have hfirst : ∀ x ∈ Walk.fresh (fun x => (c.along x).id) seen ranked,
      ∀ y ∈ Index.numbered selected g c.id, y.1.2.id = x.1.2.id → y = x ∨ Ranked c.id x y := by
    intro x hx y hy hid
    exact Walk.eq_or_of_mem_fresh hsorted hx y ((hmem y).2 hy) hid
  constructor
  · intro d hd
    obtain ⟨x, hx, rfl⟩ := List.mem_map.1 hd
    exact ⟨_, rfl, leastLabel_of_first (hnumbered x hx) (hfirst x hx)⟩
  · refine List.pairwise_map.2 ((hsorted.sublist (Walk.fresh_sublist _ _)).imp_of_mem ?_)
    intro x y hx hy hxy
    refine ⟨_, _, leastLabel_of_first (hnumbered x hx) (hfirst x hx),
      leastLabel_of_first (hnumbered y hy) (hfirst y hy), ?_⟩
    have hlex := hxy.lex
    rw [← firstEdge_of_first (hnumbered x hx) (hfirst x hx), ← firstEdge_of_first (hnumbered y hy) (hfirst y hy)]
      at hlex
    exact hlex

/-! ### The table of claims -/

/-- The claims whose entities make claims themselves, in the order of the table. -/
def claimants (index : Index) (selected : Entity) (maxDepth : ℕ) : List Claim :=
  (([root selected] :: levels index selected maxDepth).take maxDepth).flatten

theorem flatten_levels_eq (index : Index) (selected : Entity) (maxDepth : ℕ) :
    (levels index selected maxDepth).flatten =
      Walk.fresh Claim.id [selected.id] ((claimants index selected maxDepth).flatMap (expand index)) :=
  Walk.flatten_levels _ _ _ _ _

theorem claimants_sublist (index : Index) (selected : Entity) (maxDepth : ℕ) :
    (claimants index selected maxDepth).Sublist (table index selected maxDepth) := by
  have htable : table index selected maxDepth = ([root selected] :: levels index selected maxDepth).flatten := rfl
  rw [htable, ← List.take_append_drop maxDepth ([root selected] :: levels index selected maxDepth),
    List.flatten_append, claimants]
  exact List.sublist_append_left _ _

theorem mem_claimants {index : Index} {c : Claim} (hc : c ∈ table index selected maxDepth)
    (hhops : c.hops < maxDepth) : c ∈ claimants index selected maxDepth := by
  have hlevel : ∃ i l, ([root selected] :: levels index selected maxDepth)[i]? = some l ∧ c ∈ l ∧ i = c.hops := by
    rcases List.mem_cons.1 hc with rfl | hc
    · exact ⟨0, [root selected], rfl, List.mem_singleton_self _, rfl⟩
    · obtain ⟨i, l, hl, hcl⟩ := Walk.exists_level_of_mem_flatten hc
      exact ⟨i + 1, l, hl, hcl, (hops_of_mem_level hl c hcl).symm⟩
  obtain ⟨i, l, hl, hcl, hi⟩ := hlevel
  refine List.mem_flatten.2 ⟨l, List.mem_of_getElem? (i := i) ?_, hcl⟩
  rw [List.getElem?_take_of_lt (hi ▸ hhops)]
  exact hl

/-- The entities claimed, in the order of the claims. -/
def order (selected : Entity) (g : Graph) (maxDepth : ℕ) : List Entity :=
  (table (Index.around selected g) selected maxDepth).map Claim.entity

theorem nodup_map_id_order (selected : Entity) (g : Graph) (maxDepth : ℕ) :
    ((order selected g maxDepth).map Entity.id).Nodup := by
  rw [order, List.map_map]
  exact nodup_table _ _ _

theorem pairwise_table (selected : Entity) (g : Graph) (maxDepth : ℕ) :
    (table (Index.around selected g) selected maxDepth).Pairwise fun c d =>
      (order selected g maxDepth).idxOf c.entity < (order selected g maxDepth).idxOf d.entity := by
  have hplaces := Text.pairwise_idxOf ((nodup_map_id_order selected g maxDepth).of_map _)
  nth_rewrite 3 [order] at hplaces
  rw [List.pairwise_map] at hplaces
  exact hplaces

theorem hops_le {d : Claim} (hd : d ∈ table (Index.around selected g) selected maxDepth) : d.hops ≤ maxDepth := by
  have hle := mem_table_iff.1 (List.mem_map_of_mem hd)
  rw [edist_eq_hops hd] at hle
  exact Nat.cast_le.1 hle

/-- Being the first in the table to lead to an id is being the first one next to it and one hop nearer. -/
theorem claimant_of_first {c d : Claim} (hc : c ∈ table (Index.around selected g) selected maxDepth)
    (hd : d ∈ table (Index.around selected g) selected maxDepth) (hexpand : d ∈ expand (Index.around selected g) c)
    (hfirst : ∀ c' ∈ claimants (Index.around selected g) selected maxDepth,
      d.id ∈ (expand (Index.around selected g) c').map Claim.id →
        c' = c ∨ (order selected g maxDepth).idxOf c.entity < (order selected g maxDepth).idxOf c'.entity) :
    g.Claimant selected (order selected g maxDepth) c.entity d.entity := by
  have hdist : ∀ {b : Claim}, b ∈ table (Index.around selected g) selected maxDepth →
      (g.hopGraph selected).edist selected.id b.entity.id = b.hops := edist_eq_hops
  have hhops := hops_of_mem_expand hexpand
  have hne : d.id ≠ c.id := by
    intro heq
    have hsame : (d.hops : ℕ∞) = c.hops := (hdist hd).symm.trans ((congrArg _ heq).trans (hdist hc))
    have hsame := Nat.cast_inj.1 hsame
    omega
  refine ⟨List.mem_map_of_mem hc, (spans_expand selected g c d.id hne).1 ⟨d, hexpand, rfl⟩, ?_, ?_⟩
  · rw [hdist hd, hdist hc, hhops, Nat.cast_succ]
  · intro q hq hadj hnear
    obtain ⟨c', hc', rfl⟩ := List.mem_map.1 hq
    rw [hdist hd, hdist hc', ← Nat.cast_succ, Nat.cast_inj] at hnear
    have hwithin := hops_le hd
    obtain ⟨y, hy, hid⟩ := (spans_expand selected g c' d.id hadj.ne').2 hadj
    rcases hfirst c' (mem_claimants hc' (by omega)) (List.mem_map.2 ⟨y, hy, hid⟩) with rfl | hlt
    · exact Nat.le_refl _
    · exact Nat.le_of_lt hlt

/-- Every claim is made by the claimant of its entity, under the least label between the two. -/
theorem exists_claimant {d : Claim} (hd : d ∈ (levels (Index.around selected g) selected maxDepth).flatten) :
    ∃ c ∈ table (Index.around selected g) selected maxDepth, d.claimant = some c.id ∧
      (∃ label, d.relationship = some label ∧ g.LeastLabel selected c.id d.id label) ∧
      g.Claimant selected (order selected g maxDepth) c.entity d.entity := by
  have hfresh := hd
  rw [flatten_levels_eq] at hfresh
  obtain ⟨c, hc, ⟨seen, hdc⟩, hfirst⟩ := Walk.exists_first_of_mem_fresh
    ((pairwise_table selected g maxDepth).sublist (claimants_sublist _ _ _)) hfresh
  have hc_table := (claimants_sublist _ _ _).subset hc
  have hexpand := (Walk.fresh_sublist _ _).subset hdc
  exact ⟨c, hc_table, claimant_of_mem_expand hexpand, (ranked_of_fresh c seen).1 d hdc,
    claimant_of_first hc_table (List.mem_cons_of_mem _ hd) hexpand hfirst⟩

/-- In the table, claims of one entity stand in the order it prefers, and others in the order of their claimants. -/
theorem pairwise_flatten_levels (selected : Entity) (g : Graph) (maxDepth : ℕ) :
    (levels (Index.around selected g) selected maxDepth).flatten.Pairwise fun d d' =>
      ∃ c ∈ table (Index.around selected g) selected maxDepth,
        ∃ c' ∈ table (Index.around selected g) selected maxDepth, d.claimant = some c.id ∧ d'.claimant = some c'.id ∧
          ((order selected g maxDepth).idxOf c.entity < (order selected g maxDepth).idxOf c'.entity ∨
            c = c' ∧ g.Preferred selected c.id d.entity d'.entity) := by
  rw [flatten_levels_eq]
  apply Walk.pairwise_fresh_flatMap
  · intro c hc seen
    have hc_table := (claimants_sublist _ _ _).subset hc
    refine (ranked_of_fresh c seen).2.imp_of_mem ?_
    intro d d' hd hd' hprefers
    exact ⟨c, hc_table, c, hc_table, claimant_of_mem_expand ((Walk.fresh_sublist _ _).subset hd),
      claimant_of_mem_expand ((Walk.fresh_sublist _ _).subset hd'), .inr ⟨rfl, hprefers⟩⟩
  · refine ((pairwise_table selected g maxDepth).sublist (claimants_sublist _ _ _)).imp_of_mem ?_
    intro c c' hc hc' hlt d hd d' hd'
    exact ⟨c, (claimants_sublist _ _ _).subset hc, c', (claimants_sublist _ _ _).subset hc',
      claimant_of_mem_expand hd, claimant_of_mem_expand hd', .inl hlt⟩

theorem eq_of_id_eq {index : Index} {c c' : Claim} (hc : c ∈ table index selected maxDepth)
    (hc' : c' ∈ table index selected maxDepth) (hid : c.id = c'.id) : c = c' :=
  List.inj_on_of_nodup_map (nodup_table index selected maxDepth) hc hc' hid

theorem entity?_of_mem_levels {d : Claim} (hd : d ∈ (levels (Index.around selected g) selected maxDepth).flatten) :
    g.entity? d.id = some d.entity := by
  obtain ⟨a, -, q, hq, hentity, -⟩ := made_of_mem_levels hd
  have hne : d.id ≠ selected.id := by
    intro hid
    have hmem : d.id ∈ (levels (Index.around selected g) selected maxDepth).flatten.map Claim.id :=
      List.mem_map_of_mem hd
    rw [hid] at hmem
    exact Walk.not_mem_flatten_levels Claim.id _ _ selected.id (root selected) hmem
  rw [id, hentity] at hne ⊢
  exact Index.graph_entity?_of_around hne (Index.mem_touching_around hq).2.2

/-- The table of claims is in the order of claims. -/
theorem claimOrder_table (selected : Entity) (g : Graph) (maxDepth : ℕ) :
    g.ClaimOrder selected maxDepth (order selected g maxDepth) where
  head := rfl
  known := by
    intro e he
    obtain ⟨d, hd, rfl⟩ := List.mem_map.1 he
    exact entity?_of_mem_levels hd
  reached := by
    intro id
    rw [order, List.map_map]
    exact mem_table_iff
  nodup := nodup_map_id_order selected g maxDepth
  sorted := by
    refine List.pairwise_map.2 ((pairwise_flatten_levels selected g maxDepth).imp_of_mem ?_)
    intro d d' hd hd' ⟨c, hc, c', hc', hclaimant, hclaimant', hbefore⟩
    obtain ⟨p, hp, hpd, -, hfirst⟩ := exists_claimant hd
    obtain ⟨p', hp', hpd', -, hfirst'⟩ := exists_claimant hd'
    obtain rfl : c = p := eq_of_id_eq hc hp (Option.some.inj (hclaimant.symm.trans hpd))
    obtain rfl : c' = p' := eq_of_id_eq hc' hp' (Option.some.inj (hclaimant'.symm.trans hpd'))
    refine ⟨c.entity, c'.entity, hfirst, hfirst', ?_⟩
    rcases hbefore with hlt | ⟨rfl, hprefers⟩
    · exact .inl hlt
    · exact .inr ⟨rfl, hprefers⟩

end Claim

/-! ### The tree -/

namespace Node

theorem entity_assemble (levels : List (List Claim)) (c : Claim) : (assemble levels c).entity = c.entity :=
  congrArg Node.entity (bare_assemble levels c)

/-- Children stand by name, and with the same name in the order of the claims. -/
theorem pairwise_children_assemble {r : Entity → Entity → Prop} {levels : List (List Claim)} {c : Claim}
    (hr : (levels.flatten.map Claim.entity).Pairwise r) {p : Node} (hp : p ∈ (assemble levels c).preorder) :
    p.children.Pairwise fun m n => m.name < n.name ∨ m.name = n.name ∧ r m.entity n.entity := by
  induction levels generalizing c with
  | nil =>
    have hleaf : (assemble [] c).children = [] := rfl
    rw [preorder_eq, hleaf, List.flatMap_nil, List.mem_singleton] at hp
    rw [hp, hleaf]
    exact List.Pairwise.nil
  | cons next deeper ih =>
    rw [List.flatten_cons, List.map_append, List.pairwise_append] at hr
    rw [preorder_eq] at hp
    rcases List.mem_cons.1 hp with rfl | hp
    · have hown : ((ownClaims next c).map (assemble deeper)).Pairwise fun m n => r m.entity n.entity := by
        have hentities : ((ownClaims next c).map Claim.entity).Pairwise r := hr.1.sublist (List.filter_sublist.map _)
        rw [List.pairwise_map] at hentities ⊢
        refine hentities.imp ?_
        intro d d' hdd'
        rw [entity_assemble, entity_assemble]
        exact hdd'
      exact Text.pairwise_sortOn_stable hown
    · obtain ⟨n, hn, hp⟩ := List.mem_flatMap.1 hp
      obtain ⟨d, -, -, rfl⟩ := mem_children_assemble hn
      exact ih hr.2.1 hp

/-- Every node below the root of a tree is the child of a node. -/
theorem exists_parent_of_mem_tail_preorder {n m : Node} (h : m ∈ n.preorder.tail) :
    ∃ p ∈ n.preorder, m ∈ p.children := by
  induction n using below_induction with
  | step n ih =>
  rw [preorder_eq, List.tail_cons] at h
  obtain ⟨c, hc, hm⟩ := List.mem_flatMap.1 h
  rw [preorder_eq] at hm
  rcases List.mem_cons.1 hm with rfl | hm
  · exact ⟨n, by rw [preorder_eq]; exact List.mem_cons_self, hc⟩
  · obtain ⟨i, hi⟩ := List.mem_iff_getElem?.1 hc
    obtain ⟨p, hp, hmp⟩ := ih (.child i) c hi (by rw [preorder_eq]; exact hm)
    refine ⟨p, ?_, hmp⟩
    rw [preorder_eq]
    exact List.mem_cons_of_mem _ (List.mem_flatMap.2 ⟨c, hc, hp⟩)

end Node

namespace Tree

variable {selected : Entity} {g : Graph} {maxDepth : ℕ}

/-- A child hangs on its claimant, one hop farther, and shows the least label between the two. -/
theorem claimant_of_mem_children {p c : Node} (hp : p ∈ (build selected g maxDepth).root.preorder)
    (hc : c ∈ p.children) :
    g.Claimant selected (Claim.order selected g maxDepth) p.entity c.entity ∧ c.parentId = some p.id ∧
      (∃ label, c.relationship = some label ∧ g.LeastLabel selected p.id c.id label) ∧
      ∃ k : ℕ, (g.hopGraph selected).edist selected.id p.id = k ∧
        (g.hopGraph selected).edist selected.id c.id = (k + 1 : ℕ) ∧ c.depth = Node.depthOfHops (k + 1) := by
  obtain ⟨d, hd, hclaimant, hbare⟩ := exists_claim_of_mem_children hp hc
  obtain ⟨b, hb, hbare_p⟩ := exists_claim_of_mem_preorder hp
  obtain ⟨b', hb', hclaimant', ⟨label, hlabel, hleast⟩, hfirst⟩ := Claim.exists_claimant hd
  have hp_entity : p.entity = b.entity := congrArg Node.entity hbare_p
  have hc_entity : c.entity = d.entity := congrArg Node.entity hbare
  have hp_id : p.id = b.id := congrArg Entity.id hp_entity
  have hc_id : c.id = d.id := congrArg Entity.id hc_entity
  obtain rfl : b' = b := by
    apply Claim.eq_of_id_eq hb' hb
    rw [← hp_id]
    exact Option.some.inj (hclaimant'.symm.trans hclaimant)
  have hparent : c.parentId = d.claimant := congrArg Node.parentId hbare
  have hrelationship : c.relationship = d.relationship := congrArg Node.relationship hbare
  have hdepth : c.depth = Node.depthOfHops d.hops := (congrArg Node.depth hbare).trans (Node.depth_leaf d)
  have hdist : (g.hopGraph selected).edist selected.id b'.id = b'.hops := Claim.edist_eq_hops hb
  have hdist' : (g.hopGraph selected).edist selected.id d.id = d.hops :=
    Claim.edist_eq_hops (List.mem_cons_of_mem _ hd)
  have hhops : d.hops = b'.hops + 1 := by
    have hnearer : (g.hopGraph selected).edist selected.id d.id = (g.hopGraph selected).edist selected.id b'.id + 1 :=
      hfirst.nearer
    rw [hdist, hdist', ← Nat.cast_succ, Nat.cast_inj] at hnearer
    exact hnearer
  rw [hp_entity, hc_entity, hp_id, hc_id]
  refine ⟨hfirst, hparent.trans hclaimant', ⟨label, hrelationship.trans hlabel, hleast⟩, b'.hops, hdist, ?_, ?_⟩
  · rw [hdist', hhops]
  · rw [hdepth, hhops]

theorem pairwise_children {p : Node} (hp : p ∈ (build selected g maxDepth).root.preorder) :
    p.children.Pairwise fun b c => b.name < c.name ∨ b.name = c.name ∧
      (Claim.order selected g maxDepth).idxOf b.entity < (Claim.order selected g maxDepth).idxOf c.entity := by
  obtain ⟨p', hp', -, hchildren⟩ := exists_assembled_of_mem_preorder hp
  have hplaces := Text.pairwise_idxOf ((Claim.nodup_map_id_order selected g maxDepth).of_map _)
  rw [← hchildren]
  exact Node.pairwise_children_assemble (List.pairwise_cons.1 hplaces).2 hp'

/-- **Parents, labels and siblings are canonical.**  There is one order of claims, and the tree follows it.  Every
node below the root hangs on its claimant: of the entities next to it and one hop nearer to the root, the first
one in that order.  It names this parent, shows the least label that an edge between the two has as seen from the
parent, and stands at its distance.  The children of a node stand by name, and with the same name in the order of
claims. -/
theorem build_canonical (selected : Entity) (g : Graph) (maxDepth : ℕ) :
    ∃ order, g.ClaimOrder selected maxDepth order ∧
      (∀ order', g.ClaimOrder selected maxDepth order' → order' = order) ∧
      (∀ c ∈ (build selected g maxDepth).root.preorder.tail,
        ∃ p ∈ (build selected g maxDepth).root.preorder, c ∈ p.children) ∧
      ∀ p ∈ (build selected g maxDepth).root.preorder,
        (∀ c ∈ p.children, g.Claimant selected order p.entity c.entity ∧ c.parentId = some p.id ∧
          (∃ label, c.relationship = some label ∧ g.LeastLabel selected p.id c.id label) ∧
          ∃ k : ℕ, (g.hopGraph selected).edist selected.id p.id = k ∧
            (g.hopGraph selected).edist selected.id c.id = (k + 1 : ℕ) ∧ c.depth = Node.depthOfHops (k + 1)) ∧
        p.children.Pairwise fun b c => b.name < c.name ∨ b.name = c.name ∧
          order.idxOf b.entity < order.idxOf c.entity := by
  have horder := Claim.claimOrder_table selected g maxDepth
  refine ⟨Claim.order selected g maxDepth, horder, fun order' h => h.unique horder, ?_, ?_⟩
  · intro c hc
    exact Node.exists_parent_of_mem_tail_preorder hc
  · intro p hp
    exact ⟨fun c hc => claimant_of_mem_children hp hc, pairwise_children hp⟩

/-- In the diamond, `b` hangs on `a` under the lesser of two labels, though the edge with the other one comes
first. -/
theorem build_canonical_diamond :
    ∃ p ∈ (build (Entity.plain "a" "function") diamond 2).root.preorder, ∃ c ∈ p.children,
      p.id = "a" ∧ c.id = "b" ∧ c.parentId = some "a" ∧ c.relationship = some "called by" := by
  obtain ⟨order, -, -, hparent, htree⟩ := build_canonical (Entity.plain "a" "function") diamond 2
  have hadj : (diamond.hopGraph (Entity.plain "a" "function")).Adj "a" "b" :=
    ⟨by decide, ⟨"a", "b", some "uses"⟩, by decide, by decide⟩
  have hdist : (diamond.hopGraph (Entity.plain "a" "function")).edist "a" "b" = 1 :=
    SimpleGraph.edist_eq_one_iff_adj.2 hadj
  have hid : "b" ∈ (build (Entity.plain "a" "function") diamond 2).root.preorder.map Node.id :=
    mem_map_id_preorder_build.2 (Graph.mem_rings_iff.1 (by decide))
  obtain ⟨c, hc, hcid⟩ := List.mem_map.1 hid
  have htail : c ∈ (build (Entity.plain "a" "function") diamond 2).root.preorder.tail := by
    rw [Node.preorder_eq] at hc ⊢
    rcases List.mem_cons.1 hc with rfl | hc
    · have hroot : (build (Entity.plain "a" "function") diamond 2).root.id = "a" :=
        Node.id_assemble _ (Claim.root (Entity.plain "a" "function"))
      exact absurd (hroot.symm.trans hcid) (by decide)
    · exact hc
  obtain ⟨p, hp, hcp⟩ := hparent c htail
  obtain ⟨-, hparentId, ⟨label, hlabel, hleast⟩, k, hk, hk', -⟩ := (htree p hp).1 c hcp
  rw [hcid, show (Entity.plain "a" "function").id = "a" from rfl, hdist] at hk'
  have hzero : k = 0 := by
    have hone : (1 : ℕ) = k + 1 := Nat.cast_inj.1 hk'
    omega
  have hpid : p.id = "a" := by
    rw [hzero, Nat.cast_zero, SimpleGraph.edist_eq_zero_iff] at hk
    exact hk.symm
  rw [hpid, hcid] at hleast
  have hcalled : diamond.LeastLabel (Entity.plain "a" "function") "a" "b" "called by" :=
    ⟨⟨Edge.plain "b" "a", by decide, by decide, by decide⟩, by decide⟩
  exact ⟨p, hp, c, hcp, hpid, hcid, hparentId.trans (congrArg some hpid),
    hlabel.trans (congrArg some (hleast.unique hcalled))⟩

end Tree

end CodeAtlas
