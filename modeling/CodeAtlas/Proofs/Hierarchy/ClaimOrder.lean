import CodeAtlas.Proofs.Graph.EdgeOrder

/-!
# The order of claims

Who claims whom can be said without a walk.  `Graph.ClaimOrder` describes a list of all entities within a number
of hops: the selected one comes first, an entity is claimed by the first one in the list that is next to it and
one hop nearer (`Graph.Claimant`), and the list follows the claimants, and for one claimant the labels, the names
and the places of edges (`Graph.Preferred`).

The description speaks of the list itself, since claimants are told apart by their places in it.  There is still
one such list only (`ClaimOrder.unique`): the places of entities up to some distance settle who claims the
entities one hop farther, and thereby their places.
-/

namespace CodeAtlas

namespace Graph

variable (g : Graph) (selected : Entity)

/-- Of the entities in the list that are next to `c` and one hop nearer to the selected one, `p` is the first. -/
structure Claimant (order : List Entity) (p c : Entity) : Prop where
  mem : p ∈ order
  adj : (g.hopGraph selected).Adj p.id c.id
  nearer : (g.hopGraph selected).edist selected.id c.id = (g.hopGraph selected).edist selected.id p.id + 1
  first : ∀ q ∈ order, (g.hopGraph selected).Adj q.id c.id →
    (g.hopGraph selected).edist selected.id c.id = (g.hopGraph selected).edist selected.id q.id + 1 →
      order.idxOf p ≤ order.idxOf q

/-- Next to the id, `b` comes before `c` by label, or else by name, or else by the first edge with the label. -/
def Preferred (a : String) (b c : Entity) : Prop :=
  ∃ label label', g.LeastLabel selected a b.id label ∧ g.LeastLabel selected a c.id label' ∧
    (label < label' ∨ label = label' ∧
      (b.name < c.name ∨ b.name = c.name ∧ g.firstEdge a b.id label < g.firstEdge a c.id label'))

/-- In the list, the claimant of `b` comes before that of `c`, or it is the same one and prefers `b`. -/
def ClaimedBefore (order : List Entity) (b c : Entity) : Prop :=
  ∃ p q, g.Claimant selected order p b ∧ g.Claimant selected order q c ∧
    (order.idxOf p < order.idxOf q ∨ p = q ∧ g.Preferred selected p.id b c)

/-- The list holds the entities within a number of hops in the order of claims. -/
structure ClaimOrder (maxDepth : ℕ) (order : List Entity) : Prop where
  head : order.head? = some selected
  known : ∀ e ∈ order.tail, g.entity? e.id = some e
  reached : ∀ id, id ∈ order.map Entity.id ↔ (g.hopGraph selected).edist selected.id id ≤ maxDepth
  nodup : (order.map Entity.id).Nodup
  sorted : order.tail.Pairwise (g.ClaimedBefore selected order)

variable {g selected}

theorem Preferred.asymm {a : String} {b c : Entity} (h : g.Preferred selected a b c)
    (h' : g.Preferred selected a c b) : False := by
  obtain ⟨label, label', hb, hc, hbefore⟩ := h
  obtain ⟨label'', label''', hc', hb', hafter⟩ := h'
  obtain rfl := hb.unique hb'
  obtain rfl := hc.unique hc'
  rcases hbefore with hlt | ⟨rfl, hbefore⟩
  · rcases hafter with hgt | ⟨heq, -⟩
    · exact String.lt_irrefl _ (String.lt_trans hlt hgt)
    · exact String.lt_irrefl _ (heq ▸ hlt)
  · replace hafter := hafter.resolve_left (String.lt_irrefl _)
    rcases hbefore with hlt | ⟨heq, hlt⟩
    · rcases hafter.2 with hgt | ⟨heq, -⟩
      · exact String.lt_irrefl _ (String.lt_trans hlt hgt)
      · exact String.lt_irrefl _ (heq ▸ hlt)
    · rcases hafter.2 with hgt | ⟨-, hgt⟩
      · exact String.lt_irrefl _ (heq ▸ hgt)
      · exact Nat.lt_asymm hlt hgt

namespace ClaimOrder

variable {maxDepth : ℕ} {order order' : List Entity}

theorem exists_eq_cons (h : g.ClaimOrder selected maxDepth order) : ∃ rest, order = selected :: rest :=
  List.head?_eq_some_iff.1 h.head

theorem nodup_order (h : g.ClaimOrder selected maxDepth order) : order.Nodup :=
  h.nodup.of_map _

theorem mem_tail_iff (h : g.ClaimOrder selected maxDepth order) {e : Entity} :
    e ∈ order.tail ↔ e ∈ order ∧ e.id ≠ selected.id := by
  obtain ⟨rest, rfl⟩ := h.exists_eq_cons
  have hnodup := h.nodup
  rw [List.map_cons, List.nodup_cons] at hnodup
  constructor
  · intro he
    refine ⟨List.mem_cons_of_mem _ he, ?_⟩
    intro heq
    exact hnodup.1 (heq ▸ List.mem_map_of_mem he)
  · rintro ⟨he, hne⟩
    exact (List.mem_cons.1 he).resolve_left fun heq => hne (heq ▸ rfl)

theorem eq_selected (h : g.ClaimOrder selected maxDepth order) {e : Entity} (he : e ∈ order)
    (hid : e.id = selected.id) : e = selected := by
  obtain ⟨rest, rfl⟩ := h.exists_eq_cons
  rcases List.mem_cons.1 he with heq | he
  · exact heq
  · exact absurd hid (h.mem_tail_iff.1 he).2

/-- The description settles which entities are listed. -/
theorem subset (h : g.ClaimOrder selected maxDepth order) (h' : g.ClaimOrder selected maxDepth order') :
    order ⊆ order' := by
  intro e he
  have hid : e.id ∈ order'.map Entity.id := (h'.reached _).2 ((h.reached _).1 (List.mem_map_of_mem he))
  obtain ⟨e', he', heq⟩ := List.mem_map.1 hid
  by_cases hselected : e.id = selected.id
  · rw [h.eq_selected he hselected, ← h'.eq_selected he' (heq.trans hselected)]
    exact he'
  · have hknown := h.known e (h.mem_tail_iff.2 ⟨he, hselected⟩)
    have hknown' := h'.known e' (h'.mem_tail_iff.2 ⟨he', heq ▸ hselected⟩)
    rw [heq, hknown] at hknown'
    rw [Option.some.inj hknown']
    exact he'

theorem id_ne_of_idxOf_lt (h : g.ClaimOrder selected maxDepth order) {b c : Entity} (hc : c ∈ order)
    (hlt : order.idxOf b < order.idxOf c) : c.id ≠ selected.id := by
  intro hid
  obtain ⟨rest, rfl⟩ := h.exists_eq_cons
  rw [h.eq_selected hc hid, List.idxOf_cons_self] at hlt
  exact Nat.not_lt_zero _ hlt

/-- Behind the selected entity, places follow the claims. -/
theorem claimedBefore_of_idxOf_lt (h : g.ClaimOrder selected maxDepth order) {b c : Entity} (hb : b.id ≠ selected.id)
    (hc : c ∈ order) (hlt : order.idxOf b < order.idxOf c) : g.ClaimedBefore selected order b c := by
  have hsorted := h.sorted
  have hc_ne := h.id_ne_of_idxOf_lt hc hlt
  have hmem := h.mem_tail_iff.2 ⟨hc, hc_ne⟩
  obtain ⟨rest, hrest⟩ := h.exists_eq_cons
  rw [hrest, List.tail_cons] at hmem
  rw [hrest, List.tail_cons, ← hrest] at hsorted
  refine Text.rel_of_idxOf_lt hsorted hmem ?_
  have hne : ∀ {e : Entity}, e.id ≠ selected.id → selected ≠ e := by
    intro e he heq
    exact he (heq ▸ rfl)
  rw [hrest, List.idxOf_cons_ne _ (hne hb), List.idxOf_cons_ne _ (hne hc_ne)] at hlt
  exact Nat.lt_of_succ_lt_succ hlt

/-- Two lists that agree on the places up to a distance agree on the claimants one hop farther. -/
theorem claimant_eq (h : g.ClaimOrder selected maxDepth order) (h' : g.ClaimOrder selected maxDepth order')
    {p p' c : Entity} (hp : g.Claimant selected order p c) (hp' : g.Claimant selected order' p' c)
    (hplaces : order.idxOf p < order.idxOf p' → order'.idxOf p < order'.idxOf p') : p = p' := by
  have hle := hp.first p' (h'.subset h hp'.mem) hp'.adj hp'.nearer
  have hge := hp'.first p (h.subset h' hp.mem) hp.adj hp.nearer
  have hnot : ¬ order.idxOf p < order.idxOf p' := fun hlt => absurd (hplaces hlt) (Nat.not_lt_of_le hge)
  exact (List.idxOf_inj hp.mem).1 (Nat.le_antisymm hle (Nat.le_of_not_lt hnot))

/-- Two lists agree on the places of the entities within any distance. -/
theorem idxOf_lt (h : g.ClaimOrder selected maxDepth order) (h' : g.ClaimOrder selected maxDepth order') (k : ℕ)
    {b c : Entity} (hb : b ∈ order) (hc : c ∈ order) (hbk : (g.hopGraph selected).edist selected.id b.id ≤ k)
    (hck : (g.hopGraph selected).edist selected.id c.id ≤ k) (hlt : order.idxOf b < order.idxOf c) :
    order'.idxOf b < order'.idxOf c := by
  induction k generalizing b c with
  | zero =>
    have hzero : ∀ {e : Entity}, e ∈ order → (g.hopGraph selected).edist selected.id e.id ≤ (0 : ℕ) →
        e = selected := by
      intro e he hdist
      rw [Nat.cast_zero, nonpos_iff_eq_zero, SimpleGraph.edist_eq_zero_iff] at hdist
      exact h.eq_selected he hdist.symm
    rw [hzero hb hbk, hzero hc hck] at hlt
    exact absurd hlt (Nat.lt_irrefl _)
  | succ k ih =>
    have hnear : ∀ {l : List Entity} {p e : Entity}, g.Claimant selected l p e →
        (g.hopGraph selected).edist selected.id e.id ≤ (k + 1 : ℕ) →
          (g.hopGraph selected).edist selected.id p.id ≤ k := by
      intro l p e hp he
      rw [hp.nearer, Nat.cast_succ] at he
      exact (ENat.add_le_add_iff_right ENat.one_ne_top).1 he
    have hc' := h.subset h' hc
    by_cases hselected : b.id = selected.id
    · -- the selected entity comes first
      obtain ⟨rest, hrest⟩ := h'.exists_eq_cons
      have hne : selected ≠ c := by
        intro heq
        rw [← heq, h.eq_selected hb hselected] at hlt
        exact Nat.lt_irrefl _ hlt
      rw [h.eq_selected hb hselected, hrest, List.idxOf_cons_self, List.idxOf_cons_ne _ hne]
      exact Nat.succ_pos _
    · have hb' := h.subset h' hb
      by_contra hnot
      have hne : b ≠ c := by
        intro heq
        rw [heq] at hlt
        exact Nat.lt_irrefl _ hlt
      have hgt : order'.idxOf c < order'.idxOf b := by
        refine Nat.lt_of_le_of_ne (Nat.le_of_not_lt hnot) ?_
        intro heq
        exact hne ((List.idxOf_inj hc').1 heq).symm
      obtain ⟨p, q, hp, hq, hbefore⟩ := h.claimedBefore_of_idxOf_lt hselected hc hlt
      obtain ⟨q', p', hq', hp', hafter⟩ := h'.claimedBefore_of_idxOf_lt (h.id_ne_of_idxOf_lt hc hlt) hb' hgt
      obtain rfl : p = p' := claimant_eq h h' hp hp' fun hlt =>
        ih hp.mem (h'.subset h hp'.mem) (hnear hp hbk) (hnear hp' hbk) hlt
      obtain rfl : q = q' := claimant_eq h h' hq hq' fun hlt =>
        ih hq.mem (h'.subset h hq'.mem) (hnear hq hck) (hnear hq' hck) hlt
      rcases hbefore with hpq | ⟨rfl, hprefers⟩
      · have hpq' := ih hp.mem hq.mem (hnear hp hbk) (hnear hq hck) hpq
        rcases hafter with hqp | ⟨rfl, -⟩
        · exact Nat.lt_asymm hpq' hqp
        · exact Nat.lt_irrefl _ hpq'
      · rcases hafter with hqp | ⟨-, hprefers'⟩
        · exact Nat.lt_irrefl _ hqp
        · exact hprefers.asymm hprefers'

/-- There is at most one order of claims. -/
theorem unique (h : g.ClaimOrder selected maxDepth order) (h' : g.ClaimOrder selected maxDepth order') :
    order = order' := by
  have hperm : order.Perm order' := by
    refine (List.perm_ext_iff_of_nodup h.nodup_order h'.nodup_order).2 ?_
    intro e
    exact ⟨fun he => h.subset h' he, fun he => h'.subset h he⟩
  have hwithin : ∀ e ∈ order, (g.hopGraph selected).edist selected.id e.id ≤ maxDepth := by
    intro e he
    exact (h.reached _).1 (List.mem_map_of_mem he)
  have hsorted : order.Pairwise fun a b => order'.idxOf a < order'.idxOf b := by
    refine (Text.pairwise_idxOf h.nodup_order).imp_of_mem ?_
    intro b c hb hc hlt
    exact idxOf_lt h h' maxDepth hb hc (hwithin b hb) (hwithin c hc) hlt
  refine hperm.eq_of_pairwise ?_ hsorted (Text.pairwise_idxOf h'.nodup_order)
  intro a b _ _ hab hba
  exact absurd hab (Nat.lt_asymm hba)

end ClaimOrder

end Graph

end CodeAtlas
