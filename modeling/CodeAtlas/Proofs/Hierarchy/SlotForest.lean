import CodeAtlas.Proofs.Hierarchy.SlotWalk

/-!
# The table of slots is a forest

A table of slots refers to itself by places, and a tree is read off it by following places from slot to slot.
Nothing in the table says that this comes to an end.  It does because of an invariant of the whole table
(`Slot.Forest`): children stand behind the slot that made them, and every place but the first is listed once
among all children.  Following places therefore leads forward only, and as many steps as there are slots are
always enough (`Slot.Forest.assemble_eq`).

The slots that the children of a slot refer to are the ones that name it as their claimant
(`Slot.Forest.children_eq`).  So the tree that is read off is the one assembled from the levels of claims.
-/

namespace CodeAtlas

theorem mapM_map_eq_some {α β γ : Type} {p : α → β} {f : β → Option γ} {g : α → γ} {l : List α}
    (h : ∀ a ∈ l, f (p a) = some (g a)) : (l.map p).mapM f = some (l.map g) := by
  induction l with
  | nil => rfl
  | cons a l ih =>
    rw [List.map_cons, List.mapM_cons, h a List.mem_cons_self,
      ih fun b hb => h b (List.mem_cons_of_mem a hb)]
    rfl

/-- A node assembled from the levels below a number of hops. -/
theorem Node.assemble_drop (levels : List (List Claim)) (k : ℕ) (c : Claim) :
    assemble (levels.drop k) c =
      { assemble.leaf c with
        children := Text.sortOn Node.name
          ((ownClaims (levels.getD k []) c).map (assemble (levels.drop (k + 1)))) } := by
  by_cases hk : k < levels.length
  · rw [List.drop_eq_getElem_cons hk, List.getD_eq_getElem?_getD, List.getElem?_eq_getElem hk]
    rfl
  · rw [List.drop_of_length_le (Nat.le_of_not_lt hk), List.getD_eq_getElem?_getD,
      List.getElem?_eq_none (Nat.le_of_not_lt hk), Option.getD_none]
    simp only [assemble, assemble.leaf, ownClaims, List.filter_nil, List.map_nil, Text.sortOn,
      List.mergeSort_nil]

namespace Slot

/-- The node for the slot at a place with everything below it, if it takes no more than a number of steps from
slot to slot. -/
def assemble (slots : List Slot) : (steps : ℕ) → (place : ℕ) → Option Node
  | 0, _ => none
  | steps + 1, place => do
    let s ← slots[place]?
    let nodes ← s.children.mapM (assemble slots steps)
    return { Node.assemble.leaf s.claim with children := Text.sortOn Node.name nodes }

/-- Slots in the order of their claims, with children that make up a tree. -/
structure Forest (slots : List Slot) : Prop where
  /-- The first slot is that of the root. -/
  root : ∀ s, slots[0]? = some s → s.claim.claimant = none ∧ s.claim.hops = 0
  /-- Children stand behind the slot that made them. -/
  later : ∀ (i : ℕ) (s : Slot), slots[i]? = some s → ∀ j ∈ s.children, i < j ∧ j < slots.length
  /-- They are listed in the order of the table. -/
  ordered : ∀ s ∈ slots, s.children.Pairwise (· < ·)
  /-- Every other slot is listed once, by the slot that it names, which lies one hop nearer. -/
  owner : ∀ (j : ℕ) (t : Slot), slots[j]? = some t → 1 ≤ j →
    ∃ (i : ℕ) (s : Slot), slots[i]? = some s ∧ s.children.count j = 1 ∧
      (∀ (i' : ℕ) (s' : Slot), slots[i']? = some s' → j ∈ s'.children → i' = i) ∧
      t.claim.claimant = some s.id ∧ t.claim.hops = s.claim.hops + 1
  /-- Hops never decrease. -/
  hops : slots.Pairwise fun s t => s.claim.hops ≤ t.claim.hops
  /-- No id is claimed twice. -/
  ids : (slots.map Slot.id).Nodup

namespace Forest

variable {slots : List Slot} (h : Forest slots)
include h

theorem eq_of_id_eq {i j : ℕ} {s t : Slot} (hs : slots[i]? = some s) (ht : slots[j]? = some t)
    (hid : s.id = t.id) : i = j := by
  have hi := (List.getElem?_eq_some_iff.1 hs).1
  refine (List.getElem?_inj (by rwa [List.length_map]) h.ids).1 ?_
  rw [List.getElem?_map, List.getElem?_map, hs, ht, Option.map_some, Option.map_some, hid]

/-- A slot that is listed names the slot that lists it, and lies one hop farther. -/
theorem of_mem_children {i j : ℕ} {s t : Slot} (hs : slots[i]? = some s) (ht : slots[j]? = some t)
    (hj : j ∈ s.children) : t.claim.claimant = some s.id ∧ t.claim.hops = s.claim.hops + 1 := by
  have hlater := (h.later i s hs j hj).1
  obtain ⟨i', s', hs', -, honly, hmade⟩ := h.owner j t ht (by omega)
  obtain rfl := honly i s hs hj
  rw [hs] at hs'
  cases hs'
  exact hmade

/-- A slot lists those that name it. -/
theorem mem_children_iff {i j : ℕ} {s t : Slot} (hs : slots[i]? = some s) (ht : slots[j]? = some t) :
    j ∈ s.children ↔ t.claim.claimant = some s.id := by
  constructor
  · intro hj
    exact (h.of_mem_children hs ht hj).1
  · intro hclaimant
    have hj : 1 ≤ j := by
      by_contra hzero
      obtain rfl : j = 0 := by omega
      rw [(h.root t ht).1] at hclaimant
      cases hclaimant
    obtain ⟨i', s', hs', hcount, -, hclaimant', -⟩ := h.owner j t ht hj
    obtain rfl : i = i' := h.eq_of_id_eq hs hs' (Option.some.inj (hclaimant.symm.trans hclaimant'))
    rw [hs] at hs'
    cases hs'
    exact List.count_pos_iff.1 (by omega)

/-- The children of a slot are the places of those that name it. -/
theorem children_eq {i : ℕ} {s : Slot} (hs : slots[i]? = some s) :
    s.children = (slots.zipIdx.filter fun x => x.1.claim.claimant = some s.id).map Prod.snd := by
  have hordered := h.ordered s (List.mem_of_getElem? hs)
  have hplaces : ((slots.zipIdx.filter fun x => x.1.claim.claimant = some s.id).map Prod.snd).Pairwise (· < ·) :=
    List.pairwise_map.2 ((Text.pairwise_zipIdx slots).filter _)
  refine List.Perm.eq_of_pairwise ?_ hordered hplaces ?_
  · intro a b _ _ hab hba
    omega
  · refine (List.perm_ext_iff_of_nodup (hordered.imp Nat.ne_of_lt) (hplaces.imp Nat.ne_of_lt)).2 ?_
    intro j
    rw [List.mem_map]
    constructor
    · intro hj
      obtain ⟨t, ht⟩ : ∃ t, slots[j]? = some t := ⟨_, List.getElem?_eq_getElem (h.later i s hs j hj).2⟩
      refine ⟨(t, j), List.mem_filter.2 ⟨?_, ?_⟩, rfl⟩
      · exact List.mem_zipIdx_iff_getElem?.2 ht
      · exact decide_eq_true ((h.mem_children_iff hs ht).1 hj)
    · rintro ⟨⟨t, j'⟩, hx, rfl⟩
      obtain ⟨hx, hclaimant⟩ := List.mem_filter.1 hx
      exact (h.mem_children_iff hs (List.mem_zipIdx_iff_getElem?.1 hx)).2 (of_decide_eq_true hclaimant)

omit h in
theorem map_claim_children {l : List Slot} {p : Claim → Bool} {f : Claim → Node} :
    ((l.zipIdx.filter fun x => p x.1.claim).map fun x => f x.1.claim) =
      ((l.map Slot.claim).filter p).map f := by
  have hfst : l.map Slot.claim = l.zipIdx.map fun x => x.1.claim := by
    calc l.map Slot.claim = (l.zipIdx.map Prod.fst).map Slot.claim := by rw [List.zipIdx_map_fst]
      _ = l.zipIdx.map fun x => x.1.claim := List.map_map
  rw [hfst, List.filter_map, List.map_map]
  rfl

variable {index : Index} {selected : Entity} {maxDepth : ℕ}

/-- The claims that name a slot are all on the next level. -/
theorem filter_table_eq (hclaims : slots.map Slot.claim = Claim.table index selected maxDepth) {i : ℕ} {s : Slot}
    (hs : slots[i]? = some s) :
    (slots.map Slot.claim).filter (fun d => d.claimant = some s.id) =
      Node.ownClaims ((Claim.levels index selected maxDepth).getD s.claim.hops []) s.claim := by
  have hnext : (slots.map Slot.claim).filter (fun d => d.claimant = some s.id) =
      ((slots.map Slot.claim).filter fun d => d.hops = 0 + (s.claim.hops + 1)).filter
        fun d => d.claimant = some s.id := by
    rw [List.filter_filter]
    refine List.filter_congr ?_
    intro d hd
    obtain ⟨t, ht, rfl⟩ := List.mem_map.1 hd
    obtain ⟨j, hj⟩ := List.mem_iff_getElem?.1 ht
    by_cases hclaimant : t.claim.claimant = some s.id
    · have hhops := (h.of_mem_children hs hj ((h.mem_children_iff hs hj).2 hclaimant)).2
      simp [hclaimant, hhops]
    · simp [hclaimant]
  have hgraded := (Claim.graded_levels index selected maxDepth).filter_eq (s.claim.hops + 1)
  rw [hnext, hclaims]
  exact congrArg (fun l => Node.ownClaims l s.claim) hgraded

/-- Following places from a slot ends, and gives the node that is assembled from the levels of claims. -/
theorem assemble_eq (hclaims : slots.map Slot.claim = Claim.table index selected maxDepth) {steps place : ℕ}
    {s : Slot} (hs : slots[place]? = some s) (hsteps : slots.length ≤ place + steps) :
    assemble slots steps place =
      some (Node.assemble ((Claim.levels index selected maxDepth).drop s.claim.hops) s.claim) := by
  induction steps generalizing place s with
  | zero =>
    have hlt := (List.getElem?_eq_some_iff.1 hs).1
    omega
  | succ steps ih =>
    -- a child stands farther behind, so fewer steps are enough for it
    have hchildren : s.children.mapM (assemble slots steps) =
        some (((slots.map Slot.claim).filter fun d => d.claimant = some s.id).map
          (Node.assemble ((Claim.levels index selected maxDepth).drop (s.claim.hops + 1)))) := by
      rw [← map_claim_children, h.children_eq hs]
      apply mapM_map_eq_some
      intro x hx
      obtain ⟨hx, hclaimant⟩ := List.mem_filter.1 hx
      have ht := List.mem_zipIdx_iff_getElem?.1 hx
      have hj := (h.mem_children_iff hs ht).2 (of_decide_eq_true hclaimant)
      have hlater := (h.later place s hs x.2 hj).1
      rw [ih ht (by omega), (h.of_mem_children hs ht hj).2]
    rw [assemble, hs, Node.assemble_drop, ← h.filter_table_eq hclaims hs]
    show (s.children.mapM (assemble slots steps) >>= _) = _
    rw [hchildren]
    rfl

end Forest

end Slot

namespace SlotWalk

variable {index : Index} {maxDepth : ℕ} {selected : Entity}

/-! ### The table after the last round -/

theorem exists_first_slot {slots : List Slot} (hclaims : slots.map Slot.claim = Claim.table index selected maxDepth) :
    ∃ s, slots[0]? = some s ∧ s.claim = Claim.root selected := by
  have hroot : (slots.map Slot.claim)[0]? = some (Claim.root selected) := by
    rw [hclaims]
    rfl
  rw [List.getElem?_map] at hroot
  exact Option.map_eq_some_iff.1 hroot

/-- A place is listed by one slot only, and once. -/
theorem Reached.only_owner {slots : List Slot} {seen labels : List String}
    (h : Reached index maxDepth selected slots [] seen labels) :
    (∀ s ∈ slots, s.children.Pairwise (· < ·)) ∧
      ∀ (i i' : ℕ) (s s' : Slot), slots[i]? = some s → slots[i']? = some s' →
        ∀ j ∈ s.children, j ∈ s'.children → i' = i := by
  have hordered : (slots.flatMap Slot.children).Pairwise (· < ·) := by
    rw [h.children]
    exact List.pairwise_lt_range'
  obtain ⟨hown, hacross⟩ := List.pairwise_flatMap.1 hordered
  refine ⟨hown, ?_⟩
  -- the children of an earlier slot are all less than those of a later one
  have hless : ∀ (i i' : ℕ) (s s' : Slot), slots[i]? = some s → slots[i']? = some s' → i < i' →
      ∀ j ∈ s.children, j ∉ s'.children := by
    intro i i' s s' hs hs' hlt j hj hj'
    obtain ⟨hi, rfl⟩ := List.getElem?_eq_some_iff.1 hs
    obtain ⟨hi', rfl⟩ := List.getElem?_eq_some_iff.1 hs'
    exact Nat.lt_irrefl j (List.pairwise_iff_getElem.1 hacross i i' hi hi' hlt j hj j hj')
  intro i i' s s' hs hs' j hj hj'
  rcases Nat.lt_trichotomy i i' with hlt | heq | hgt
  · exact absurd hj' (hless i i' s s' hs hs' hlt j hj)
  · exact heq.symm
  · exact absurd hj (hless i' i s' s hs' hs hgt j hj')

theorem Reached.forest {slots : List Slot} {seen labels : List String}
    (h : Reached index maxDepth selected slots [] seen labels)
    (hclaims : slots.map Slot.claim = Claim.table index selected maxDepth) : Slot.Forest slots := by
  obtain ⟨hordered, honly⟩ := h.only_owner
  have hchild : ∀ (i : ℕ) (s : Slot), slots[i]? = some s → ∀ j ∈ s.children, i < j ∧
      ∃ t, slots[j]? = some t ∧ t.claim.claimant = some s.id ∧ t.claim.hops = s.claim.hops + 1 := by
    intro i s hs j hj
    obtain ⟨hlt, d, hd, hmade⟩ := h.child i s hs j hj
    rw [List.append_nil, List.getElem?_map] at hd
    obtain ⟨t, ht, rfl⟩ := Option.map_eq_some_iff.1 hd
    exact ⟨hlt, t, ht, hmade⟩
  constructor
  · intro s hs
    obtain ⟨first, hfirst, hroot⟩ := exists_first_slot hclaims
    rw [hs] at hfirst
    cases hfirst
    rw [hroot]
    exact ⟨rfl, rfl⟩
  · intro i s hs j hj
    obtain ⟨hlt, t, ht, -⟩ := hchild i s hs j hj
    exact ⟨hlt, (List.getElem?_eq_some_iff.1 ht).1⟩
  · exact hordered
  · intro j t ht hj
    have hlength := (List.getElem?_eq_some_iff.1 ht).1
    have hlisted : j ∈ slots.flatMap Slot.children := by
      rw [h.children, List.mem_range'_1, List.length_nil]
      omega
    obtain ⟨s, hmem, hjs⟩ := List.mem_flatMap.1 hlisted
    obtain ⟨i, hs⟩ := List.mem_iff_getElem?.1 hmem
    obtain ⟨-, t', ht', hmade⟩ := hchild i s hs j hjs
    rw [ht] at ht'
    cases ht'
    refine ⟨i, s, hs, List.count_eq_one_of_mem ((hordered s hmem).imp Nat.ne_of_lt) hjs, ?_, hmade⟩
    intro i' s' hs' hj'
    exact honly i i' s s' hs hs' j hjs hj'
  · have hhops := Claim.pairwise_hops_table index selected maxDepth
    rw [← hclaims, List.pairwise_map] at hhops
    exact hhops
  · have hids := Claim.nodup_table index selected maxDepth
    rw [← hclaims, List.map_map] at hids
    exact hids

/-! ### The whole walk -/

/-- At any time the places from the next one on are waiting, and no id has a second slot. -/
theorem queue_rounds (index : Index) (maxDepth : ℕ) (selected : Entity) (n : ℕ) :
    let w := rounds index maxDepth selected n
    w.queue = List.range' n (w.slots.length - n) ∧ (w.slots.map Slot.id).Nodup := by
  intro w
  have hunder : ∃ k ≤ n, ∃ done waiting seen labels, w = under done waiting seen labels ∧ done.length = k ∧
      (k = n ∨ waiting = []) ∧ done.map Slot.claim ++ waiting <+: Claim.table index selected maxDepth := by
    by_cases hn : n ≤ (Claim.table index selected maxDepth).length
    · obtain ⟨done, waiting, seen, labels, hwalk, -, hlength, hpre⟩ := rounds_under index maxDepth selected hn
      exact ⟨n, Nat.le_refl n, done, waiting, seen, labels, hwalk, hlength, .inl rfl, hpre⟩
    · obtain ⟨slots, seen, labels, hwalk, -, hclaims⟩ := rounds_length_table index maxDepth selected
      have hlength : slots.length = (Claim.table index selected maxDepth).length := by
        rw [← hclaims, List.length_map]
      refine ⟨slots.length, by omega, slots, [], seen, labels, ?_, rfl, .inr rfl, ?_⟩
      · rw [← hwalk]
        exact rounds_of_le index maxDepth selected (by omega)
      · rw [List.append_nil, hclaims]
  obtain ⟨k, hk, done, waiting, seen, labels, hw, hlength, hwaiting, hpre⟩ := hunder
  rw [hw]
  constructor
  · rw [under, List.length_append, List.length_map, hlength]
    rcases hwaiting with rfl | rfl
    · rw [Nat.add_sub_cancel_left]
    · rw [List.length_nil, Nat.add_zero, Nat.sub_eq_zero_of_le hk]
      rfl
  · have hids := (Claim.nodup_table index selected maxDepth).sublist (hpre.sublist.map Claim.id)
    have heq : (under done waiting seen labels).slots.map Slot.id = (done.map Slot.claim ++ waiting).map Claim.id := by
      simp [under, Function.comp_def, Slot.id, Slot.unfilled]
    rw [heq]
    exact hids

end SlotWalk

theorem Claim.length_table_le (selected : Entity) (g : Graph) (maxDepth : ℕ) :
    (table (Index.around selected g) selected maxDepth).length ≤ g.nodes.length + 1 := by
  have hids := ((nodup_table _ _ _).subperm (map_id_table_subset selected g maxDepth)).length_le
  rwa [List.length_map, List.length_cons, Graph.ids, List.length_map] at hids

theorem Claim.max?_hops_table (index : Index) (selected : Entity) (maxDepth : ℕ) :
    ((table index selected maxDepth).map Claim.hops).max? = some (levels index selected maxDepth).length := by
  refine List.max?_eq_some_iff.2 ⟨?_, ?_⟩
  · obtain ⟨c, hc, hhops⟩ := exists_hops_iff.2 (Nat.lt_succ_self (levels index selected maxDepth).length)
    exact hhops ▸ List.mem_map_of_mem hc
  · intro k hk
    obtain ⟨c, hc, hhops⟩ := List.mem_map.1 hk
    exact Nat.le_of_lt_succ (exists_hops_iff.1 ⟨c, hc, hhops⟩)

namespace Tree

/-- **The walk ends, and the tree can be read off its table.**  At any time the queue holds the places from the
next one on, so each slot gets its turn once, and no id gets a second slot.  After as many rounds as there are
entities, and one for the root, the queue is empty, however far the walk may go, and nothing changes any more.
The slots then hold the claims in order and form a forest.  Following places from the first slot ends; the tree
read off shows each slot once, and it is the tree that is built, the parents of the root apart.  The tree keeps the
number of slots, the greatest of their distances and the labels noted, to which those of the parents are added. -/
theorem build_from_slots (selected : Entity) (g : Graph) (maxDepth : ℕ) :
    let walk := SlotWalk.rounds (Index.around selected g) maxDepth selected
    let slots := (walk (g.nodes.length + 1)).slots
    (∀ n, (walk n).queue = List.range' n ((walk n).slots.length - n) ∧ ((walk n).slots.map Slot.id).Nodup) ∧
      (walk (g.nodes.length + 1)).queue = [] ∧
      (∀ n, g.nodes.length + 1 ≤ n → walk n = walk (g.nodes.length + 1)) ∧
      slots.map Slot.claim = Claim.table (Index.around selected g) selected maxDepth ∧
      Slot.Forest slots ∧
      ∃ root, (∀ steps, slots.length ≤ steps → Slot.assemble slots steps 0 = some root) ∧
        (root.preorder.map Node.bare).Perm (slots.map fun s => Node.assemble.leaf s.claim) ∧
        (build selected g maxDepth).root =
          { root with parents := (build selected g maxDepth).root.parents } ∧
        (build selected g maxDepth).totalNodes = slots.length ∧
        (build selected g maxDepth).maxDepth = min ((slots.map fun s => s.claim.hops).max?.getD 0) maxDepth ∧
        (build selected g maxDepth).relationshipTypes =
          ((Node.callers (Index.around selected g) selected.id).filterMap Node.relationship).foldl
            (fun labels label => Text.insertText label labels) (walk (g.nodes.length + 1)).labels := by
  intro walk slots
  have hlength := Claim.length_table_le selected g maxDepth
  obtain ⟨slots', seen, labels, hwalk, hreached, hclaims⟩ :=
    SlotWalk.rounds_length_table (Index.around selected g) maxDepth selected
  have hlast : ∀ n, g.nodes.length + 1 ≤ n → walk n = SlotWalk.under slots' [] seen labels := by
    intro n hn
    rw [← hwalk]
    exact SlotWalk.rounds_of_le _ maxDepth selected (by omega)
  have hend := hlast _ (Nat.le_refl _)
  have hslots : slots = slots' := by
    show (walk (g.nodes.length + 1)).slots = slots'
    rw [hend, SlotWalk.under, List.map_nil, List.append_nil]
  rw [hslots]
  have hforest := hreached.forest hclaims
  refine ⟨SlotWalk.queue_rounds _ maxDepth selected, ?_, ?_, hclaims, hforest,
    Node.assemble (Claim.levels (Index.around selected g) selected maxDepth) (Claim.root selected), ?_, ?_, rfl,
    ?_, ?_, ?_⟩
  · rw [hend]
    rfl
  · intro n hn
    rw [hlast n hn, hend]
  · intro steps hsteps
    obtain ⟨s, hs, hroot⟩ := SlotWalk.exists_first_slot hclaims
    rw [hforest.assemble_eq hclaims hs (by omega), hroot]
    rfl
  · have hleaves : (slots'.map fun s => Node.assemble.leaf s.claim) =
        (slots'.map Slot.claim).map Node.assemble.leaf := by
      rw [List.map_map]
      rfl
    rw [hleaves, hclaims]
    exact Claim.preorder_assemble_perm _ selected maxDepth
  · rw [← List.length_map Slot.claim, hclaims]
    rfl
  · have hhops : (slots'.map fun s => s.claim.hops) =
        (Claim.table (Index.around selected g) selected maxDepth).map Claim.hops := by
      rw [← hclaims, List.map_map]
      rfl
    have hle : (Claim.levels (Index.around selected g) selected maxDepth).length ≤ maxDepth :=
      Walk.length_levels_le _ _ _
    rw [hhops, Claim.max?_hops_table, Option.getD_some, Nat.min_eq_left hle]
    rfl
  · rw [hend, SlotWalk.under, hreached.labels, List.append_nil, hclaims, Text.foldl_insertText]
    rfl

/-- A chain over a loop, with a dangling edge at its end. -/
def looping : Graph :=
  { nodes := [Entity.plain "a" "function", Entity.plain "b" "function", Entity.plain "c" "function"]
    edges := [Edge.plain "a" "b", Edge.plain "b" "b", Edge.plain "c" "b", Edge.plain "c" "ghost"] }

/-- The walk from `a` is over by the fourth round, though it might go on for `2 ^ 64 - 1` hops. -/
theorem build_from_slots_looping :
    let walk := SlotWalk.rounds (Index.around (Entity.plain "a" "function") looping) 18446744073709551615
      (Entity.plain "a" "function")
    (walk 1).queue = [1] ∧
      (walk 4).slots.map (fun s => (s.id, s.claim.hops, s.claim.claimant, s.children)) =
        [("a", 0, none, [1]), ("b", 1, some "a", [2]), ("c", 2, some "b", [])] ∧
      (walk 4).labels = ["called by", "calls"] ∧
      Slot.Forest (walk 4).slots ∧ (∀ n, 4 ≤ n → walk n = walk 4) ∧
      (build (Entity.plain "a" "function") looping 18446744073709551615).totalNodes = 3 ∧
      (build (Entity.plain "a" "function") looping 18446744073709551615).maxDepth = 2 ∧
      (build (Entity.plain "a" "function") looping 18446744073709551615).relationshipTypes =
        ["called by", "calls"] := by
  intro walk
  obtain ⟨-, -, hlast, -, hforest, root, -, -, -, htotal, hdepth, hlabels⟩ :=
    build_from_slots (Entity.plain "a" "function") looping 18446744073709551615
  exact ⟨by decide +kernel, by decide +kernel, by decide +kernel, hforest, hlast,
    htotal.trans (by decide +kernel), hdepth.trans (by decide +kernel), hlabels.trans (by decide +kernel)⟩

end Tree

end CodeAtlas
