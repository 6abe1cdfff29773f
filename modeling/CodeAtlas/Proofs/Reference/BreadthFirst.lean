import CodeAtlas.Proofs.Graph.Levels
import CodeAtlas.Reference.Analyze
import Mathlib.Data.List.Nodup

/-!
# Breadth-first order

In which order does a breadth-first walk discover entities?  The answer is an equation that a list of ids
either satisfies or does not: *going through the list from its front, taking the neighbours of each id in
the order of the graph's edges and leaving out repetitions, gives the list itself*.  Ids at the last
distance are not gone through.

* `Graph.BreadthFirst g selected hops order` — the equation, together with what the list holds: the
  entities from one to `hops` hops away, each the first with its id;
* `Graph.BreadthFirst.unique` — at most one list is in that order;
* `Contribution.breadthFirst_neighbourhood` — the entities that the search for references meets, level after
  level, are.
-/

namespace CodeAtlas

namespace Graph

/-- The entities from one to `hops` hops away in the order of their discovery. -/
structure BreadthFirst (g : Graph) (selected : Entity) (hops : ℕ) (order : List Entity) : Prop where
  /-- Each is the first entity with its id. -/
  first : ∀ e ∈ order, g.entity? e.id = some e
  /-- Their ids are those at the distances from one to `hops`. -/
  reach : ∀ id, id ∈ order.map Entity.id ↔
    ∃ k : ℕ, 1 ≤ k ∧ k ≤ hops ∧ (g.hopGraph selected).edist selected.id id = k
  /-- The neighbours of the ids nearer than `hops`, one id after the other and without repetitions, are
  the ids themselves. -/
  discovery : selected.id :: order.map Entity.id =
    (selected.id :: ((selected.id :: order.map Entity.id).filter fun a =>
      (g.hopGraph selected).dist selected.id a < hops).flatMap (g.neighbourIds selected)).eraseDups

end Graph

/-! ### A list that is the order of its own discovery -/

theorem eraseDups_eq_fresh (l : List String) : l.eraseDups = Walk.fresh id [] l := by
  rw [Walk.fresh_id_eq, List.filter_eq_self.2 fun b _ => by simp]

theorem nodup_eraseDups (l : List String) : l.eraseDups.Nodup := by
  have h : ((Walk.fresh id [] l).map id).Nodup := Walk.nodup_map_fresh _ _
  rwa [List.map_id, ← eraseDups_eq_fresh] at h

/-- What the beginning of a list discovers is the beginning of what the list discovers. -/
theorem eraseDups_take_isPrefix (expanded : String → Bool) (next : String → List String) (s : String)
    (l : List String) (k : ℕ) :
    (s :: ((l.take k).filter expanded).flatMap next).eraseDups <+:
      (s :: (l.filter expanded).flatMap next).eraseDups := by
  have hsplit : (s :: (l.filter expanded).flatMap next) =
      (s :: ((l.take k).filter expanded).flatMap next) ++ ((l.drop k).filter expanded).flatMap next := by
    rw [List.cons_append, ← List.flatMap_append, ← List.filter_append, List.take_append_drop]
  rw [eraseDups_eq_fresh, eraseDups_eq_fresh, hsplit, Walk.fresh_append]
  exact List.prefix_append _ _

/-- A list without repetitions that lies in its first `k` members has no more than these. -/
theorem take_succ_of_subset_take {l : List String} (hl : l.Nodup) {k : ℕ} (h : l ⊆ l.take k) :
    l.take (k + 1) = l.take k := by
  have hlen : l.length ≤ (l.take k).length := (hl.subperm h).length_le
  rw [List.length_take] at hlen
  rw [List.take_of_length_le (by omega), List.take_of_length_le (by omega)]

/-- The first `k + 1` members of a list in the order of its discovery depend on the first `k` alone: they
are the beginning of what these discover, unless these discover nothing but themselves. -/
theorem take_succ_of_discovery {expanded : String → Bool} {next : String → List String} {s : String}
    {l : List String} (hl : l = (s :: (l.filter expanded).flatMap next).eraseDups)
    (hclosed : ∀ p : List String, s ∈ p → (∀ a ∈ p, expanded a = true → next a ⊆ p) → l ⊆ p) (k : ℕ) :
    l.take (k + 1) =
      if k < (s :: ((l.take k).filter expanded).flatMap next).eraseDups.length then
        (s :: ((l.take k).filter expanded).flatMap next).eraseDups.take (k + 1)
      else l.take k := by
  have hpre : (s :: ((l.take k).filter expanded).flatMap next).eraseDups <+: l := by
    have h := eraseDups_take_isPrefix expanded next s l k
    rwa [← hl] at h
  have hnodup : l.Nodup := by
    rw [hl]
    exact nodup_eraseDups _
  generalize hq : (s :: ((l.take k).filter expanded).flatMap next).eraseDups = q at hpre ⊢
  split
  · rename_i hlt
    obtain ⟨rest, hrest⟩ := hpre
    rw [← hrest, List.take_append_of_le_length (by omega)]
  · rename_i hge
    -- what the first `k` discover is among them, so they are all there is
    have hqk : q ⊆ l.take k := by
      rw [List.prefix_iff_eq_take.1 hpre]
      exact List.Sublist.subset (List.take_sublist_take_left (by omega))
    have hmem : ∀ b ∈ s :: ((l.take k).filter expanded).flatMap next, b ∈ l.take k := by
      intro b hb
      exact hqk (hq ▸ List.mem_eraseDups.2 hb)
    refine take_succ_of_subset_take hnodup (hclosed _ (hmem s List.mem_cons_self) ?_)
    intro a ha hexp b hb
    refine hmem b (List.mem_cons_of_mem _ (List.mem_flatMap.2 ⟨a, ?_, hb⟩))
    exact List.mem_filter.2 ⟨ha, hexp⟩

theorem eq_of_discovery {expanded : String → Bool} {next : String → List String} {s : String}
    {l l' : List String} (hl : l = (s :: (l.filter expanded).flatMap next).eraseDups)
    (hl' : l' = (s :: (l'.filter expanded).flatMap next).eraseDups)
    (hclosed : ∀ p : List String, s ∈ p → (∀ a ∈ p, expanded a = true → next a ⊆ p) →
      l ⊆ p ∧ l' ⊆ p) : l = l' := by
  have htake : ∀ k, l.take k = l'.take k := by
    intro k
    induction k with
    | zero => rfl
    | succ k ih =>
      rw [take_succ_of_discovery hl fun p hs hp => (hclosed p hs hp).1,
        take_succ_of_discovery hl' fun p hs hp => (hclosed p hs hp).2, ih]
  have h := htake (l.length + l'.length)
  rwa [List.take_of_length_le (by omega), List.take_of_length_le (by omega)] at h

namespace Graph

variable {g : Graph} {selected : Entity} {hops : ℕ} {order order' : List Entity}

/-- Whatever holds the selected id and the neighbours of its members nearer than `hops` holds everything
within `hops`. -/
theorem BreadthFirst.subset_of_closed (h : g.BreadthFirst selected hops order) (p : List String)
    (hs : selected.id ∈ p)
    (hp : ∀ a ∈ p, decide ((g.hopGraph selected).dist selected.id a < hops) = true →
      g.neighbourIds selected a ⊆ p) : selected.id :: order.map Entity.id ⊆ p := by
  have hnear : ∀ k : ℕ, k ≤ hops → ∀ b, (g.hopGraph selected).edist selected.id b = k → b ∈ p := by
    intro k
    induction k with
    | zero =>
      intro _ b hb
      rw [← SimpleGraph.edist_eq_zero_iff.1 hb]
      exact hs
    | succ k ih =>
      intro hk b hb
      obtain ⟨a, ha, hadj⟩ := exists_adj_of_edist_eq_succ hb
      have hdist : (g.hopGraph selected).dist selected.id a = k := by
        rw [SimpleGraph.dist, ha]
        rfl
      refine hp a (ih (by omega) a ha) ?_ (mem_neighbourIds_iff.2 hadj.2)
      rw [decide_eq_true_eq, hdist]
      omega
  intro b hb
  rcases List.mem_cons.1 hb with rfl | hb
  · exact hs
  · obtain ⟨k, -, hk, hdist⟩ := (h.reach b).1 hb
    exact hnear k hk b hdist

/-- Neither the selected id nor any other is met twice. -/
theorem BreadthFirst.nodup (h : g.BreadthFirst selected hops order) :
    (selected.id :: order.map Entity.id).Nodup := by
  rw [h.discovery]
  exact nodup_eraseDups _

theorem BreadthFirst.mem_iff (h : g.BreadthFirst selected hops order) {e : Entity} :
    e ∈ order ↔ g.entity? e.id = some e ∧
      ∃ k : ℕ, 1 ≤ k ∧ k ≤ hops ∧ (g.hopGraph selected).edist selected.id e.id = k := by
  constructor
  · intro he
    exact ⟨h.first e he, (h.reach e.id).1 (List.mem_map_of_mem he)⟩
  · intro h'
    obtain ⟨hentity, hreach⟩ := h'
    obtain ⟨e', he', hid⟩ := List.mem_map.1 ((h.reach e.id).2 hreach)
    have hentity' := h.first e' he'
    rw [hid, hentity] at hentity'
    rwa [Option.some.inj hentity']

/-- There is at most one breadth-first order. -/
theorem BreadthFirst.unique (h : g.BreadthFirst selected hops order)
    (h' : g.BreadthFirst selected hops order') : order = order' := by
  have hids : order.map Entity.id = order'.map Entity.id := by
    have heq := eq_of_discovery h.discovery h'.discovery fun p hs hp =>
      ⟨h.subset_of_closed p hs hp, h'.subset_of_closed p hs hp⟩
    exact (List.cons.inj heq).2
  have hback : ∀ {l : List Entity}, (∀ e ∈ l, g.entity? e.id = some e) →
      l.map some = (l.map Entity.id).map g.entity? := by
    intro l hl
    rw [List.map_map]
    exact List.map_congr_left fun e he => (hl e he).symm
  have hsome : order.map some = order'.map some := by
    rw [hback h.first, hback h'.first, hids]
  exact List.map_injective_iff.2 (Option.some_injective _) hsome

end Graph

/-! ### The order in which the search for references meets entities -/

/-- Level `i` of a list holds what measures `k + i`. -/
def Graded {α : Type} (d : α → ℕ) (k : ℕ) (ls : List (List α)) : Prop :=
  ∀ i l, ls[i]? = some l → ∀ x ∈ l, d x = k + i

section Graded

variable {α : Type} {d : α → ℕ} {k : ℕ} {l : List α} {ls : List (List α)}

theorem Graded.head (h : Graded d k (l :: ls)) : ∀ x ∈ l, d x = k :=
  h 0 l rfl

theorem Graded.tail (h : Graded d k (l :: ls)) : Graded d (k + 1) ls := by
  intro i l' hl' x hx
  have := h (i + 1) l' hl' x hx
  omega

theorem Graded.le_of_mem (h : Graded d k ls) {x : α} (hx : x ∈ ls.flatten) : k ≤ d x := by
  obtain ⟨i, l, hl, hxl⟩ := Walk.exists_level_of_mem_flatten hx
  have := h i l hl x hxl
  omega

theorem Graded.flatten_take (h : Graded d k ls) (n : ℕ) :
    (ls.take n).flatten = ls.flatten.filter fun x => d x < k + n := by
  induction ls generalizing n k with
  | nil => simp
  | cons l ls ih =>
    cases n with
    | zero =>
      have hnone : (l :: ls).flatten.filter (fun x => decide (d x < k + 0)) = [] := by
        rw [List.filter_eq_nil_iff]
        intro x hx
        have := h.le_of_mem hx
        simp only [decide_eq_true_eq]
        omega
      rw [hnone]
      rfl
    | succ n =>
      have hfirst : l.filter (fun x => decide (d x < k + (n + 1))) = l := by
        rw [List.filter_eq_self]
        intro x hx
        simp [h.head x hx]
      rw [List.take_succ_cons, List.flatten_cons, List.flatten_cons, List.filter_append, hfirst,
        ih h.tail]
      rw [show k + 1 + n = k + (n + 1) by omega]

/-- What measures `k + i` is level `i`. -/
theorem Graded.filter_eq (h : Graded d k ls) (i : ℕ) :
    (ls.flatten.filter fun x => d x = k + i) = ls.getD i [] := by
  induction ls generalizing i k with
  | nil => rfl
  | cons l ls ih =>
    rw [List.flatten_cons, List.filter_append]
    cases i with
    | zero =>
      have hfirst : l.filter (fun x => decide (d x = k + 0)) = l := by
        rw [List.filter_eq_self]
        intro x hx
        simp [h.head x hx]
      have hnone : ls.flatten.filter (fun x => decide (d x = k + 0)) = [] := by
        rw [List.filter_eq_nil_iff]
        intro x hx
        have hle := h.tail.le_of_mem hx
        simp only [decide_eq_true_eq]
        omega
      rw [hfirst, hnone, List.append_nil, List.getD_cons_zero]
    | succ i =>
      have hnone : l.filter (fun x => decide (d x = k + (i + 1))) = [] := by
        rw [List.filter_eq_nil_iff]
        intro x hx
        simp [h.head x hx]
      rw [hnone, List.nil_append, List.getD_cons_succ, ← ih h.tail, Nat.add_right_comm k 1 i]
      rfl

/-- What measures less comes first. -/
theorem Graded.pairwise (h : Graded d k ls) : ls.flatten.Pairwise fun x y => d x ≤ d y := by
  induction ls generalizing k with
  | nil => exact List.Pairwise.nil
  | cons l ls ih =>
    rw [List.flatten_cons, List.pairwise_append]
    refine ⟨?_, ih h.tail, ?_⟩
    · refine List.pairwise_of_forall_mem_list ?_
      intro x hx y hy
      rw [h.head x hx, h.head y hy]
    · intro x hx y hy
      have hle := h.tail.le_of_mem hy
      rw [h.head x hx]
      omega

/-- Handling the members of each level with its number is handling each with what it measures. -/
theorem Graded.flatMap_zipIdx {β : Type} (h : Graded d k ls) (f : ℕ → α → Option β) :
    ((ls.zipIdx k).flatMap fun p => p.1.filterMap (f p.2)) =
      ls.flatten.filterMap fun x => f (d x) x := by
  induction ls generalizing k with
  | nil => rfl
  | cons l ls ih =>
    have hl : l.filterMap (f k) = l.filterMap fun x => f (d x) x := by
      apply List.filterMap_congr
      intro x hx
      rw [h.head x hx]
    rw [List.zipIdx_cons, List.flatMap_cons, List.flatten_cons, List.filterMap_append, ih h.tail, hl]

end Graded

namespace Contribution

variable (selected : Entity) (g : Graph) (hops : ℕ)

/-- The entities at the other ends of the edges at an entity. -/
def neighbours (index : Index) (e : Entity) : List Entity :=
  (index.touching e.id).map Prod.snd

theorem map_id_neighbours (e : Entity) :
    (neighbours (Index.around selected g) e).map Entity.id = g.neighbourIds selected e.id := by
  have h := congrArg (List.map Prod.snd) (Index.touching_around selected g e.id)
  rw [List.map_map, List.map_filterMap] at h
  rw [neighbours, List.map_map, Graph.neighbourIds]
  refine h.trans ?_
  congr 1
  funext edge
  cases edge.otherEnd? e.id with
  | none => rfl
  | some b => rfl

/-- An entity leads to its neighbours. -/
theorem spans_neighbours :
    Walk.Spans (g.hopGraph selected) Entity.id (neighbours (Index.around selected g)) := by
  intro e b hb
  rw [← Index.exists_touching_around_iff hb]
  constructor
  · rintro ⟨y, hy, hyb⟩
    obtain ⟨p, hp, rfl⟩ := List.mem_map.1 hy
    exact ⟨p, hp, hyb⟩
  · rintro ⟨p, hp, hpb⟩
    exact ⟨p.2, List.mem_map_of_mem hp, hpb⟩

theorem dist_of_mem_level {i : ℕ} {l : List Entity}
    (hl : (neighbourhood (Index.around selected g) selected hops)[i]? = some l) :
    ∀ e ∈ l, (g.hopGraph selected).edist selected.id e.id = (i + 1 : ℕ) :=
  (Walk.edist_of_mem_level (spans_neighbours selected g) rfl hl).2

theorem graded_neighbourhood :
    Graded (fun e => (g.hopGraph selected).dist selected.id e.id) 1
      (neighbourhood (Index.around selected g) selected hops) := by
  intro i l hl e he
  show (g.hopGraph selected).dist selected.id e.id = 1 + i
  rw [SimpleGraph.dist, dist_of_mem_level selected g hops hl e he, Nat.add_comm]
  rfl

/-- The selected entity is a level of its own, before the others. -/
theorem graded_cons_neighbourhood :
    Graded (fun e => (g.hopGraph selected).dist selected.id e.id) 0
      ([selected] :: neighbourhood (Index.around selected g) selected hops) := by
  intro i l hl e he
  show (g.hopGraph selected).dist selected.id e.id = 0 + i
  cases i with
  | zero =>
    rw [List.getElem?_cons_zero] at hl
    cases hl
    rw [List.mem_singleton.1 he, SimpleGraph.dist_self]
  | succ i =>
    rw [List.getElem?_cons_succ] at hl
    have hdist : (g.hopGraph selected).dist selected.id e.id = 1 + i :=
      graded_neighbourhood selected g hops i l hl e he
    omega

theorem entity?_of_mem_neighbourhood {e : Entity}
    (he : e ∈ (neighbourhood (Index.around selected g) selected hops).flatten) :
    (Index.around selected g).entity? e.id = some e := by
  obtain ⟨i, l, hl, hel⟩ := Walk.exists_level_of_mem_flatten he
  have h := Walk.levels_forall
    (P := fun k e => 0 < k → (Index.around selected g).entity? e.id = some e)
    (fun k x y _ hy _ => by
      obtain ⟨p, hp, rfl⟩ := List.mem_map.1 hy
      exact Index.entity?_of_touching hp)
    (k := 0) (fun x _ h0 => absurd h0 (Nat.lt_irrefl 0)) hl e hel
  exact h (by omega)

/-- **The search meets entities in breadth-first order.** -/
theorem breadthFirst_neighbourhood :
    g.BreadthFirst selected hops
      (neighbourhood (Index.around selected g) selected hops).flatten where
  first e he := by
    refine Index.graph_entity?_of_around ?_ (entity?_of_mem_neighbourhood selected g hops he)
    intro heq
    have hmem := List.mem_map_of_mem (f := Entity.id) he
    rw [heq] at hmem
    exact Walk.not_mem_flatten_levels _ _ _ _ _ hmem
  reach id := Walk.mem_flatten_levels_iff (spans_neighbours selected g) rfl
  discovery := by
    generalize hlv : neighbourhood (Index.around selected g) selected hops = lv
    have hwalk : lv.flatten = Walk.fresh Entity.id [selected.id]
        ((([selected] :: lv).take hops).flatten.flatMap (neighbours (Index.around selected g))) := by
      rw [← hlv]
      exact Walk.flatten_levels _ _ _ _ _
    -- the entities that were expanded are those nearer than `hops`
    have hnear : (([selected] :: lv).take hops).flatten.map Entity.id =
        (selected.id :: lv.flatten.map Entity.id).filter fun a =>
          (g.hopGraph selected).dist selected.id a < hops := by
      have hall : selected.id :: lv.flatten.map Entity.id =
          ([selected] :: lv).flatten.map Entity.id := rfl
      have hgraded := graded_cons_neighbourhood selected g hops
      rw [hlv] at hgraded
      rw [hall, List.filter_map, hgraded.flatten_take, Nat.zero_add]
      rfl
    have hids : lv.flatten.map Entity.id = Walk.fresh id [selected.id]
        ((([selected] :: lv).take hops).flatten.map Entity.id |>.flatMap
          (g.neighbourIds selected)) := by
      conv_lhs => rw [hwalk]
      rw [Walk.map_fresh, List.map_flatMap, List.flatMap_map]
      simp only [map_id_neighbours]
    rw [← hnear, List.eraseDups_cons]
    conv_lhs => rw [hids]
    rw [Walk.fresh_id_eq]
    simp only [List.mem_singleton]
    congr 3
    funext b
    by_cases hb : b = selected.id
    · simp [hb]
    · simp [hb]

end Contribution

end CodeAtlas
