import CodeAtlas.Graph.Walk
import CodeAtlas.Proofs.Graph.Hop

/-!
# What a level-by-level walk finds

A walk claims keys level by level.  Four readings of it are proved here for any items, keys and expansion:

* **each key once** — `nodup_levels`: over all levels together no key is claimed twice, and none that was
  claimed before the walk began;
* **at its distance** — `mem_level_iff`: where expanding an item leads to the neighbours of its key in a
  graph, level `i` holds exactly the keys at distance `i + 1` from the start;
* **in order of discovery** — `flatten_levels`: read off one after the other, the items found are what is
  fresh when the items themselves are expanded one after the other;
* **first come, first served** — `exists_first_of_mem_fresh`: each item is found by the first one that leads to
  its key, and what is found is in order if the items and what each of them leads to are
  (`pairwise_fresh_flatMap`).

The second one rests on the invariant `AtDistance G s key seen frontier k`: the frontier holds the keys at
distance `k`, and those within distance `k` have been seen.  One step of the walk keeps it
(`AtDistance.step`), and the walk ends early only when nothing lies farther away.

`levels_forall` carries any fact that expansion hands on, such as a hop count kept in the items.

Walking over bare ids decides whether an id is within a number of hops (`Graph.mem_rings_iff`).

Two walks are compared as well.  They find the same if their expansions agree up to what has been seen
(`levels_congr`), and they get equally far if both expand to the neighbours in one graph (`length_levels_eq`).
A walk that stops before its limit finds the same under every higher limit (`levels_of_length_lt`).
-/

namespace CodeAtlas.Walk

variable {α : Type} {key : α → String} {expand : α → List α}

/-! ### Fresh candidates -/

theorem fresh_sublist (seen : List String) (l : List α) : (fresh key seen l).Sublist l := by
  induction l generalizing seen with
  | nil => exact List.Sublist.refl _
  | cons a rest ih =>
    rw [fresh]
    split
    · exact (ih seen).cons a
    · exact (ih _).cons_cons a

/-- The keys of the fresh candidates: all of them that were not seen. -/
theorem mem_map_fresh {seen : List String} {l : List α} {b : String} :
    b ∈ (fresh key seen l).map key ↔ b ∈ l.map key ∧ b ∉ seen := by
  induction l generalizing seen with
  | nil => simp [fresh]
  | cons a rest ih =>
    rw [fresh]
    split
    · rename_i hseen
      rw [ih, List.map_cons, List.mem_cons]
      constructor
      · rintro ⟨hb, hn⟩
        exact ⟨Or.inr hb, hn⟩
      · rintro ⟨rfl | hb, hn⟩
        · exact absurd hseen hn
        · exact ⟨hb, hn⟩
    · rename_i hnew
      rw [List.map_cons, List.mem_cons, ih, List.map_cons, List.mem_cons, List.mem_cons]
      constructor
      · rintro (rfl | ⟨hb, hn⟩)
        · exact ⟨Or.inl rfl, hnew⟩
        · exact ⟨Or.inr hb, fun h => hn (Or.inr h)⟩
      · rintro ⟨hb, hn⟩
        by_cases hba : b = key a
        · exact Or.inl hba
        · exact Or.inr ⟨hb.resolve_left hba, fun h => h.elim hba hn⟩

theorem nodup_map_fresh (seen : List String) (l : List α) : ((fresh key seen l).map key).Nodup := by
  induction l generalizing seen with
  | nil => simp [fresh]
  | cons a rest ih =>
    rw [fresh]
    split
    · exact ih seen
    · rw [List.map_cons, List.nodup_cons]
      refine ⟨?_, ih _⟩
      intro h
      exact (mem_map_fresh.1 h).2 List.mem_cons_self

/-- Of the keys seen only membership counts. -/
theorem fresh_congr {seen seen' : List String} (h : ∀ b, b ∈ seen ↔ b ∈ seen') (l : List α) :
    fresh key seen l = fresh key seen' l := by
  induction l generalizing seen seen' with
  | nil => rfl
  | cons a rest ih =>
    have hcons : ∀ b, b ∈ key a :: seen ↔ b ∈ key a :: seen' := by
      intro b
      rw [List.mem_cons, List.mem_cons, h]
    rw [fresh, fresh, ih h, ih hcons]
    simp only [h]

/-- What is fresh in the first part counts as seen in the second. -/
theorem fresh_append (seen : List String) (l l' : List α) :
    fresh key seen (l ++ l') =
      fresh key seen l ++ fresh key ((fresh key seen l).map key ++ seen) l' := by
  induction l generalizing seen with
  | nil => rfl
  | cons a rest ih =>
    rw [List.cons_append, fresh, fresh]
    split
    · exact ih seen
    · rw [ih, List.cons_append]
      congr 2
      apply fresh_congr
      intro b
      simp only [List.map_cons, List.cons_append, List.mem_append, List.mem_cons]
      tauto

/-- Candidates with keys that were seen can be left out beforehand. -/
theorem fresh_filter {keep : α → Bool} {seen : List String} (h : ∀ a, keep a = false → key a ∈ seen)
    (l : List α) : fresh key seen (l.filter keep) = fresh key seen l := by
  induction l generalizing seen with
  | nil => rfl
  | cons a rest ih =>
    cases hkeep : keep a with
    | false =>
      rw [List.filter_cons_of_neg (by simp [hkeep]), ih h, fresh, if_pos (h a hkeep)]
    | true =>
      have hcons : ∀ b, keep b = false → key b ∈ key a :: seen := by
        intro b hb
        exact List.mem_cons_of_mem _ (h b hb)
      rw [List.filter_cons_of_pos hkeep, fresh, fresh, ih h, ih hcons]

/-- Only keys decide what is fresh. -/
theorem map_fresh (seen : List String) (l : List α) :
    (fresh key seen l).map key = fresh id seen (l.map key) := by
  induction l generalizing seen with
  | nil => rfl
  | cons a rest ih =>
    rw [List.map_cons, fresh, fresh]
    split
    · rename_i h
      rw [if_pos (show id (key a) ∈ seen from h), ih]
    · rename_i h
      rw [if_neg (show ¬id (key a) ∈ seen from h), List.map_cons, ih]
      rfl

/-- For texts, being fresh is being new and a first occurrence. -/
theorem fresh_id_eq (seen l : List String) :
    fresh id seen l = (l.filter fun b => b ∉ seen).eraseDups := by
  induction l generalizing seen with
  | nil => rfl
  | cons a rest ih =>
    rw [fresh]
    by_cases h : a ∈ seen
    · rw [if_pos (show id a ∈ seen from h), List.filter_cons_of_neg (by simpa using h), ih]
    · rw [if_neg (show ¬id a ∈ seen from h), List.filter_cons_of_pos (by simpa using h),
        List.eraseDups_cons, List.filter_filter, ih]
      congr 2
      refine List.filter_congr fun b _ => ?_
      by_cases hb : b = a
      · simp [hb]
      · simp [hb]

theorem mem_flatMap_of_mem_fresh {seen : List String} {frontier : List α} {x : α}
    (h : x ∈ fresh key seen (frontier.flatMap expand)) : ∃ y ∈ frontier, x ∈ expand y :=
  List.mem_flatMap.1 ((fresh_sublist _ _).subset h)

/-- Mapping the candidates beforehand is mapping what is fresh. -/
theorem fresh_map {β : Type} {key : β → String} (f : α → β) (seen : List String) (l : List α) :
    fresh key seen (l.map f) = (fresh (fun a => key (f a)) seen l).map f := by
  induction l generalizing seen with
  | nil => rfl
  | cons a rest ih =>
    rw [List.map_cons, fresh, fresh]
    by_cases h : key (f a) ∈ seen
    · rw [if_pos h, if_pos h, ih]
    · rw [if_neg h, if_neg h, ih, List.map_cons]

/-! ### What is fresh comes first -/

/-- What is fresh comes before all other candidates with its key. -/
theorem eq_or_of_mem_fresh {r : α → α → Prop} {l : List α} (hl : l.Pairwise r) {seen : List String} {x : α}
    (h : x ∈ fresh key seen l) : ∀ w ∈ l, key w = key x → w = x ∨ r x w := by
  induction l generalizing seen with
  | nil => cases h
  | cons a rest ih =>
    obtain ⟨ha, hrest⟩ := List.pairwise_cons.1 hl
    have hnew : key x ∉ seen := (mem_map_fresh.1 (List.mem_map_of_mem h)).2
    intro w hw hkey
    by_cases hseen : key a ∈ seen
    · rw [fresh, if_pos hseen] at h
      rcases List.mem_cons.1 hw with rfl | hw
      · exact absurd (hkey ▸ hseen) hnew
      · exact ih hrest h w hw hkey
    · rw [fresh, if_neg hseen] at h
      rcases List.mem_cons.1 h with rfl | h
      · rcases List.mem_cons.1 hw with rfl | hw
        · exact .inl rfl
        · exact .inr (ha w hw)
      · have hne : key x ∉ key a :: seen := (mem_map_fresh.1 (List.mem_map_of_mem h)).2
        rcases List.mem_cons.1 hw with rfl | hw
        · exact absurd (hkey ▸ List.mem_cons_self) hne
        · exact ih hrest h w hw hkey

/-- What is fresh is found by the first item that leads to its key. -/
theorem exists_first_of_mem_fresh {r : α → α → Prop} {frontier : List α} (hr : frontier.Pairwise r)
    {seen : List String} {x : α} (h : x ∈ fresh key seen (frontier.flatMap expand)) :
    ∃ y ∈ frontier, (∃ seen', x ∈ fresh key seen' (expand y)) ∧
      ∀ z ∈ frontier, key x ∈ (expand z).map key → z = y ∨ r y z := by
  induction frontier generalizing seen with
  | nil => cases h
  | cons a rest ih =>
    obtain ⟨ha, hrest⟩ := List.pairwise_cons.1 hr
    rw [List.flatMap_cons, fresh_append] at h
    rcases List.mem_append.1 h with h | h
    · refine ⟨a, List.mem_cons_self, ⟨seen, h⟩, ?_⟩
      intro z hz _
      rcases List.mem_cons.1 hz with rfl | hz
      · exact .inl rfl
      · exact .inr (ha z hz)
    · have hnew : key x ∉ (fresh key seen (expand a)).map key ++ seen :=
        (mem_map_fresh.1 (List.mem_map_of_mem h)).2
      obtain ⟨y, hy, hx, hfirst⟩ := ih hrest h
      refine ⟨y, List.mem_cons_of_mem _ hy, hx, ?_⟩
      intro z hz hkey
      rcases List.mem_cons.1 hz with rfl | hz
      · -- the first item would have found the key, unless it had been seen before
        refine absurd ?_ hnew
        by_cases hseen : key x ∈ seen
        · exact List.mem_append_right _ hseen
        · exact List.mem_append_left _ (mem_map_fresh.2 ⟨hkey, hseen⟩)
      · exact hfirst z hz hkey

/-- What is fresh is in order if what each item leads to is, and the items are. -/
theorem pairwise_fresh_flatMap {r : α → α → Prop} {frontier : List α}
    (hown : ∀ y ∈ frontier, ∀ seen, (fresh key seen (expand y)).Pairwise r)
    (hacross : frontier.Pairwise fun y z => ∀ x ∈ expand y, ∀ w ∈ expand z, r x w) (seen : List String) :
    (fresh key seen (frontier.flatMap expand)).Pairwise r := by
  induction frontier generalizing seen with
  | nil => exact List.Pairwise.nil
  | cons a rest ih =>
    obtain ⟨ha, hrest⟩ := List.pairwise_cons.1 hacross
    rw [List.flatMap_cons, fresh_append, List.pairwise_append]
    refine ⟨hown a List.mem_cons_self seen, ih ?_ hrest _, ?_⟩
    · intro y hy
      exact hown y (List.mem_cons_of_mem _ hy)
    · intro x hx w hw
      obtain ⟨z, hz, hwz⟩ := mem_flatMap_of_mem_fresh hw
      exact ha z hz x ((fresh_sublist _ _).subset hx) w hwz

/-! ### Levels -/

/-- The next level and what follows it, or nothing if the next level is empty. -/
theorem levels_succ (n : ℕ) (seen : List String) (frontier : List α) :
    levels key expand (n + 1) seen frontier =
      if fresh key seen (frontier.flatMap expand) = [] then []
      else fresh key seen (frontier.flatMap expand) ::
        levels key expand n ((fresh key seen (frontier.flatMap expand)).map key ++ seen)
          (fresh key seen (frontier.flatMap expand)) := by
  rw [levels]
  cases fresh key seen (frontier.flatMap expand) with
  | nil => rfl
  | cons a next => rfl

theorem ne_nil_of_mem_levels {n : ℕ} {seen : List String} {frontier l : List α}
    (h : l ∈ levels key expand n seen frontier) : l ≠ [] := by
  induction n generalizing seen frontier with
  | zero => simp [levels] at h
  | succ n ih =>
    rw [levels_succ] at h
    split at h
    · cases h
    · rename_i hne
      rcases List.mem_cons.1 h with rfl | h
      · exact hne
      · exact ih h

theorem length_levels_le (n : ℕ) (seen : List String) (frontier : List α) :
    (levels key expand n seen frontier).length ≤ n := by
  induction n generalizing seen frontier with
  | zero => simp [levels]
  | succ n ih =>
    rw [levels_succ]
    split
    · exact Nat.zero_le _
    · rw [List.length_cons]
      exact Nat.succ_le_succ (ih _ _)

/-- A longer walk starts like a shorter one. -/
theorem take_levels (m n : ℕ) (seen : List String) (frontier : List α) :
    (levels key expand n seen frontier).take m = levels key expand (min m n) seen frontier := by
  induction n generalizing m seen frontier with
  | zero => simp [levels]
  | succ n ih =>
    cases m with
    | zero => simp [levels]
    | succ m =>
      rw [Nat.succ_min_succ, levels_succ, levels_succ]
      split
      · rfl
      · rw [List.take_succ_cons, ih]

/-- A walk that ended before its bound finds nothing more under a greater one. -/
theorem levels_of_length_lt {m n : ℕ} {seen : List String} {frontier : List α} (hmn : n ≤ m)
    (h : (levels key expand n seen frontier).length < n) :
    levels key expand m seen frontier = levels key expand n seen frontier := by
  have htake : (levels key expand m seen frontier).take n = levels key expand n seen frontier := by
    rw [take_levels, Nat.min_eq_left hmn]
  rw [← htake, List.length_take] at h
  rw [← htake, List.take_of_length_le (by omega)]

/-- Two walks stay together if the expansions of each item agree up to items with keys seen at the start. -/
theorem levels_congr {expand' : α → List α} {keep : α → Bool}
    (hexpand : ∀ x, (expand x).filter keep = (expand' x).filter keep) (n : ℕ) {seen : List String}
    (hseen : ∀ a, keep a = false → key a ∈ seen) (frontier : List α) :
    levels key expand n seen frontier = levels key expand' n seen frontier := by
  induction n generalizing seen frontier with
  | zero => rfl
  | succ n ih =>
    have hnext : fresh key seen (frontier.flatMap expand) = fresh key seen (frontier.flatMap expand') := by
      calc fresh key seen (frontier.flatMap expand)
          = fresh key seen ((frontier.flatMap expand).filter keep) := (fresh_filter hseen _).symm
        _ = fresh key seen ((frontier.flatMap expand').filter keep) := by
            rw [List.filter_flatMap, List.filter_flatMap]
            exact congrArg _ (List.flatMap_congr fun x _ => hexpand x)
        _ = fresh key seen (frontier.flatMap expand') := fresh_filter hseen _
    rw [levels_succ, levels_succ, hnext]
    generalize fresh key seen (frontier.flatMap expand') = next
    -- what was seen at the start stays seen
    have hlater : ∀ a, keep a = false → key a ∈ next.map key ++ seen := by
      intro a ha
      exact List.mem_append_right _ (hseen a ha)
    rw [ih hlater next]

/-- No key is claimed twice, and none that was seen before. -/
theorem nodup_levels (key : α → String) (expand : α → List α) (n : ℕ) (seen : List String)
    (frontier : List α) :
    ((levels key expand n seen frontier).flatten.map key).Nodup ∧
      ∀ b ∈ (levels key expand n seen frontier).flatten.map key, b ∉ seen := by
  induction n generalizing seen frontier with
  | zero => simp [levels]
  | succ n ih =>
    rw [levels_succ]
    split
    · simp
    · generalize hnext : fresh key seen (frontier.flatMap expand) = next
      obtain ⟨hnd, hout⟩ := ih (next.map key ++ seen) next
      rw [List.flatten_cons, List.map_append]
      constructor
      · refine List.nodup_append.2 ⟨hnext ▸ nodup_map_fresh _ _, hnd, ?_⟩
        rintro b hb c hc rfl
        exact hout b hc (List.mem_append_left _ hb)
      · intro b hb
        rcases List.mem_append.1 hb with hb | hb
        · rw [← hnext] at hb
          exact (mem_map_fresh.1 hb).2
        · exact fun h => hout b hb (List.mem_append_right _ h)

/-- All levels together are what is fresh in the expansion of those that were expanded: the frontier and
all but the last possible level. -/
theorem flatten_levels (key : α → String) (expand : α → List α) (n : ℕ) (seen : List String)
    (frontier : List α) :
    (levels key expand n seen frontier).flatten =
      fresh key seen
        (((frontier :: levels key expand n seen frontier).take n).flatten.flatMap expand) := by
  induction n generalizing seen frontier with
  | zero => rfl
  | succ n ih =>
    rw [levels_succ]
    generalize hnext : fresh key seen (frontier.flatMap expand) = next
    split
    · rename_i hnil
      subst hnil
      simpa using hnext.symm
    · rw [List.take_succ_cons, List.flatten_cons, List.flatten_cons, List.flatMap_append, fresh_append,
        hnext, ← ih]

/-- What expansion hands on from one level to the next holds on every level. -/
theorem levels_forall {P : ℕ → α → Prop} (hP : ∀ k x y, P k x → y ∈ expand x → P (k + 1) y) {k n : ℕ}
    {seen : List String} {frontier : List α} (h0 : ∀ x ∈ frontier, P k x) {i : ℕ} {l : List α}
    (hl : (levels key expand n seen frontier)[i]? = some l) : ∀ x ∈ l, P (k + 1 + i) x := by
  induction n generalizing seen frontier k i with
  | zero => simp [levels] at hl
  | succ n ih =>
    rw [levels_succ] at hl
    split at hl
    · simp at hl
    · have hnext : ∀ x ∈ fresh key seen (frontier.flatMap expand), P (k + 1) x := by
        intro x hx
        obtain ⟨y, hy, hxy⟩ := mem_flatMap_of_mem_fresh hx
        exact hP k y x (h0 y hy) hxy
      cases i with
      | zero =>
        rw [List.getElem?_cons_zero] at hl
        cases hl
        exact hnext
      | succ i =>
        rw [List.getElem?_cons_succ] at hl
        have := ih hnext hl
        rwa [show k + 1 + (i + 1) = k + 1 + 1 + i by omega]

/-! ### Levels and distances -/

/-- Expanding an item leads to the neighbours of its key, and to no other key but its own. -/
def Spans (G : SimpleGraph String) (key : α → String) (expand : α → List α) : Prop :=
  ∀ x b, b ≠ key x → ((∃ y ∈ expand x, key y = b) ↔ G.Adj (key x) b)

/-- The frontier holds the keys at distance `k` from `s`; those within distance `k` have been seen. -/
structure AtDistance (G : SimpleGraph String) (s : String) (key : α → String) (seen : List String)
    (frontier : List α) (k : ℕ) : Prop where
  mem_seen : ∀ b, b ∈ seen ↔ G.edist s b ≤ k
  mem_frontier : ∀ b, b ∈ frontier.map key ↔ G.edist s b = k

variable {G : SimpleGraph String} {s : String} {seen : List String} {frontier : List α} {k : ℕ}

/-- The walk starts at distance zero. -/
theorem AtDistance.start {x : α} (h : key x = s) : AtDistance G s key [s] [x] 0 where
  mem_seen b := by
    rw [List.mem_singleton, Nat.cast_zero, nonpos_iff_eq_zero, SimpleGraph.edist_eq_zero_iff, eq_comm]
  mem_frontier b := by
    rw [List.map_singleton, List.mem_singleton, h, Nat.cast_zero, SimpleGraph.edist_eq_zero_iff,
      eq_comm]

/-- The keys of the next level are those one hop farther away. -/
theorem AtDistance.mem_fresh (h : AtDistance G s key seen frontier k) (hG : Spans G key expand)
    (b : String) :
    b ∈ (fresh key seen (frontier.flatMap expand)).map key ↔ G.edist s b = (k + 1 : ℕ) := by
  rw [mem_map_fresh, edist_eq_succ_iff, h.mem_seen]
  refine and_congr_left fun hfar => ?_
  constructor
  · intro hb
    obtain ⟨y, hy, rfl⟩ := List.mem_map.1 hb
    obtain ⟨x, hx, hxy⟩ := List.mem_flatMap.1 hy
    have hdx : G.edist s (key x) = k := (h.mem_frontier _).1 (List.mem_map_of_mem hx)
    have hne : key y ≠ key x := by
      intro heq
      exact hfar (heq ▸ hdx.le)
    exact ⟨key x, hdx, (hG x _ hne).1 ⟨y, hxy, rfl⟩⟩
  · rintro ⟨a, ha, hadj⟩
    obtain ⟨x, hx, rfl⟩ := List.mem_map.1 ((h.mem_frontier a).2 ha)
    obtain ⟨y, hy, rfl⟩ := (hG x b hadj.ne').2 hadj
    exact List.mem_map_of_mem (List.mem_flatMap.2 ⟨x, hx, hy⟩)

/-- One step of the walk goes one hop farther. -/
theorem AtDistance.step (h : AtDistance G s key seen frontier k) (hG : Spans G key expand) :
    AtDistance G s key ((fresh key seen (frontier.flatMap expand)).map key ++ seen)
      (fresh key seen (frontier.flatMap expand)) (k + 1) where
  mem_seen b := by
    rw [List.mem_append, h.mem_fresh hG, h.mem_seen, edist_le_succ_iff, or_comm]
  mem_frontier := h.mem_fresh hG

/-- Level `i` after a frontier at distance `k` holds exactly the keys at distance `k + 1 + i`, where
levels that the walk did not reach count as empty. -/
theorem mem_level_iff (hG : Spans G key expand) {n : ℕ} (h : AtDistance G s key seen frontier k)
    {i : ℕ} (hi : i < n) (b : String) :
    b ∈ ((levels key expand n seen frontier).getD i []).map key ↔ G.edist s b = (k + 1 + i : ℕ) := by
  induction n generalizing seen frontier k i with
  | zero => omega
  | succ n ih =>
    rw [levels_succ]
    split
    · rename_i hnil
      -- an empty level means that nothing is farther away
      have hnone : ∀ c, G.edist s c ≠ (k + 1 : ℕ) := by
        intro c hc
        have := (h.mem_fresh hG c).2 hc
        rw [hnil] at this
        cases this
      simpa using edist_ne_of_none_at hnone i b
    · cases i with
      | zero =>
        rw [List.getD_cons_zero]
        exact h.mem_fresh hG b
      | succ i =>
        rw [List.getD_cons_succ, ih (h.step hG) (by omega)]
        rw [show k + 1 + 1 + i = k + 1 + (i + 1) by omega]

/-! ### A walk from one item -/

theorem exists_level_of_mem_flatten {ls : List (List α)} {y : α} (h : y ∈ ls.flatten) :
    ∃ (i : ℕ) (l : List α), ls[i]? = some l ∧ y ∈ l := by
  obtain ⟨l, hl, hy⟩ := List.mem_flatten.1 h
  obtain ⟨i, hi⟩ := List.mem_iff_getElem?.1 hl
  exact ⟨i, l, hi, hy⟩

/-- Level `i` of a walk from an item lies at distance `i + 1`. -/
theorem edist_of_mem_level (hG : Spans G key expand) {x : α} (hx : key x = s) {n i : ℕ} {l : List α}
    (hl : (levels key expand n [s] [x])[i]? = some l) :
    i < n ∧ ∀ y ∈ l, G.edist s (key y) = (i + 1 : ℕ) := by
  obtain ⟨hi, -⟩ := List.getElem?_eq_some_iff.1 hl
  have hin : i < n := lt_of_lt_of_le hi (length_levels_le _ _ _)
  refine ⟨hin, ?_⟩
  intro y hy
  have h := (mem_level_iff hG (AtDistance.start hx) hin (key y)).1 (by
    rw [List.getD_eq_getElem?_getD, hl]
    exact List.mem_map_of_mem hy)
  rw [h, Nat.zero_add, Nat.add_comm]

/-- A walk of `n` levels from an item finds the keys at distances from one to `n`. -/
theorem mem_flatten_levels_iff (hG : Spans G key expand) {x : α} (hx : key x = s) {n : ℕ} {b : String} :
    b ∈ (levels key expand n [s] [x]).flatten.map key ↔
      ∃ k : ℕ, 1 ≤ k ∧ k ≤ n ∧ G.edist s b = k := by
  constructor
  · intro h
    obtain ⟨y, hy, rfl⟩ := List.mem_map.1 h
    obtain ⟨i, l, hl, hyl⟩ := exists_level_of_mem_flatten hy
    obtain ⟨hi, hdist⟩ := edist_of_mem_level hG hx hl
    exact ⟨i + 1, by omega, hi, hdist y hyl⟩
  · rintro ⟨k, hk, hkn, hdist⟩
    obtain ⟨i, rfl⟩ := Nat.exists_eq_add_of_le hk
    have hmem := (mem_level_iff hG (AtDistance.start hx) (n := n) (i := i) (by omega) b).2 (by
      rw [hdist, Nat.zero_add])
    obtain ⟨y, hy, rfl⟩ := List.mem_map.1 hmem
    rw [List.getD_eq_getElem?_getD] at hy
    cases hl : (levels key expand n [s] [x])[i]? with
    | none =>
      rw [hl] at hy
      cases hy
    | some l =>
      rw [hl] at hy
      exact List.mem_map_of_mem (List.mem_flatten.2 ⟨l, List.mem_of_getElem? hl, hy⟩)

/-- With its start, a walk of `n` levels finds the keys within distance `n`. -/
theorem mem_cons_levels_iff (hG : Spans G key expand) {x : α} (hx : key x = s) {n : ℕ} {b : String} :
    b ∈ s :: (levels key expand n [s] [x]).flatten.map key ↔ G.edist s b ≤ n := by
  rw [List.mem_cons, mem_flatten_levels_iff hG hx, ENat.le_natCast_iff]
  constructor
  · rintro (rfl | ⟨k, -, hk, hdist⟩)
    · exact ⟨0, SimpleGraph.edist_self, Nat.zero_le _⟩
    · exact ⟨k, hdist, hk⟩
  · rintro ⟨k, hdist, hk⟩
    cases k with
    | zero => exact Or.inl (SimpleGraph.edist_eq_zero_iff.1 hdist).symm
    | succ k => exact Or.inr ⟨k + 1, by omega, hk, hdist⟩

/-- The walk gets to level `i`, if it may, exactly if some key lies at distance `i + 1`. -/
theorem lt_length_levels_iff (hG : Spans G key expand) {x : α} (hx : key x = s) {n i : ℕ} (hi : i < n) :
    i < (levels key expand n [s] [x]).length ↔ ∃ b, G.edist s b = (i + 1 : ℕ) := by
  constructor
  · intro h
    obtain ⟨y, hy⟩ := List.exists_mem_of_ne_nil _ (ne_nil_of_mem_levels (List.getElem_mem h))
    exact ⟨key y, (edist_of_mem_level hG hx (List.getElem?_eq_getElem h)).2 y hy⟩
  · intro ⟨b, hb⟩
    have hmem := (mem_level_iff hG (AtDistance.start hx) hi b).2 (by rw [hb, Nat.zero_add, Nat.add_comm])
    by_contra hlen
    rw [List.getD_eq_getElem?_getD, List.getElem?_eq_none (Nat.le_of_not_lt hlen)] at hmem
    cases hmem

/-- Walks over one graph from one key have the same number of levels, whatever their items are. -/
theorem length_levels_eq {β : Type} {key' : β → String} {expand' : β → List β} (hG : Spans G key expand)
    (hG' : Spans G key' expand') {x : α} {y : β} (hx : key x = s) (hy : key' y = s) (n : ℕ) :
    (levels key expand n [s] [x]).length = (levels key' expand' n [s] [y]).length := by
  have hle : (levels key expand n [s] [x]).length ≤ n := length_levels_le _ _ _
  have hle' : (levels key' expand' n [s] [y]).length ≤ n := length_levels_le _ _ _
  have hiff : ∀ i, i < n →
      (i < (levels key expand n [s] [x]).length ↔ i < (levels key' expand' n [s] [y]).length) := by
    intro i hi
    rw [lt_length_levels_iff hG hx hi, lt_length_levels_iff hG' hy hi]
  apply Nat.le_antisymm
  · by_contra hlt
    exact absurd ((hiff _ (by omega)).1 (Nat.lt_of_not_le hlt)) (Nat.lt_irrefl _)
  · by_contra hlt
    exact absurd ((hiff _ (by omega)).2 (Nat.lt_of_not_le hlt)) (Nat.lt_irrefl _)

/-- What is found is not the start. -/
theorem not_mem_flatten_levels (key : α → String) (expand : α → List α) (n : ℕ) (s : String) (x : α) :
    s ∉ (levels key expand n [s] [x]).flatten.map key := by
  intro h
  exact (nodup_levels key expand n [s] [x]).2 s h (List.mem_singleton.2 rfl)

end CodeAtlas.Walk

/-! ### Hop distances are computed by walking over ids -/

namespace CodeAtlas.Graph

/-- The ids at the other ends of the edges at an id, in the order of the graph's edges. -/
def neighbourIds (g : Graph) (selected : Entity) (a : String) : List String :=
  (g.hopEdges selected).filterMap fun e => e.otherEnd? a

/-- The ids around the selected one, a list for each distance from one to `n`, up to the last one at which there
are any. -/
def rings (g : Graph) (selected : Entity) (n : ℕ) : List (List String) :=
  Walk.levels id (g.neighbourIds selected) n [selected.id] [selected.id]

theorem mem_neighbourIds_iff {g : Graph} {selected : Entity} {a b : String} :
    b ∈ g.neighbourIds selected a ↔ ∃ e ∈ g.hopEdges selected, e.Joins a b := by
  simp only [neighbourIds, List.mem_filterMap, Edge.otherEnd?_eq_some_iff]

theorem spans_neighbourIds (g : Graph) (selected : Entity) :
    Walk.Spans (g.hopGraph selected) id (g.neighbourIds selected) := by
  intro a b hb
  rw [hopGraph_adj, ← mem_neighbourIds_iff]
  constructor
  · rintro ⟨b, hmem, rfl⟩
    exact ⟨hb.symm, hmem⟩
  · rintro ⟨-, hmem⟩
    exact ⟨b, hmem, rfl⟩

/-- Whether an id is within a number of hops is decided by walking. -/
theorem mem_rings_iff {g : Graph} {selected : Entity} {n : ℕ} {b : String} :
    b ∈ selected.id :: (g.rings selected n).flatten ↔ (g.hopGraph selected).edist selected.id b ≤ n := by
  have h := Walk.mem_cons_levels_iff (spans_neighbourIds g selected) (x := selected.id) rfl (n := n) (b := b)
  rwa [List.map_id] at h

theorem nodup_rings (g : Graph) (selected : Entity) (n : ℕ) :
    (selected.id :: (g.rings selected n).flatten).Nodup := by
  have hstart := Walk.not_mem_flatten_levels id (g.neighbourIds selected) n selected.id selected.id
  have hnodup := (Walk.nodup_levels id (g.neighbourIds selected) n [selected.id] [selected.id]).1
  rw [List.map_id] at hstart hnodup
  exact List.nodup_cons.2 ⟨hstart, hnodup⟩

end CodeAtlas.Graph
