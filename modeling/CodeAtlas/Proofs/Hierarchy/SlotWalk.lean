import CodeAtlas.Proofs.Hierarchy.Canonical
import CodeAtlas.Proofs.Reference.BreadthFirst
import CodeAtlas.Proofs.Text.OrderedMap
import Mathlib.Logic.Function.Iterate

/-!
# Claiming with a queue

Claims can be made one at a time.  A table of *slots* takes the claims in the order in which they are made, and a
queue holds the places of those whose entities have not claimed anything yet.  Each round takes the first place
off the queue; its entity claims what is left of its neighbours, and each new claim gets a slot at the end of the
table, a place at the end of the queue and an entry among the children of the slot that made it, and its label is
noted.  The queue grows while it is consumed, and nothing bounds the rounds but the entities that are left.

After `k` rounds the first `k` slots are done and the others wait (`SlotWalk.Reached`).  One round takes one slot
from the ones that wait to the ones that are done (`Reached.round`), and all claims so far are a beginning of the
table of claims that trees are built from (`Reached.isPrefix_round`).  So there are as many rounds as claims, and
then the tables agree (`rounds_length_table`).
-/

namespace CodeAtlas

/-- A claim in a table, with the places of the claims that its entity made. -/
structure Slot where
  claim : Claim
  children : List ℕ
  deriving DecidableEq, Repr

/-- The slot of a claim that has just been made. -/
def Slot.unfilled (c : Claim) : Slot := { claim := c, children := [] }

/-- The id claimed. -/
def Slot.id (s : Slot) : String := s.claim.id

/-- A walk under way. -/
structure SlotWalk where
  slots : List Slot
  /-- The ids claimed so far. -/
  seen : List String
  /-- The places of the slots that wait for their turn. -/
  queue : List ℕ
  /-- The labels of the claims made so far, in increasing order. -/
  labels : List String
  deriving DecidableEq, Repr

namespace SlotWalk

/-- Only the root is claimed. -/
def start (selected : Entity) : SlotWalk :=
  { slots := [.unfilled (Claim.root selected)], seen := [selected.id], queue := [0], labels := [] }

/-- The labels with that of one claim more. -/
def note (labels : List String) (d : Claim) : List String :=
  match d.relationship with
  | some label => Text.insertText label labels
  | none => labels

/-- The claims that an entity may make on neighbours not yet claimed, in order. -/
def candidates (index : Index) (seen : List String) (c : Claim) : List Claim :=
  let unclaimed := (index.touching c.id).filter fun (_, other) => other.id ∉ seen
  let labelled := unclaimed.map fun (edge, other) => (edge.labelFrom c.id, other)
  (labelled.mergeSort Claim.candidateLe).map fun (label, other) =>
    { entity := other, hops := c.hops + 1, relationship := some label, claimant := some c.id }

/-- Make a claim for the slot at a place, unless the id has been claimed meanwhile. -/
def push (current : ℕ) (w : SlotWalk) (d : Claim) : SlotWalk :=
  if d.id ∈ w.seen then w
  else
    let place := w.slots.length
    { slots := w.slots.modify current (fun s => { s with children := s.children ++ [place] }) ++ [.unfilled d]
      seen := d.id :: w.seen
      queue := w.queue ++ [place]
      labels := note w.labels d }

/-- Give the first slot in the queue its turn.  Nothing happens once the queue is empty. -/
def round (index : Index) (maxDepth : ℕ) (w : SlotWalk) : SlotWalk :=
  match w.queue with
  | [] => w
  | current :: rest =>
    let w := { w with queue := rest }
    match w.slots[current]? with
    | none => w
    | some s =>
      if s.claim.hops < maxDepth then (candidates index w.seen s.claim).foldl (push current) w else w

/-- The walk after a number of rounds. -/
def rounds (index : Index) (maxDepth : ℕ) (selected : Entity) (n : ℕ) : SlotWalk :=
  (round index maxDepth)^[n] (start selected)

variable {index : Index} {maxDepth : ℕ} {selected : Entity}

theorem rounds_succ (n : ℕ) :
    rounds index maxDepth selected (n + 1) = round index maxDepth (rounds index maxDepth selected n) :=
  Function.iterate_succ_apply' _ _ _

/-! ### One round -/

/-- The claims that an entity may make at all. -/
def reach (index : Index) (maxDepth : ℕ) (c : Claim) : List Claim :=
  if c.hops < maxDepth then Claim.expand index c else []

theorem of_mem_reach {c d : Claim} (h : d ∈ reach index maxDepth c) :
    d.claimant = some c.id ∧ d.hops = c.hops + 1 := by
  rw [reach] at h
  split at h
  · exact ⟨Claim.claimant_of_mem_expand h, Claim.hops_of_mem_expand h⟩
  · cases h

/-- Neighbours that have been claimed can be struck out before sorting or afterwards. -/
theorem candidates_eq (seen : List String) (c : Claim) :
    candidates index seen c = (Claim.expand index c).filter fun d => d.id ∉ seen := by
  rw [candidates, Claim.expand, Claim.candidates, List.filter_map,
    ← Text.mergeSort_filter Claim.candidateLe_trans Claim.candidateLe_total, List.filter_map]
  rfl

theorem fresh_candidates (seen : List String) (c : Claim) :
    Walk.fresh Claim.id seen (candidates index seen c) = Walk.fresh Claim.id seen (Claim.expand index c) := by
  rw [candidates_eq]
  apply Walk.fresh_filter
  intro d hd
  simpa using hd

theorem modify_middle {α : Type} (f : α → α) (front : List α) (a : α) (back : List α) :
    (front ++ a :: back).modify front.length f = front ++ f a :: back := by
  induction front with
  | nil => rfl
  | cons b front ih =>
    rw [List.cons_append, List.length_cons, List.modify_succ_cons, ih]
    rfl

/-- What a slot claims goes to the end of the table and of the queue, its places go to the children, and its labels
are noted. -/
theorem foldl_push (front : List Slot) (c : Claim) (l : List Claim) (children : List ℕ) (back : List Slot)
    (seen : List String) (queue : List ℕ) (labels : List String) :
    l.foldl (push front.length) ⟨front ++ ⟨c, children⟩ :: back, seen, queue, labels⟩ =
      let new := Walk.fresh Claim.id seen l
      let places := List.range' (front ++ ⟨c, children⟩ :: back).length new.length
      ⟨front ++ ⟨c, children ++ places⟩ :: (back ++ new.map Slot.unfilled),
        (new.map Claim.id).reverse ++ seen, queue ++ places, new.foldl note labels⟩ := by
  induction l generalizing children back seen queue labels with
  | nil => simp [Walk.fresh]
  | cons d l ih =>
    rw [List.foldl_cons, Walk.fresh, push]
    by_cases hd : d.id ∈ seen
    · rw [if_pos hd, if_pos hd, ih]
    · rw [if_neg hd, if_neg hd]
      dsimp only
      rw [modify_middle, List.append_assoc, List.cons_append, ih]
      simp [List.range'_succ, Nat.add_assoc]

/-- The walk whose first slots are done while the others wait. -/
def under (done : List Slot) (waiting : List Claim) (seen labels : List String) : SlotWalk :=
  { slots := done ++ waiting.map Slot.unfilled
    seen
    queue := List.range' done.length waiting.length
    labels }

/-- The claims that a slot makes when it is its turn. -/
def made (index : Index) (maxDepth : ℕ) (seen : List String) (c : Claim) : List Claim :=
  Walk.fresh Claim.id seen (reach index maxDepth c)

/-- The slot of a claim after its turn, if `count` slots were in the table before. -/
def filled (index : Index) (maxDepth : ℕ) (seen : List String) (count : ℕ) (c : Claim) : Slot :=
  { claim := c, children := List.range' count (made index maxDepth seen c).length }

/-- A round moves one slot from those that wait to those that are done. -/
theorem round_under (done : List Slot) (c : Claim) (waiting : List Claim) (seen labels : List String) :
    round index maxDepth (under done (c :: waiting) seen labels) =
      under (done ++ [filled index maxDepth seen (done.length + 1 + waiting.length) c])
        (waiting ++ made index maxDepth seen c) (((made index maxDepth seen c).map Claim.id).reverse ++ seen)
        ((made index maxDepth seen c).foldl note labels) := by
  have hcurrent : (done ++ (c :: waiting).map Slot.unfilled)[done.length]? = some (.unfilled c) := by
    simp
  rw [round, under, List.length_cons, List.range'_succ]
  dsimp only
  rw [hcurrent]
  dsimp only
  rw [filled, made, under, reach, Slot.unfilled]
  split
  · rw [List.map_cons, Slot.unfilled, foldl_push, fresh_candidates]
    simp [← List.range'_append_1, Nat.add_assoc, Nat.add_comm 1]
  · simp [Walk.fresh, Slot.unfilled]

/-! ### What a walk has reached -/

/-- The root and what some claims lead to, in the order of discovery. -/
def discovered (index : Index) (maxDepth : ℕ) (selected : Entity) (l : List Claim) : List Claim :=
  Claim.root selected :: Walk.fresh Claim.id [selected.id] (l.flatMap (reach index maxDepth))

theorem discovered_append (a b : List Claim) :
    discovered index maxDepth selected (a ++ b) =
      discovered index maxDepth selected a ++
        Walk.fresh Claim.id ((discovered index maxDepth selected a).map Claim.id)
          (b.flatMap (reach index maxDepth)) := by
  rw [discovered, List.flatMap_append, Walk.fresh_append, ← List.cons_append]
  refine congrArg _ (Walk.fresh_congr ?_ _)
  intro b
  rw [discovered, List.map_cons, List.mem_cons, List.mem_append, List.mem_singleton, or_comm]
  rfl

/-- Noting the labels of claims one after the other. -/
theorem foldl_note (l : List String) (new : List Claim) :
    new.foldl note (Text.distinctSorted l) = Text.distinctSorted (l ++ new.filterMap Claim.relationship) := by
  induction new generalizing l with
  | nil => rw [List.filterMap_nil, List.append_nil, List.foldl_nil]
  | cons d new ih =>
    rw [List.foldl_cons, note]
    cases hlabel : d.relationship with
    | none => rw [List.filterMap_cons_none hlabel, ih]
    | some label =>
      rw [List.filterMap_cons_some hlabel, List.append_cons, ← ih, ← Text.insertText_distinctSorted]

/-- What holds between two rounds. -/
structure Reached (index : Index) (maxDepth : ℕ) (selected : Entity) (done : List Slot) (waiting : List Claim)
    (seen labels : List String) : Prop where
  /-- The ids seen are those claimed. -/
  seen : ∀ b, b ∈ seen ↔ b ∈ (done.map Slot.claim ++ waiting).map Claim.id
  /-- The claims are what the slots that are done lead to, in the order of discovery. -/
  claims : done.map Slot.claim ++ waiting = discovered index maxDepth selected (done.map Slot.claim)
  /-- The labels noted are those of the claims. -/
  labels : labels = Text.distinctSorted ((done.map Slot.claim ++ waiting).filterMap Claim.relationship)
  /-- Read off one after the other, the children are all places but the first. -/
  children : done.flatMap Slot.children = List.range' 1 (done.length + waiting.length - 1)
  /-- A child comes later, names its claimant and lies one hop farther. -/
  child : ∀ (i : ℕ) (s : Slot), done[i]? = some s → ∀ j ∈ s.children, i < j ∧
    ∃ d : Claim, (done.map Slot.claim ++ waiting)[j]? = some d ∧ d.claimant = some s.id ∧ d.hops = s.claim.hops + 1

theorem Reached.start : Reached index maxDepth selected [] [Claim.root selected] [selected.id] [] where
  seen _ := Iff.rfl
  claims := rfl
  labels := by simp [Claim.root, Text.distinctSorted, Text.distinct, Text.sortOn]
  children := rfl
  child i s h := by
    rw [List.getElem?_nil] at h
    cases h

namespace Reached

variable {done : List Slot} {c : Claim} {waiting : List Claim} {seen labels : List String}

theorem claims_round (h : Reached index maxDepth selected done (c :: waiting) seen labels) :
    done.map Slot.claim ++ c :: waiting ++ made index maxDepth seen c =
      discovered index maxDepth selected (done.map Slot.claim ++ [c]) := by
  rw [discovered_append, ← h.claims, List.flatMap_singleton, made]
  exact congrArg _ (Walk.fresh_congr h.seen _)

theorem round (h : Reached index maxDepth selected done (c :: waiting) seen labels) :
    Reached index maxDepth selected
      (done ++ [filled index maxDepth seen (done.length + 1 + waiting.length) c])
      (waiting ++ made index maxDepth seen c)
      (((made index maxDepth seen c).map Claim.id).reverse ++ seen)
      ((made index maxDepth seen c).foldl note labels) := by
  -- the claims so far, and the new ones behind them
  have hclaims : (done ++ [filled index maxDepth seen (done.length + 1 + waiting.length) c]).map Slot.claim ++
      (waiting ++ made index maxDepth seen c) =
        done.map Slot.claim ++ c :: waiting ++ made index maxDepth seen c := by
    simp [filled]
  constructor
  · intro b
    rw [hclaims, List.map_append, List.mem_append, List.mem_append, List.mem_reverse, h.seen, or_comm]
  · rw [hclaims, h.claims_round, List.map_append]
    rfl
  · rw [hclaims, h.labels, foldl_note, ← List.filterMap_append]
  · rw [List.flatMap_append, h.children, List.flatMap_singleton, filled, List.length_cons]
    simp only [List.length_append, List.length_cons, List.length_nil]
    rw [show done.length + 1 + waiting.length = 1 + (done.length + (waiting.length + 1) - 1) by omega,
      List.range'_append_1]
    congr 1
    omega
  · intro i s hs j hj
    rw [hclaims]
    by_cases hi : i < done.length
    · rw [List.getElem?_append_left hi] at hs
      obtain ⟨hlt, d, hd, hmade⟩ := h.child i s hs j hj
      refine ⟨hlt, d, ?_, hmade⟩
      rw [List.getElem?_append_left (List.getElem?_eq_some_iff.1 hd).1]
      exact hd
    · -- the slot of this round; its children are the new claims
      obtain rfl : i = done.length := by
        have hlt := (List.getElem?_eq_some_iff.1 hs).1
        rw [List.length_append, List.length_singleton] at hlt
        omega
      rw [List.getElem?_concat_length] at hs
      cases hs
      obtain ⟨k, hk, rfl⟩ := List.mem_range'.1 hj
      have hnew := of_mem_reach ((Walk.fresh_sublist _ _).subset (List.getElem_mem hk))
      have hlength : (done.map Slot.claim ++ c :: waiting).length = done.length + 1 + waiting.length := by
        rw [List.length_append, List.length_map, List.length_cons]
        omega
      refine ⟨by omega, (made index maxDepth seen c)[k], ?_, hnew⟩
      rw [List.getElem?_append_right (by omega), hlength, Nat.one_mul, Nat.add_sub_cancel_left,
        List.getElem?_eq_getElem hk]

end Reached

variable {table : List Claim}

/-- What is claimed next is claimed in a table that is the order of its own discovery. -/
theorem Reached.isPrefix_round {done : List Slot} {c : Claim} {waiting : List Claim} {seen labels : List String}
    (h : Reached index maxDepth selected done (c :: waiting) seen labels)
    (htable : table = discovered index maxDepth selected table)
    (hpre : done.map Slot.claim ++ c :: waiting <+: table) :
    done.map Slot.claim ++ c :: waiting ++ made index maxDepth seen c <+: table := by
  obtain ⟨rest, hrest⟩ := hpre
  have hsplit : table = done.map Slot.claim ++ [c] ++ (waiting ++ rest) := by
    rw [← hrest]
    simp
  rw [h.claims_round, htable, hsplit, discovered_append (done.map Slot.claim ++ [c]) (waiting ++ rest)]
  exact List.prefix_append _ _

/-- In such a table, if it is sorted by hops, nothing is behind a part that leads to nothing new. -/
theorem eq_of_discovered {part : List Claim} (htable : table = discovered index maxDepth selected table)
    (hsorted : table.Pairwise fun c d => c.hops ≤ d.hops) (hpre : part <+: table)
    (hpart : part = discovered index maxDepth selected part) : part = table := by
  obtain ⟨rest, rfl⟩ := hpre
  rw [discovered_append, ← hpart, List.append_cancel_left_eq] at htable
  cases rest with
  | nil => rw [List.append_nil]
  | cons r rest =>
    -- the first claim behind the part was made by one behind it, which is no nearer
    have hr : r ∈ Walk.fresh Claim.id (part.map Claim.id) ((r :: rest).flatMap (reach index maxDepth)) :=
      htable ▸ List.mem_cons_self
    obtain ⟨x, hx, hrx⟩ := Walk.mem_flatMap_of_mem_fresh hr
    have hhops := (of_mem_reach hrx).2
    rcases List.mem_cons.1 hx with rfl | hx
    · omega
    · have hle := (List.pairwise_cons.1 (List.pairwise_append.1 hsorted).2.1).1 x hx
      omega

end SlotWalk

/-! ### The table of claims -/

namespace Claim

theorem graded_levels (index : Index) (selected : Entity) (maxDepth : ℕ) :
    Graded Claim.hops 0 ([root selected] :: levels index selected maxDepth) := by
  intro i l hl c hc
  cases i with
  | zero =>
    rw [List.getElem?_cons_zero] at hl
    cases hl
    rw [List.mem_singleton.1 hc]
    rfl
  | succ i =>
    rw [List.getElem?_cons_succ] at hl
    rw [hops_of_mem_level hl c hc, Nat.zero_add]

theorem pairwise_hops_table (index : Index) (selected : Entity) (maxDepth : ℕ) :
    (table index selected maxDepth).Pairwise fun c d => c.hops ≤ d.hops :=
  (graded_levels index selected maxDepth).pairwise

/-- The table of claims is the order of its own discovery. -/
theorem table_eq_discovered (index : Index) (selected : Entity) (maxDepth : ℕ) :
    table index selected maxDepth =
      SlotWalk.discovered index maxDepth selected (table index selected maxDepth) := by
  have hclaimants : claimants index selected maxDepth =
      (table index selected maxDepth).filter fun c => c.hops < maxDepth := by
    rw [claimants, (graded_levels index selected maxDepth).flatten_take, Nat.zero_add]
    rfl
  have hreach : ∀ l : List Claim, (l.filter fun c => c.hops < maxDepth).flatMap (expand index) =
      l.flatMap (SlotWalk.reach index maxDepth) := by
    intro l
    induction l with
    | nil => rfl
    | cons c l ih =>
      rw [List.flatMap_cons, ← ih, SlotWalk.reach]
      by_cases hc : c.hops < maxDepth
      · rw [List.filter_cons_of_pos (by simpa using hc), List.flatMap_cons, if_pos hc]
      · rw [List.filter_cons_of_neg (by simpa using hc), if_neg hc, List.nil_append]
  rw [SlotWalk.discovered, ← hreach, ← hclaimants, ← flatten_levels_eq]
  rfl

end Claim

namespace SlotWalk

/-! ### All rounds -/

variable (index : Index) (maxDepth : ℕ) (selected : Entity)

/-- As long as there are claims left, each round has its slot. -/
theorem rounds_under {k : ℕ} (hk : k ≤ (Claim.table index selected maxDepth).length) :
    ∃ done waiting seen labels, rounds index maxDepth selected k = under done waiting seen labels ∧
      Reached index maxDepth selected done waiting seen labels ∧ done.length = k ∧
      done.map Slot.claim ++ waiting <+: Claim.table index selected maxDepth := by
  have htable := Claim.table_eq_discovered index selected maxDepth
  induction k with
  | zero => exact ⟨[], [Claim.root selected], [selected.id], [], rfl, .start, rfl, _, rfl⟩
  | succ k ih =>
    obtain ⟨done, waiting, seen, labels, hwalk, hreached, hlength, hpre⟩ := ih (by omega)
    cases waiting with
    | nil =>
      -- nothing waits, so the table would be complete
      rw [List.append_nil] at hpre
      have hdone := hreached.claims
      rw [List.append_nil] at hdone
      have hall := eq_of_discovered htable (Claim.pairwise_hops_table index selected maxDepth) hpre hdone
      rw [← hall, List.length_map] at hk
      omega
    | cons c waiting =>
      refine ⟨_, _, _, _, ?_, hreached.round, ?_, ?_⟩
      · rw [rounds_succ, hwalk, round_under]
      · rw [List.length_append, hlength]
        rfl
      · have hnext := hreached.isPrefix_round htable hpre
        simpa [filled] using hnext

/-- After as many rounds as there are claims nothing waits, and the slots hold the claims. -/
theorem rounds_length_table :
    ∃ slots seen labels, rounds index maxDepth selected (Claim.table index selected maxDepth).length =
        under slots [] seen labels ∧
      Reached index maxDepth selected slots [] seen labels ∧
      slots.map Slot.claim = Claim.table index selected maxDepth := by
  obtain ⟨slots, waiting, seen, labels, hwalk, hreached, hlength, hpre⟩ :=
    rounds_under index maxDepth selected (Nat.le_refl _)
  have hle := hpre.length_le
  rw [List.length_append, List.length_map, hlength] at hle
  obtain rfl : waiting = [] := List.length_eq_zero_iff.1 (by omega)
  refine ⟨slots, seen, labels, hwalk, hreached, ?_⟩
  rw [List.append_nil] at hpre
  exact hpre.eq_of_length (by rw [List.length_map, hlength])

/-- Once nothing waits, nothing changes any more. -/
theorem rounds_of_le {n : ℕ} (hn : (Claim.table index selected maxDepth).length ≤ n) :
    rounds index maxDepth selected n =
      rounds index maxDepth selected (Claim.table index selected maxDepth).length := by
  obtain ⟨slots, seen, labels, hwalk, -⟩ := rounds_length_table index maxDepth selected
  obtain ⟨m, rfl⟩ := Nat.exists_eq_add_of_le hn
  rw [Nat.add_comm, rounds, Function.iterate_add_apply]
  apply Function.iterate_fixed
  rw [← rounds, hwalk]
  rfl

end SlotWalk

end CodeAtlas
