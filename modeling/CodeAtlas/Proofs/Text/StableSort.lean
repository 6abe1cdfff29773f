import CodeAtlas.Text.Sorted
import Mathlib.Data.List.Nodup

/-!
# Stable sorting

A merge sort keeps the order of what compares equal.  As a statement about the result alone: where the list
was in some order before, members that compare equal are still in that order afterwards.  So sorting by one
key a list that is sorted by another sorts by both keys, the last one first.

The order before counts for nothing where no two members compare equal (`filter_mergeSort_of_perm`,
`sortOn_of_perm`).  Where it counts, leaving out members does not disturb it (`mergeSort_filter`).

Where a list is in order, the places of its members are too, and conversely (`pairwise_idxOf`, `rel_of_idxOf_lt`).
-/

namespace CodeAtlas.Text

theorem pairwise_mergeSort_stable {α : Type} {le : α → α → Bool} {r : α → α → Prop}
    (htrans : ∀ a b c, le a b = true → le b c = true → le a c = true)
    (htotal : ∀ a b, (le a b || le b a) = true) {l : List α} (hl : l.Pairwise r) :
    (l.mergeSort le).Pairwise fun a b => le a b = true ∧ (le b a = true → r a b) := by
  induction l with
  | nil =>
    rw [List.mergeSort_nil]
    exact List.Pairwise.nil
  | cons a l ih =>
    obtain ⟨hal, hl⟩ := List.pairwise_cons.1 hl
    obtain ⟨l₁, l₂, hcons, hsplit, hbefore⟩ := List.mergeSort_cons htrans htotal a l
    have hsorted := List.pairwise_mergeSort htrans htotal (a :: l)
    have hrest := ih hl
    rw [hcons] at hsorted ⊢
    rw [hsplit] at hrest
    obtain ⟨h₁, h₂, h₁₂⟩ := List.pairwise_append.1 hrest
    obtain ⟨-, hs₂, hs₁⟩ := List.pairwise_append.1 hsorted
    refine List.pairwise_append.2 ⟨h₁, List.pairwise_cons.2 ⟨?_, h₂⟩, ?_⟩
    · -- `a` came first, so it comes before its equals
      intro b hb
      have hmem : b ∈ l := by
        apply (List.mergeSort_perm l le).subset
        rw [hsplit]
        exact List.mem_append_right _ hb
      exact ⟨(List.pairwise_cons.1 hs₂).1 b hb, fun _ => hal b hmem⟩
    · intro x hx y hy
      rcases List.mem_cons.1 hy with rfl | hy
      · refine ⟨hs₁ x hx y List.mem_cons_self, ?_⟩
        intro hle
        have hnot := hbefore x hx
        rw [hle] at hnot
        cases hnot
      · exact h₁₂ x hx y hy

/-- Sorting by a text key keeps the order before among equal keys. -/
theorem pairwise_sortOn_stable {α : Type} {key : α → String} {r : α → α → Prop} {l : List α} (hl : l.Pairwise r) :
    (sortOn key l).Pairwise fun a b => key a < key b ∨ key a = key b ∧ r a b := by
  have htrans : ∀ a b c : α, decide (key a ≤ key b) = true → decide (key b ≤ key c) = true →
      decide (key a ≤ key c) = true := by
    intro a b c hab hbc
    exact decide_eq_true (String.le_trans (of_decide_eq_true hab) (of_decide_eq_true hbc))
  have htotal : ∀ a b : α, (decide (key a ≤ key b) || decide (key b ≤ key a)) = true := by
    intro a b
    simpa using String.le_total (key a) (key b)
  refine (pairwise_mergeSort_stable htrans htotal hl).imp ?_
  intro a b ⟨hle, hstable⟩
  by_cases hlt : key a < key b
  · exact .inl hlt
  · have hge : key b ≤ key a := String.not_lt.1 hlt
    exact .inr ⟨String.le_antisymm (of_decide_eq_true hle) hge, hstable (decide_eq_true hge)⟩

/-! ### Lists in another order -/

/-- A list in strict order is what sorting makes of it in any other order. -/
theorem mergeSort_eq_of_strict {α : Type} {le : α → α → Bool}
    (htrans : ∀ a b c, le a b = true → le b c = true → le a c = true)
    (htotal : ∀ a b, (le a b || le b a) = true) {l l' : List α} (h : l.Perm l')
    (hstrict : l'.Pairwise fun a b => le a b = true ∧ le b a = false) : l.mergeSort le = l' := by
  have hperm : (l.mergeSort le).Perm l' := (List.mergeSort_perm l le).trans h
  refine List.Perm.eq_of_pairwise ?_ (List.pairwise_mergeSort htrans htotal l)
    (hstrict.imp And.left) hperm
  intro a b ha hb hab hba
  obtain ⟨i, hi, rfl⟩ := List.mem_iff_getElem.1 (hperm.mem_iff.1 ha)
  obtain ⟨j, hj, rfl⟩ := List.mem_iff_getElem.1 hb
  -- of two different places, the earlier one compares less and not equal
  rcases Nat.lt_trichotomy i j with hlt | rfl | hlt
  · have hnot := (List.pairwise_iff_getElem.1 hstrict i j hi hj hlt).2
    exact absurd (hnot.symm.trans hba) Bool.false_ne_true
  · rfl
  · have hnot := (List.pairwise_iff_getElem.1 hstrict j i hj hi hlt).2
    exact absurd (hnot.symm.trans hab) Bool.false_ne_true

/-- Sorting forgets the order of a list as far as different members never compare equal.  Only the members
that pass a test are looked at; the others may compare as they like. -/
theorem filter_mergeSort_of_perm {α : Type} {le : α → α → Bool}
    (htrans : ∀ a b c, le a b = true → le b c = true → le a c = true)
    (htotal : ∀ a b, (le a b || le b a) = true) {keep : α → Bool} {l l' : List α} (h : l.Perm l')
    (hanti : ∀ a ∈ l.filter keep, ∀ b ∈ l.filter keep, le a b = true → le b a = true → a = b) :
    (l.mergeSort le).filter keep = (l'.mergeSort le).filter keep := by
  have hsorted : ∀ m : List α, ((m.mergeSort le).filter keep).Pairwise fun a b => le a b = true := by
    intro m
    exact (List.pairwise_mergeSort htrans htotal m).filter keep
  have hperm : ∀ m : List α, ((m.mergeSort le).filter keep).Perm (m.filter keep) := by
    intro m
    exact (List.mergeSort_perm m le).filter keep
  refine List.Perm.eq_of_pairwise ?_ (hsorted l) (hsorted l') ?_
  · intro a b ha hb
    exact hanti a ((hperm l).subset ha) b ((h.filter keep).symm.subset ((hperm l').subset hb))
  · exact ((hperm l).trans (h.filter keep)).trans (hperm l').symm

theorem sortOn_of_perm {α : Type} {key : α → String} {l l' : List α} (h : l.Perm l')
    (hkey : ∀ a ∈ l, ∀ b ∈ l, key a = key b → a = b) : sortOn key l = sortOn key l' := by
  refine List.Perm.eq_of_pairwise ?_ (pairwise_sortOn key l) (pairwise_sortOn key l') ?_
  · intro a b ha hb hab hba
    exact hkey a (mem_sortOn.1 ha) b (h.symm.subset (mem_sortOn.1 hb)) (String.le_antisymm hab hba)
  · exact ((sortOn_perm key l).trans h).trans (sortOn_perm key l').symm

/-! ### Leaving out members -/

theorem takeWhile_of_cut {α : Type} {p : α → Bool} {l₁ l₂ : List α} (h₁ : ∀ b ∈ l₁, p b = true)
    (h₂ : ∀ b ∈ l₂, p b = false) : (l₁ ++ l₂).takeWhile p = l₁ := by
  rw [List.takeWhile_append_of_pos h₁]
  cases l₂ with
  | nil => simp
  | cons b l₂ => rw [List.takeWhile_cons_of_neg (by simp [h₂ b List.mem_cons_self]), List.append_nil]

/-- Members can be left out before sorting or afterwards. -/
theorem mergeSort_filter {α : Type} {le : α → α → Bool}
    (htrans : ∀ a b c, le a b = true → le b c = true → le a c = true)
    (htotal : ∀ a b, (le a b || le b a) = true) (keep : α → Bool) (l : List α) :
    (l.filter keep).mergeSort le = (l.mergeSort le).filter keep := by
  induction l with
  | nil => simp
  | cons a l ih =>
    obtain ⟨l₁, l₂, hcons, hsplit, hbefore⟩ := List.mergeSort_cons htrans htotal a l
    rw [hsplit, List.filter_append] at ih
    rw [hcons, List.filter_append]
    by_cases ha : keep a = true
    · rw [List.filter_cons_of_pos ha, List.filter_cons_of_pos ha]
      obtain ⟨m₁, m₂, hcons', hsplit', hbefore'⟩ := List.mergeSort_cons htrans htotal a (l.filter keep)
      have hsorted := List.pairwise_mergeSort htrans htotal (a :: l)
      have hsorted' := List.pairwise_mergeSort htrans htotal (a :: l.filter keep)
      rw [hcons] at hsorted
      rw [hcons'] at hsorted'
      -- `a` goes between what does not come after it and what does
      have hcut : (m₁ ++ m₂).takeWhile (fun b => !le a b) = m₁ :=
        takeWhile_of_cut hbefore' fun b hb => by
          simp [(List.pairwise_cons.1 (List.pairwise_append.1 hsorted').2.1).1 b hb]
      have hcut' : (l₁.filter keep ++ l₂.filter keep).takeWhile (fun b => !le a b) = l₁.filter keep :=
        takeWhile_of_cut (fun b hb => hbefore b (List.mem_filter.1 hb).1) fun b hb => by
          simp [(List.pairwise_cons.1 (List.pairwise_append.1 hsorted).2.1).1 b (List.mem_filter.1 hb).1]
      rw [← hsplit', ih, hcut'] at hcut
      rw [hcons', ← hcut]
      rw [hsplit', ← hcut] at ih
      rw [List.append_cancel_left ih]
    · rw [List.filter_cons_of_neg ha, List.filter_cons_of_neg ha, ih]

/-! ### Places in a list -/

theorem pairwise_zipIdx {α : Type} (l : List α) : l.zipIdx.Pairwise fun x y => x.2 < y.2 := by
  have hplaces : (l.zipIdx.map Prod.snd).Pairwise (· < ·) := by
    rw [List.zipIdx_map_snd]
    exact List.pairwise_lt_range'
  exact List.pairwise_map.1 hplaces

theorem pairwise_idxOf {α : Type} [DecidableEq α] {l : List α} (hl : l.Nodup) :
    l.Pairwise fun a b => l.idxOf a < l.idxOf b := by
  apply List.pairwise_iff_getElem.2
  intro i j hi hj hij
  rwa [hl.idxOf_getElem, hl.idxOf_getElem]

theorem rel_of_idxOf_lt {α : Type} [DecidableEq α] {r : α → α → Prop} {l : List α} (hl : l.Pairwise r) {a b : α}
    (hb : b ∈ l) (h : l.idxOf a < l.idxOf b) : r a b := by
  have hb' := List.idxOf_lt_length_of_mem hb
  have hrel := List.pairwise_iff_getElem.1 hl _ _ (Nat.lt_trans h hb') hb' h
  rwa [List.getElem_idxOf, List.getElem_idxOf] at hrel

end CodeAtlas.Text
