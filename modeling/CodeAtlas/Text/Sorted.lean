/-!
# Sorted lists

Texts are ordered by code point. Sorting is stable, so that what compares equal stays in the order in
which it came. Main statement: `distinctSorted` lists exactly the texts it is given, each once, in
increasing order.
-/

namespace CodeAtlas.Text

/-- The list in the order of a text key; equal keys keep their order. -/
def sortOn {α : Type} (key : α → String) (l : List α) : List α :=
  l.mergeSort fun a b => decide (key a ≤ key b)

/-- Every member of the list once, in the order of first occurrence. -/
def distinct {α : Type} [DecidableEq α] : List α → List α
  | [] => []
  | a :: rest => a :: (distinct rest).filter fun b => b ≠ a

/-- Every text of the list once, in increasing order. -/
def distinctSorted (l : List String) : List String :=
  sortOn id (distinct l)

/-! ### Sorting -/

/-- Sorting permutes. -/
theorem sortOn_perm {α : Type} (key : α → String) (l : List α) : (sortOn key l).Perm l :=
  List.mergeSort_perm l _

@[simp] theorem mem_sortOn {α : Type} {key : α → String} {l : List α} {a : α} :
    a ∈ sortOn key l ↔ a ∈ l :=
  (sortOn_perm key l).mem_iff

@[simp] theorem length_sortOn {α : Type} {key : α → String} {l : List α} :
    (sortOn key l).length = l.length :=
  (sortOn_perm key l).length_eq

/-- A sorted list is in the order of its keys. -/
theorem pairwise_sortOn {α : Type} (key : α → String) (l : List α) :
    (sortOn key l).Pairwise fun a b => key a ≤ key b := by
  have h := @List.pairwise_mergeSort _ (fun a b => decide (key a ≤ key b))
    (fun a b c hab hbc => by
      simp only [decide_eq_true_eq] at hab hbc ⊢
      exact String.le_trans hab hbc)
    (fun a b => by simpa using String.le_total (key a) (key b)) l
  simpa [sortOn] using h

/-! ### Distinct members -/

@[simp] theorem mem_distinct {α : Type} [DecidableEq α] {l : List α} {a : α} :
    a ∈ distinct l ↔ a ∈ l := by
  induction l with
  | nil => simp [distinct]
  | cons b rest ih =>
    by_cases h : a = b
    · simp [distinct, h]
    · simp [distinct, h, ih]

theorem nodup_distinct {α : Type} [DecidableEq α] (l : List α) : (distinct l).Nodup := by
  induction l with
  | nil => simp [distinct]
  | cons b rest ih =>
    rw [distinct, List.nodup_cons]
    exact ⟨by simp, ih.filter _⟩

@[simp] theorem mem_distinctSorted {l : List String} {s : String} :
    s ∈ distinctSorted l ↔ s ∈ l := by
  simp [distinctSorted]

/-- The texts of `distinctSorted` strictly increase. -/
theorem pairwise_distinctSorted (l : List String) :
    (distinctSorted l).Pairwise (· < ·) := by
  have sorted := pairwise_sortOn id (distinct l)
  have nodup : (distinctSorted l).Nodup :=
    (sortOn_perm id (distinct l)).nodup_iff.2 (nodup_distinct l)
  refine (sorted.and nodup).imp ?_
  intro a b h
  exact String.not_le.1 fun hba => h.2 (String.le_antisymm h.1 hba)

end CodeAtlas.Text
