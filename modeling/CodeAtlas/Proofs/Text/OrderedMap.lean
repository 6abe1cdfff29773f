import CodeAtlas.Text.Sorted
import Mathlib.Data.List.Induction

/-!
# Entries in the order of their keys

A list whose entries strictly increase in their keys serves as a map, and a strictly increasing list of texts as a
set.  Both are filled one entry at a time.  What comes of it is said without the order of filling: each key once,
in increasing order, with what the items of that key make of a fresh entry (`foldl_upsert`).

The keys are looked at apart.  Among them an entry is a text that is inserted, and inserting one more text is
what `distinctSorted` does with it at the end of its list (`insertText_distinctSorted`).
-/

namespace CodeAtlas.Text

variable {α ι : Type}

/-- Change the entry with the key of `fresh`.  If there is none, `fresh` takes its place first. -/
def upsert (key : α → String) (fresh : α) (change : α → α) : List α → List α
  | [] => [change fresh]
  | a :: rest =>
    if key fresh < key a then change fresh :: a :: rest
    else if key fresh = key a then change a :: rest
    else a :: upsert key fresh change rest

/-- Put a text in its place unless it is there. -/
def insertText (text : String) (l : List String) : List String := upsert id text id l

theorem insertText_cons (text k : String) (keys : List String) :
    insertText text (k :: keys) =
      if text < k then text :: k :: keys
      else if text = k then k :: keys
      else k :: insertText text keys := rfl

theorem mem_insertText {text b : String} {l : List String} : b ∈ insertText text l ↔ b = text ∨ b ∈ l := by
  induction l with
  | nil => exact List.mem_cons
  | cons k keys ih =>
    rw [insertText_cons]
    split
    · exact List.mem_cons
    · split
      · rename_i heq
        rw [heq, List.mem_cons]
        tauto
      · rw [List.mem_cons, ih, List.mem_cons]
        tauto

theorem pairwise_insertText {text : String} {l : List String} (h : l.Pairwise (· < ·)) :
    (insertText text l).Pairwise (· < ·) := by
  induction l with
  | nil => exact List.pairwise_singleton _ _
  | cons k keys ih =>
    obtain ⟨hk, hkeys⟩ := List.pairwise_cons.1 h
    rw [insertText_cons]
    split
    · rename_i hlt
      refine List.pairwise_cons.2 ⟨?_, h⟩
      intro b hb
      rcases List.mem_cons.1 hb with rfl | hb
      · exact hlt
      · exact String.lt_trans hlt (hk b hb)
    · rename_i hnlt
      split
      · exact h
      · rename_i hne
        refine List.pairwise_cons.2 ⟨?_, ih hkeys⟩
        intro b hb
        rcases mem_insertText.1 hb with rfl | hb
        · exact String.not_le.1 fun hle => hne (String.le_antisymm hle (String.not_lt.1 hnlt))
        · exact hk b hb

/-- Strictly increasing lists with the same members are equal. -/
theorem eq_of_increasing {l l' : List String} (hl : l.Pairwise (· < ·)) (hl' : l'.Pairwise (· < ·))
    (h : ∀ b, b ∈ l ↔ b ∈ l') : l = l' := by
  have hnodup : ∀ {m : List String}, m.Pairwise (· < ·) → m.Nodup := by
    intro m hm
    refine hm.imp ?_
    rintro a b hab rfl
    exact String.lt_irrefl a hab
  refine List.Perm.eq_of_pairwise ?_ hl hl' ((List.perm_ext_iff_of_nodup (hnodup hl) (hnodup hl')).2 h)
  intro a b _ _ hab hba
  exact absurd (String.lt_trans hab hba) (String.lt_irrefl a)

theorem insertText_distinctSorted (text : String) (l : List String) :
    insertText text (distinctSorted l) = distinctSorted (l ++ [text]) := by
  refine eq_of_increasing (pairwise_insertText (pairwise_distinctSorted l)) (pairwise_distinctSorted _) ?_
  intro b
  rw [mem_insertText, mem_distinctSorted, mem_distinctSorted, List.mem_append, List.mem_singleton, or_comm]

/-- Inserting texts one after the other. -/
theorem foldl_insertText (l new : List String) :
    new.foldl (fun texts text => insertText text texts) (distinctSorted l) = distinctSorted (l ++ new) := by
  induction new generalizing l with
  | nil => rw [List.append_nil]; rfl
  | cons text new ih => rw [List.foldl_cons, insertText_distinctSorted, ih, List.append_assoc]; rfl

/-! ### Entries -/

/-- Seen along the keys, one entry is changed or added. -/
theorem upsert_map {key : α → String} {f : String → α} (hf : ∀ k, key (f k) = k) (fresh : α) (change : α → α)
    {keys : List String} (hkeys : keys.Pairwise (· < ·)) :
    upsert key fresh change (keys.map f) =
      (insertText (key fresh) keys).map fun k =>
        if k = key fresh then change (if k ∈ keys then f k else fresh) else f k := by
  induction keys with
  | nil => simp [insertText, upsert]
  | cons k keys ih =>
    obtain ⟨hk, hrest⟩ := List.pairwise_cons.1 hkeys
    -- below a key that is less than all others nothing changes
    have hsame : ∀ b, (∀ k' ∈ keys, b ≠ k') → ∀ g : String → α,
        (keys.map fun k' => if k' = b then g k' else f k') = keys.map f := fun b hb g =>
      List.map_congr_left fun k' hk' => if_neg (hb k' hk').symm
    rw [List.map_cons, upsert, insertText_cons, hf]
    split
    · rename_i hlt
      have hnot : ∀ k' ∈ keys, key fresh ≠ k' := fun k' hk' heq =>
        String.lt_irrefl k' (String.lt_trans (heq ▸ hlt) (hk k' hk'))
      have hne : key fresh ≠ k := fun heq => String.lt_irrefl k (heq ▸ hlt)
      have hmem : key fresh ∉ k :: keys := by
        rw [List.mem_cons]
        exact fun h => h.elim hne fun h => hnot _ h rfl
      rw [List.map_cons, List.map_cons, hsame _ hnot, if_pos rfl, if_neg hmem, if_neg hne.symm]
    · rename_i hnlt
      split
      · rename_i heq
        have hnot : ∀ k' ∈ keys, key fresh ≠ k' := fun k' hk' h =>
          String.lt_irrefl k' (by simpa [← heq, h] using hk k' hk')
        rw [List.map_cons, hsame _ hnot, if_pos heq.symm, if_pos List.mem_cons_self]
      · rename_i hne
        rw [List.map_cons, if_neg (Ne.symm hne), ih hrest]
        congr 1
        refine List.map_congr_left fun k' _ => ?_
        by_cases hk' : k' = key fresh
        · have hmem : k' ∈ k :: keys ↔ k' ∈ keys := by
            rw [List.mem_cons, hk']
            exact or_iff_right hne
          simp only [if_pos hk', hmem]
        · rw [if_neg hk', if_neg hk']

theorem key_foldl {key : α → String} {step : ι → α → α} (hstep : ∀ i a, key (step i a) = key a) (l : List ι)
    (a : α) : key (l.foldl (fun a i => step i a) a) = key a := by
  induction l generalizing a with
  | nil => rfl
  | cons i l ih => exact (ih _).trans (hstep i a)

theorem filter_name_eq_nil {name : ι → String} {items : List ι} {k : String}
    (h : k ∉ distinctSorted (items.map name)) : (items.filter fun i => name i = k) = [] := by
  refine List.filter_eq_nil_iff.2 fun i hi heq => h ?_
  rw [mem_distinctSorted, ← of_decide_eq_true heq]
  exact List.mem_map_of_mem hi

/-- **Filling a map.**  Each key has the entry that the items of this key make, one after the other, of a fresh
one. -/
theorem foldl_upsert {key : α → String} {name : ι → String} {fresh : String → α} {step : ι → α → α}
    (hfresh : ∀ k, key (fresh k) = k) (hstep : ∀ i a, key (step i a) = key a) (items : List ι) :
    items.foldl (fun entries i => upsert key (fresh (name i)) (step i) entries) [] =
      (distinctSorted (items.map name)).map fun k =>
        (items.filter fun i => name i = k).foldl (fun a i => step i a) (fresh k) := by
  induction items using List.reverseRecOn with
  | nil => simp [distinctSorted, distinct, sortOn]
  | append_singleton items i ih =>
    rw [List.foldl_append, List.foldl_cons, List.foldl_nil, ih,
      upsert_map (fun k => (key_foldl hstep _ _).trans (hfresh k)) _ _ (pairwise_distinctSorted _), hfresh,
      insertText_distinctSorted, List.map_append, List.map_singleton]
    refine List.map_congr_left fun k _ => ?_
    rw [List.filter_append]
    by_cases hk : k = name i
    · subst hk
      rw [if_pos rfl, List.filter_cons_of_pos (by simp), List.filter_nil, List.foldl_append]
      by_cases hmem : name i ∈ distinctSorted (items.map name)
      · rw [if_pos hmem]
        rfl
      · rw [if_neg hmem, filter_name_eq_nil hmem]
        rfl
    · rw [if_neg hk, List.filter_cons_of_neg (by simpa using Ne.symm hk), List.filter_nil, List.append_nil]

end CodeAtlas.Text
