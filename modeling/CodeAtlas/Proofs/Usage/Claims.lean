import CodeAtlas.Proofs.Text.StableSort
import CodeAtlas.Proofs.Usage.Symbol
import CodeAtlas.Usage.Scan
import Mathlib.Data.List.Induction
import Mathlib.Data.List.Nodup

/-!
# Claiming columns

Rules claim columns of a line one after the other.  After each of them, no column is claimed twice and a column
belongs to the first rule that recognises the symbol there; `Claims` says so of the rules that have had their
turn, `Claims.claim` is the turn of one more rule, and `claims_foldl` that of any number of rules.

The rules that have a turn are those that can be made for the symbol.  Nothing is said of which these are: what
is claimed belongs to the first of them (`Hit.first?_of_mem_claimed`), and where all of them can be made, to the
first of all (`UsageRule.made_eq_all`).
-/

namespace CodeAtlas

namespace UsageRule

/-- Does the rule recognise the symbol at a column? -/
def recognises (rule : UsageRule) (symbol line : List Char) (column : ℕ) : Bool :=
  (rule.sites symbol line).any fun s => s.start.column = column

theorem recognises_iff {rule : UsageRule} {symbol line : List Char} {column : ℕ} :
    rule.recognises symbol line column = true ↔
      ∃ s ∈ rule.sites symbol line, s.start.column = column := by
  rw [recognises, List.any_eq_true]
  simp only [decide_eq_true_eq]

/-- What a rule recognises in the column of an occurrence is this occurrence. -/
theorem exists_match_of_recognises {rule : UsageRule} {symbol line : List Char} (hrule : rule ∈ all)
    {o : Occurrence line symbol} (h : rule.recognises symbol line o.column = true) :
    ∃ d s, s ∈ rule.frame.matchesAt (symbolMatcher symbol) d ∧ rule.accepts s = true ∧
      s.start = o.start ∧ s.stop = o.stop := by
  obtain ⟨s, hs, hcolumn⟩ := recognises_iff.1 h
  obtain ⟨o', hstart, -⟩ := exists_occurrence_of_mem_sites hrule hs
  have ho : o' = o := by
    apply Occurrence.eq_of_column_eq
    rw [← hcolumn, hstart, o'.column_start]
  rw [ho] at hstart
  obtain ⟨hs, haccepts⟩ := List.mem_filter.1 hs
  obtain ⟨d, -, hmatch⟩ := Frame.exists_place_of_mem_sites hs
  have hreads := (mem_symbolMatcher.1 (Frame.mem_matchesAt.1 hmatch).2.1).1
  rw [hstart] at hreads
  exact ⟨d, s, hmatch, haccepts, hstart, hreads.unique o.start_reads⟩

/-- The rules for imports. -/
def imports : List UsageRule := [namedImport, wholeImport, requiredImport, fromImport, useImport]

/-- The rules for exports. -/
def exports : List UsageRule := [namedExport, defaultExport, assignedExport]

/-- The rules for everything else. -/
def references : List UsageRule := [construction, memberCall, memberRead, bareCall, mention]

theorem all_eq : all = imports ++ (exports ++ references) := rfl

/-- All rules can be made for the symbol. -/
def AllFit (fits : Capacity) (symbol : List Char) : Prop := ∀ rule ∈ all, fits rule symbol = true

theorem mem_made {fits : Capacity} {symbol : List Char} {rule : UsageRule} :
    rule ∈ made fits symbol ↔ rule ∈ all ∧ fits rule symbol = true :=
  List.mem_filter

theorem made_eq_all {fits : Capacity} {symbol : List Char} (h : AllFit fits symbol) : made fits symbol = all :=
  List.filter_eq_self.2 h

/-- The first rule that can be made for the symbol and recognises it at a column. -/
def first? (fits : Capacity) (symbol line : List Char) (column : ℕ) : Option UsageRule :=
  (made fits symbol).find? fun rule => rule.recognises symbol line column

end UsageRule

/-! ### Claims -/

namespace Hit

variable {symbol line : List Char}

/-- The rule that a column belongs to. -/
def ruleAt? (claimed : List Hit) (column : ℕ) : Option UsageRule :=
  (claimed.find? fun h => h.column = column).map Hit.rule

/-- What holds of the claims when some rules have had their turn. -/
structure Claims (symbol line : List Char) (rules : List UsageRule) (claimed : List Hit) : Prop where
  made : ∀ h ∈ claimed, h.rule ∈ rules ∧ h.site ∈ h.rule.sites symbol line
  distinct : claimed.Pairwise fun h h' => h.column ≠ h'.column
  first : ∀ column, ruleAt? claimed column = rules.find? fun rule => rule.recognises symbol line column

theorem mem_claim {claimed : List Hit} {rule : UsageRule} {h : Hit} :
    h ∈ claim symbol line claimed rule ↔
      h ∈ claimed ∨ (∃ s ∈ rule.sites symbol line, of rule s = h) ∧ ∀ h' ∈ claimed, h'.column ≠ h.column := by
  simp [claim]

theorem find?_new {rule : UsageRule} {column : ℕ} :
    ((((rule.sites symbol line).map (of rule)).find? fun h => h.column = column).map Hit.rule) =
      if rule.recognises symbol line column then some rule else none := by
  rw [List.find?_map, Option.map_map]
  cases hfind : (rule.sites symbol line).find? ((fun h => decide (h.column = column)) ∘ of rule) with
  | none =>
    rw [if_neg]
    · rfl
    · rw [UsageRule.recognises_iff]
      intro ⟨s, hs, hcolumn⟩
      exact List.find?_eq_none.1 hfind s hs (decide_eq_true hcolumn)
  | some s =>
    have hcolumn := List.find?_some hfind
    rw [if_pos]
    · rfl
    · rw [UsageRule.recognises_iff]
      exact ⟨s, List.mem_of_find?_eq_some hfind, of_decide_eq_true hcolumn⟩

theorem ruleAt?_claim (claimed : List Hit) (rule : UsageRule) (column : ℕ) :
    ruleAt? (claim symbol line claimed rule) column =
      (ruleAt? claimed column).or (if rule.recognises symbol line column then some rule else none) := by
  rw [ruleAt?, ruleAt?, claim, List.find?_append]
  cases hfind : claimed.find? fun h => decide (h.column = column) with
  | some h => rfl
  | none =>
    -- nobody has claimed the column, so no site of the rule there is left out
    rw [Option.none_or, Option.map_none, Option.none_or, ← find?_new, List.find?_filter]
    congr 2
    funext h
    by_cases hcolumn : h.column = column
    · have hfree : (claimed.any fun h' => decide (h'.column = h.column)) = false := by
        rw [List.any_eq_false, hcolumn]
        exact List.find?_eq_none.1 hfind
      simp [hfree]
    · simp [hcolumn]

/-- The turn of one more rule. -/
theorem Claims.claim {rules : List UsageRule} {claimed : List Hit} (h : Claims symbol line rules claimed)
    {rule : UsageRule}
    (hsites : (rule.sites symbol line).Pairwise fun s t => s.start.column < t.start.column) :
    Claims symbol line (rules ++ [rule]) (Hit.claim symbol line claimed rule) where
  made := by
    intro hit hhit
    rcases mem_claim.1 hhit with hhit | ⟨⟨s, hs, hof⟩, -⟩
    · obtain ⟨hrule, hsite⟩ := h.made hit hhit
      exact ⟨List.mem_append_left _ hrule, hsite⟩
    · rw [← hof]
      exact ⟨List.mem_append_right _ (List.mem_singleton_self rule), hs⟩
  distinct := by
    refine List.pairwise_append.2 ⟨h.distinct, ?_, ?_⟩
    · refine (List.pairwise_map.2 (hsites.imp ?_)).filter _
      intro s t hst
      exact Nat.ne_of_lt hst
    · intro hit hhit new hnew
      have hfree := (List.mem_filter.1 hnew).2
      simp only [Bool.not_eq_true', List.any_eq_false, decide_eq_true_eq] at hfree
      exact hfree hit hhit
  first := by
    intro column
    rw [ruleAt?_claim, h.first, List.find?_append, List.find?_singleton]

theorem claims_foldl {rules : List UsageRule}
    (hsites : ∀ rule ∈ rules,
      (rule.sites symbol line).Pairwise fun s t => s.start.column < t.start.column) :
    Claims symbol line rules (claimed rules symbol line) := by
  rw [claimed]
  induction rules using List.reverseRecOn with
  | nil => exact ⟨List.forall_mem_nil _, List.Pairwise.nil, fun _ => rfl⟩
  | append_singleton rules rule ih =>
    rw [List.foldl_append]
    apply (ih ?_).claim
    · exact hsites rule (List.mem_append_right _ (List.mem_singleton_self rule))
    · intro rule' hrule'
      exact hsites rule' (List.mem_append_left _ hrule')

/-! ### What is found on a line -/

/-- The hits on a line in the order of columns. -/
def inOrder (rules : List UsageRule) (symbol line : List Char) : List Hit :=
  (claimed rules symbol line).mergeSort fun a b => decide (a.column ≤ b.column)

theorem inOrder_perm (rules : List UsageRule) (symbol line : List Char) :
    (inOrder rules symbol line).Perm (claimed rules symbol line) :=
  List.mergeSort_perm _ _

theorem claim_nil (symbol : List Char) (rule : UsageRule) : claim symbol [] [] rule = [] := rfl

/-- There is nothing on an empty line. -/
theorem claimed_nil (rules : List UsageRule) (symbol : List Char) : claimed rules symbol [] = [] := by
  rw [claimed]
  induction rules with
  | nil => rfl
  | cons rule rules ih =>
    rw [List.foldl_cons, claim_nil]
    exact ih

section

variable {fits : UsageRule.Capacity} (hsymbol : symbol ≠ [])
include hsymbol

theorem claims_made (fits : UsageRule.Capacity) (line : List Char) :
    Claims symbol line (UsageRule.made fits symbol) (claimed (UsageRule.made fits symbol) symbol line) :=
  claims_foldl fun _ hrule => UsageRule.pairwise_sites (UsageRule.mem_made.1 hrule).1 hsymbol line

theorem made_of_mem_claimed {h : Hit} (hmem : h ∈ claimed (UsageRule.made fits symbol) symbol line) :
    h.rule ∈ UsageRule.all ∧ h.site ∈ h.rule.sites symbol line := by
  obtain ⟨hrule, hsite⟩ := (claims_made hsymbol fits line).made h hmem
  exact ⟨(UsageRule.mem_made.1 hrule).1, hsite⟩

/-- A hit is an occurrence of the symbol with its edges. -/
theorem exists_occurrence_of_mem_claimed {h : Hit}
    (hmem : h ∈ claimed (UsageRule.made fits symbol) symbol line) :
    ∃ o : Occurrence line symbol, h.column = o.column ∧ o.stop ∈ symbolMatcher symbol o.start := by
  obtain ⟨hrule, hsite⟩ := made_of_mem_claimed hsymbol hmem
  obtain ⟨o, hstart, hmatch⟩ := UsageRule.exists_occurrence_of_mem_sites hrule hsite
  refine ⟨o, ?_, hmatch⟩
  rw [h.column_eq, hstart, o.column_start]

/-- On a line without the symbol there is nothing to claim. -/
theorem infix_of_mem_claimed {h : Hit} (hmem : h ∈ claimed (UsageRule.made fits symbol) symbol line) :
    symbol <:+: line := by
  obtain ⟨o, -⟩ := exists_occurrence_of_mem_claimed hsymbol hmem
  exact ⟨o.before, o.after, o.line_eq.symm⟩

/-- Columns go up from hit to hit. -/
theorem pairwise_inOrder (fits : UsageRule.Capacity) (line : List Char) :
    (inOrder (UsageRule.made fits symbol) symbol line).Pairwise fun h h' => h.column < h'.column := by
  have hdistinct : (inOrder (UsageRule.made fits symbol) symbol line).Pairwise
      fun h h' => h.column ≠ h'.column :=
    ((claims_made hsymbol fits line).distinct).perm (inOrder_perm _ _ _).symm fun hne => Ne.symm hne
  have hsorted : (inOrder (UsageRule.made fits symbol) symbol line).Pairwise
      fun h h' => h.column ≤ h'.column := by
    refine (List.pairwise_mergeSort ?_ ?_ _).imp of_decide_eq_true
    · intro a b c hab hbc
      exact decide_eq_true (Nat.le_trans (of_decide_eq_true hab) (of_decide_eq_true hbc))
    · intro a b
      simp [Nat.le_total]
  exact hdistinct.imp₂ (fun h h' hne hle => Nat.lt_of_le_of_ne hle hne) hsorted

/-- A hit is there for the first rule that recognises the symbol in its column. -/
theorem first?_of_mem_claimed {h : Hit} (hmem : h ∈ claimed (UsageRule.made fits symbol) symbol line) :
    UsageRule.first? fits symbol line h.column = some h.rule := by
  have hclaims := claims_made hsymbol fits line
  rw [UsageRule.first?, ← hclaims.first, ruleAt?]
  cases hfind : (claimed (UsageRule.made fits symbol) symbol line).find? fun h' => h'.column = h.column with
  | none => exact absurd (decide_eq_true rfl) (List.find?_eq_none.1 hfind h hmem)
  | some h' =>
    have hcolumn := List.find?_some hfind
    have hnodup : ((claimed (UsageRule.made fits symbol) symbol line).map Hit.column).Nodup :=
      List.pairwise_map.2 hclaims.distinct
    rw [List.inj_on_of_nodup_map hnodup (List.mem_of_find?_eq_some hfind) hmem (of_decide_eq_true hcolumn)]
    rfl

theorem exists_mem_claimed {column : ℕ} {rule : UsageRule}
    (hfirst : UsageRule.first? fits symbol line column = some rule) :
    ∃ h ∈ claimed (UsageRule.made fits symbol) symbol line, h.column = column ∧ h.rule = rule := by
  rw [UsageRule.first?, ← (claims_made hsymbol fits line).first, ruleAt?, Option.map_eq_some_iff] at hfirst
  obtain ⟨h, hfind, hrule⟩ := hfirst
  have hcolumn := List.find?_some hfind
  exact ⟨h, List.mem_of_find?_eq_some hfind, of_decide_eq_true hcolumn, hrule⟩

end

end Hit

end CodeAtlas
