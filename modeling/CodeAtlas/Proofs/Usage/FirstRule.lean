import CodeAtlas.Proofs.Usage.LineByLine

/-!
# The first rule decides

On a line a column belongs to the first rule that recognises the symbol there.  For a whole text this settles
what is reported at a place: nothing if no rule recognises the symbol there, and otherwise one usage, of the kind
of the first rule that does (`Usage.map_kind_reportedAt`).
-/

namespace CodeAtlas

/-! ### What is found in a text -/

namespace Usage

/-- The usage that a hit on the line at an index stands for, without its window and its scope. -/
def ofHit (index : ℕ) (line : List Char) (h : Hit) : Usage :=
  { line := index + 1
    column := h.column
    kind := h.rule.kind
    context := String.ofList (Text.trim line)
    fullContext := ""
    scope := none
    pattern := UsagePattern.describe h.rule.kind h.rule.label line h.site }

theorem map_alone_find_eq {symbol : String} (hsymbol : Text.isBlankText symbol = false)
    (fits : UsageRule.Capacity) (source : String) :
    (find fits source symbol).map alone =
      (Text.lines source.toList).zipIdx.flatMap fun x =>
        (Hit.inOrder (UsageRule.made fits symbol.toList) symbol.toList x.1).map (ofHit x.2 x.1) := by
  have hbare : (find fits source symbol).map alone = ((find fits source symbol).map bare).map alone := by
    rw [List.map_map]
    rfl
  rw [hbare, map_bare_find hsymbol, map_alone_scan]
  apply List.flatMap_congr
  intro x _
  rw [bareOnLine, inOrder, List.map_map, List.map_map]
  apply List.map_congr_left
  intro h _
  simp [atHit, below, bare, alone, ofHit, Nat.add_comm]

variable {fits : UsageRule.Capacity} {source symbol : String}

theorem exists_hit_of_mem_find {u : Usage} (hu : u ∈ find fits source symbol) :
    Text.isBlankText symbol = false ∧ ∃ index line h, (Text.lines source.toList)[index]? = some line ∧
      h ∈ Hit.claimed (UsageRule.made fits symbol.toList) symbol.toList line ∧ u.alone = ofHit index line h := by
  cases hsymbol : Text.isBlankText symbol with
  | true =>
    rw [find_of_blank hsymbol] at hu
    cases hu
  | false =>
    refine ⟨rfl, ?_⟩
    have halone : u.alone ∈ (find fits source symbol).map alone := List.mem_map_of_mem hu
    rw [map_alone_find_eq hsymbol] at halone
    obtain ⟨⟨line, index⟩, hx, hmem⟩ := List.mem_flatMap.1 halone
    obtain ⟨h, hh, hu⟩ := List.mem_map.1 hmem
    exact ⟨index, line, h, List.mem_zipIdx_iff_getElem?.1 hx, (Hit.inOrder_perm _ _ _).mem_iff.1 hh, hu.symm⟩

theorem exists_mem_find {index : ℕ} {line : List Char} {h : Hit}
    (hsymbol : Text.isBlankText symbol = false) (hline : (Text.lines source.toList)[index]? = some line)
    (hh : h ∈ Hit.claimed (UsageRule.made fits symbol.toList) symbol.toList line) :
    ∃ u ∈ find fits source symbol, u.alone = ofHit index line h := by
  have halone : ofHit index line h ∈ (find fits source symbol).map alone := by
    rw [map_alone_find_eq hsymbol]
    exact List.mem_flatMap.2 ⟨(line, index), List.mem_zipIdx_iff_getElem?.2 hline,
      List.mem_map_of_mem ((Hit.inOrder_perm _ _ _).mem_iff.2 hh)⟩
  exact List.mem_map.1 halone

/-! ### What is reported at a place -/

/-- The usages reported at a place of a text. -/
def reportedAt (fits : UsageRule.Capacity) (source symbol : String) (line column : ℕ) : List Usage :=
  (find fits source symbol).filter fun u => u.line = line && u.column = column

theorem mem_reportedAt {line column : ℕ} {u : Usage} :
    u ∈ reportedAt fits source symbol line column ↔
      u ∈ find fits source symbol ∧ u.line = line ∧ u.column = column := by
  simp [reportedAt]

/-- No place is reported twice. -/
theorem length_reportedAt_le (fits : UsageRule.Capacity) (source symbol : String) (line column : ℕ) :
    (reportedAt fits source symbol line column).length ≤ 1 := by
  have hpairwise : (reportedAt fits source symbol line column).Pairwise Before :=
    (pairwise_find fits source symbol).filter _
  match hreported : reportedAt fits source symbol line column, hpairwise with
  | [], _ => exact Nat.zero_le 1
  | [u], _ => exact Nat.le_refl 1
  | u :: v :: rest, hpairwise =>
    have hbefore : Before u v := (List.pairwise_cons.1 hpairwise).1 v List.mem_cons_self
    have hu : u ∈ reportedAt fits source symbol line column := by
      rw [hreported]
      exact List.mem_cons_self
    have hv : v ∈ reportedAt fits source symbol line column := by
      rw [hreported]
      exact List.mem_cons_of_mem u List.mem_cons_self
    obtain ⟨-, hline, hcolumn⟩ := mem_reportedAt.1 hu
    obtain ⟨-, hline', hcolumn'⟩ := mem_reportedAt.1 hv
    rcases hbefore with hlt | ⟨-, hlt⟩ <;> omega

/-- A usage at a place is made by the first rule that recognises the symbol there. -/
theorem exists_first_of_mem_reportedAt {index column : ℕ} {line : List Char}
    (hline : (Text.lines source.toList)[index]? = some line) {u : Usage}
    (hu : u ∈ reportedAt fits source symbol (index + 1) column) :
    ∃ h ∈ Hit.claimed (UsageRule.made fits symbol.toList) symbol.toList line, u.alone = ofHit index line h ∧
      UsageRule.first? fits symbol.toList line column = some h.rule := by
  obtain ⟨hfind, hindex, hcolumn⟩ := mem_reportedAt.1 hu
  obtain ⟨hsymbol, index', line', h, hline', hh, halone⟩ := exists_hit_of_mem_find hfind
  have hindex' : u.line = index' + 1 := congrArg Usage.line halone
  obtain rfl : index' = index := by omega
  obtain rfl : line' = line := Option.some.inj (hline'.symm.trans hline)
  have hfirst := Hit.first?_of_mem_claimed (toList_ne_nil hsymbol) hh
  rw [show h.column = column from (congrArg Usage.column halone).symm.trans hcolumn] at hfirst
  exact ⟨h, hh, halone, hfirst⟩

/-- A place is reported, and reported once, if some rule recognises the symbol there; the first rule that does
decides the kind. -/
theorem map_kind_reportedAt {index : ℕ} {line : List Char} (hsymbol : Text.isBlankText symbol = false)
    (hline : (Text.lines source.toList)[index]? = some line) (column : ℕ) :
    (reportedAt fits source symbol (index + 1) column).map Usage.kind =
      ((UsageRule.first? fits symbol.toList line column).map UsageRule.kind).toList := by
  cases hfirst : UsageRule.first? fits symbol.toList line column with
  | none =>
    have hnone : reportedAt fits source symbol (index + 1) column = [] := by
      apply List.eq_nil_iff_forall_not_mem.2
      intro u hu
      obtain ⟨h, -, -, hsome⟩ := exists_first_of_mem_reportedAt hline hu
      rw [hfirst] at hsome
      cases hsome
    rw [hnone]
    rfl
  | some rule =>
    obtain ⟨h, hh, hcolumn, hrule⟩ := Hit.exists_mem_claimed (toList_ne_nil hsymbol) hfirst
    obtain ⟨u, hu, halone⟩ := exists_mem_find hsymbol hline hh
    have hmem : u ∈ reportedAt fits source symbol (index + 1) column := by
      refine mem_reportedAt.2 ⟨hu, congrArg Usage.line halone, ?_⟩
      exact (congrArg Usage.column halone).trans hcolumn
    have hsingle : reportedAt fits source symbol (index + 1) column = [u] := by
      obtain ⟨v, hv⟩ := List.length_eq_one_iff.1
        (Nat.le_antisymm (length_reportedAt_le fits source symbol (index + 1) column)
          (List.length_pos_of_mem hmem))
      rw [hv] at hmem ⊢
      rw [List.mem_singleton.1 hmem]
    have hkind : u.kind = rule.kind := (congrArg Usage.kind halone).trans (congrArg UsageRule.kind hrule)
    rw [hsingle, List.map_singleton, hkind]
    rfl

/-- Is the symbol reported with a kind at a place? -/
def ReportedAs (fits : UsageRule.Capacity) (source symbol : String) (line column : ℕ) (kind : UsageKind) :
    Prop :=
  ∃ u ∈ find fits source symbol, u.line = line ∧ u.column = column ∧ u.kind = kind

theorem reportedAs_iff_kind_first? {index column : ℕ} {line : List Char}
    (hsymbol : Text.isBlankText symbol = false) (hline : (Text.lines source.toList)[index]? = some line)
    {kind : UsageKind} :
    ReportedAs fits source symbol (index + 1) column kind ↔
      (UsageRule.first? fits symbol.toList line column).map UsageRule.kind = some kind := by
  rw [← Option.mem_toList.trans Option.mem_def, ← map_kind_reportedAt hsymbol hline, List.mem_map]
  constructor
  · rintro ⟨u, hu, hrow, hcolumn, hkind⟩
    exact ⟨u, mem_reportedAt.2 ⟨hu, hrow, hcolumn⟩, hkind⟩
  · rintro ⟨u, hu, hkind⟩
    obtain ⟨hu, hrow, hcolumn⟩ := mem_reportedAt.1 hu
    exact ⟨u, hu, hrow, hcolumn, hkind⟩

/-- If the rules of a kind follow each other, a place is reported with this kind exactly when one of them
recognises the symbol there and no rule before them does. -/
theorem reportedAs_iff {index column : ℕ} {line : List Char} (hsymbol : Text.isBlankText symbol = false)
    (hline : (Text.lines source.toList)[index]? = some line) {kind : UsageKind}
    {earlier chosen later : List UsageRule}
    (hall : UsageRule.made fits symbol.toList = earlier ++ (chosen ++ later))
    (hearlier : ∀ rule ∈ earlier, rule.kind ≠ kind) (hchosen : ∀ rule ∈ chosen, rule.kind = kind)
    (hlater : ∀ rule ∈ later, rule.kind ≠ kind) :
    ReportedAs fits source symbol (index + 1) column kind ↔
      (∀ rule ∈ earlier, rule.recognises symbol.toList line column = false) ∧
        ∃ rule ∈ chosen, rule.recognises symbol.toList line column = true := by
  rw [reportedAs_iff_kind_first? hsymbol hline, UsageRule.first?, hall, List.find?_append, List.find?_append]
  have hother : ∀ {rules : List UsageRule} {rule : UsageRule}, (∀ rule ∈ rules, rule.kind ≠ kind) →
      rules.find? (fun rule => rule.recognises symbol.toList line column) = some rule →
        ¬ (some rule).map UsageRule.kind = some kind := by
    intro rules rule hrules hfind hkind
    exact hrules rule (List.mem_of_find?_eq_some hfind) (Option.some.inj hkind)
  cases hfind : earlier.find? fun rule => rule.recognises symbol.toList line column with
  | some rule =>
    have hrecognises := List.find?_some hfind
    rw [Option.some_or]
    refine iff_of_false (hother hearlier hfind) ?_
    rintro ⟨hnone, -⟩
    exact Bool.false_ne_true ((hnone rule (List.mem_of_find?_eq_some hfind)).symm.trans hrecognises)
  | none =>
    have hnone : ∀ rule ∈ earlier, rule.recognises symbol.toList line column = false := by
      intro rule hrule
      exact Bool.eq_false_iff.2 (List.find?_eq_none.1 hfind rule hrule)
    rw [Option.none_or, and_iff_right hnone, ← List.find?_isSome]
    cases hfind' : chosen.find? fun rule => rule.recognises symbol.toList line column with
    | some rule =>
      rw [Option.some_or, Option.map_some, hchosen rule (List.mem_of_find?_eq_some hfind')]
      exact iff_of_true rfl rfl
    | none =>
      rw [Option.none_or]
      refine iff_of_false ?_ Bool.false_ne_true
      cases hfind'' : later.find? fun rule => rule.recognises symbol.toList line column with
      | some rule => exact hother hlater hfind''
      | none => exact (Option.some_ne_none kind).symm

theorem reportedAs_imported_iff {index column : ℕ} {line : List Char} (hsymbol : Text.isBlankText symbol = false)
    (hfits : UsageRule.AllFit fits symbol.toList) (hline : (Text.lines source.toList)[index]? = some line) :
    ReportedAs fits source symbol (index + 1) column .imported ↔
      ∃ rule ∈ UsageRule.imports, rule.recognises symbol.toList line column = true := by
  have hall : UsageRule.made fits symbol.toList = [] ++ (UsageRule.imports ++ _) := UsageRule.made_eq_all hfits
  rw [reportedAs_iff hsymbol hline hall (by decide) (by decide) (by decide)]
  exact and_iff_right (List.forall_mem_nil _)

theorem reportedAs_exported_iff {index column : ℕ} {line : List Char} (hsymbol : Text.isBlankText symbol = false)
    (hfits : UsageRule.AllFit fits symbol.toList) (hline : (Text.lines source.toList)[index]? = some line) :
    ReportedAs fits source symbol (index + 1) column .exported ↔
      (∀ rule ∈ UsageRule.imports, rule.recognises symbol.toList line column = false) ∧
        ∃ rule ∈ UsageRule.exports, rule.recognises symbol.toList line column = true :=
  reportedAs_iff hsymbol hline (UsageRule.made_eq_all hfits) (by decide) (by decide) (by decide)

theorem length_reportedAt_of_recognises {index column : ℕ} {line : List Char}
    (hsymbol : Text.isBlankText symbol = false) (hline : (Text.lines source.toList)[index]? = some line)
    {rule : UsageRule} (hrule : rule ∈ UsageRule.made fits symbol.toList)
    (hrecognises : rule.recognises symbol.toList line column = true) :
    (reportedAt fits source symbol (index + 1) column).length = 1 := by
  have hsome : (UsageRule.first? fits symbol.toList line column).isSome = true :=
    List.find?_isSome.2 ⟨rule, hrule, hrecognises⟩
  obtain ⟨first, hfirst⟩ := Option.isSome_iff_exists.1 hsome
  have hkinds : ((reportedAt fits source symbol (index + 1) column).map Usage.kind).length = _ :=
    congrArg List.length (map_kind_reportedAt hsymbol hline column)
  rw [List.length_map, hfirst] at hkinds
  exact hkinds

end Usage

end CodeAtlas
