import CodeAtlas.Proofs.Text.Lines
import CodeAtlas.Proofs.Usage.Claims
import Mathlib.Data.List.Basic
import Mathlib.Data.List.Perm.Basic

/-!
# Scanning line by line

Rules see one line at a time.  What a scan passes over holds no occurrence of the symbol, and what is sorted in
the end was in order already but for the columns of a line.  So the usages are those of the lines, one line after
the other (`Usage.find_eq`).

What a scan carries from line to line is the number of the line and the scope opened last; the window around a
line is all that is taken from further down.  Without the window a scan is a recursion over the lines
(`Usage.scan`), and the text can be cut between any two lines:

* `Usage.scan_append` — the lower part is scanned from the number and the scope that the upper part leaves;
* `Usage.scan_below` — starting there changes only the numbers, and the scopes of usages that had none;
* `Usage.scope_of_mem_scan` — the scope of a usage is the nearest declaration above it;
* `Usage.map_alone_find` — apart from the scope, a usage is found in its line alone.
-/

namespace CodeAtlas

namespace Scope

/-- The declaration that is met first on the way up from the end of the lines. -/
def nearest (lines : List (List Char)) : Option String := lines.reverse.findSome? declared?

theorem nearest_cons (line : List Char) (rest : List (List Char)) :
    nearest (line :: rest) = (nearest rest <|> declared? line) := by
  rw [nearest, List.reverse_cons, List.findSome?_append, List.findSome?_singleton, ← nearest]
  cases nearest rest <;> rfl

end Scope

namespace Usage

/-! ### The usages in order -/

/-- One usage stands before another in a text. -/
def Before (u v : Usage) : Prop := u.line < v.line ∨ u.line = v.line ∧ u.column < v.column

theorem placeLe_iff {u v : Usage} : placeLe u v = true ↔ ¬ Before v u := by
  simp only [placeLe, Before, Bool.or_eq_true, Bool.and_eq_true, decide_eq_true_eq]
  omega

theorem placeLe_trans (u v w : Usage) (huv : placeLe u v = true) (hvw : placeLe v w = true) :
    placeLe u w = true := by
  rw [placeLe_iff, Before] at huv hvw ⊢
  omega

theorem placeLe_total (u v : Usage) : (placeLe u v || placeLe v u) = true := by
  rw [Bool.or_eq_true, placeLe_iff, placeLe_iff, Before, Before]
  omega

/-- The usages on the line at an index, in the order of columns. -/
def inOrder (rules : List UsageRule) (symbol : List Char) (lines : List (List Char)) (index : ℕ)
    (scope : Option String) (line : List Char) : List Usage :=
  (Hit.inOrder rules symbol line).map (atHit lines index scope line)

/-- The usages in a text, line by line. -/
def inLines (rules : List UsageRule) (symbol : List Char) (lines : List (List Char)) : List Usage :=
  (lines.zipIdx.zip (Scope.ofLines none lines)).flatMap fun x => inOrder rules symbol lines x.1.2 x.2 x.1.1

theorem toList_ne_nil {symbol : String} (hsymbol : Text.isBlankText symbol = false) : symbol.toList ≠ [] := by
  intro hnil
  rw [Text.isBlankText, hnil] at hsymbol
  cases hsymbol

section

variable {fits : UsageRule.Capacity} {symbol : List Char} (hsymbol : symbol ≠ [])
include hsymbol

/-- Passing over a line without the symbol loses nothing. -/
theorem onLine_perm (fits : UsageRule.Capacity) (lines : List (List Char)) (index : ℕ) (scope : Option String)
    (line : List Char) :
    (onLine (UsageRule.made fits symbol) symbol lines index scope line).Perm
      (inOrder (UsageRule.made fits symbol) symbol lines index scope line) := by
  have hperm := ((Hit.inOrder_perm (UsageRule.made fits symbol) symbol line).map (atHit lines index scope line)).symm
  rw [onLine]
  split
  · exact hperm
  · rename_i hcontains
    have hnone : Hit.claimed (UsageRule.made fits symbol) symbol line = [] := by
      apply List.eq_nil_iff_forall_not_mem.2
      intro h hmem
      exact hcontains (Text.contains_iff.2 (Hit.infix_of_mem_claimed hsymbol hmem))
    rw [hnone] at hperm
    exact hperm

theorem pairwise_inLines (fits : UsageRule.Capacity) (lines : List (List Char)) :
    (inLines (UsageRule.made fits symbol) symbol lines).Pairwise Before := by
  rw [inLines, List.pairwise_flatMap]
  constructor
  · intro x _
    refine List.pairwise_map.2 ((Hit.pairwise_inOrder hsymbol fits x.1.1).imp ?_)
    intro h h' hlt
    exact .inr ⟨rfl, hlt⟩
  · rw [List.pairwise_iff_getElem]
    intro i j hi hj hij u hu v hv
    obtain ⟨h, -, rfl⟩ := List.mem_map.1 hu
    obtain ⟨h', -, rfl⟩ := List.mem_map.1 hv
    refine .inl ?_
    simp only [List.getElem_zip, List.getElem_zipIdx, atHit]
    omega

theorem infix_of_mem_inLines {lines : List (List Char)} {u : Usage}
    (hu : u ∈ inLines (UsageRule.made fits symbol) symbol lines) : ∃ line ∈ lines, symbol <:+: line := by
  obtain ⟨⟨⟨line, index⟩, scope⟩, hx, hmem⟩ := List.mem_flatMap.1 hu
  obtain ⟨h, hh, -⟩ := List.mem_map.1 hmem
  refine ⟨line, List.fst_mem_of_mem_zipIdx (List.of_mem_zip hx).1, ?_⟩
  exact Hit.infix_of_mem_claimed hsymbol ((Hit.inOrder_perm _ _ _).mem_iff.1 hh)

end

/-- The usages in a text are those of its lines, one line after the other. -/
theorem find_eq {symbol : String} (hsymbol : Text.isBlankText symbol = false) (fits : UsageRule.Capacity)
    (source : String) :
    find fits source symbol =
      inLines (UsageRule.made fits symbol.toList) symbol.toList (Text.lines source.toList) := by
  have hne := toList_ne_nil hsymbol
  rw [find, hsymbol, Bool.false_or]
  cases hcontains : Text.contains symbol.toList source.toList with
  | true =>
    rw [Bool.not_true, if_neg Bool.false_ne_true]
    refine Text.mergeSort_eq_of_strict placeLe_trans placeLe_total ?_ ((pairwise_inLines hne fits _).imp ?_)
    · exact List.Perm.flatMap_left _ fun x _ => onLine_perm hne fits _ x.1.2 x.2 x.1.1
    · intro u v hbefore
      refine ⟨placeLe_iff.2 ?_, Bool.eq_false_iff.2 fun hle => placeLe_iff.1 hle hbefore⟩
      rw [Before] at hbefore ⊢
      omega
  | false =>
    -- a line with the symbol would be a part of the text
    rw [Bool.not_false, if_pos rfl, eq_comm, List.eq_nil_iff_forall_not_mem]
    intro u hu
    obtain ⟨line, hline, hpart⟩ := infix_of_mem_inLines hne hu
    have hmem := Text.contains_iff.2 (hpart.trans (Text.infix_of_mem_lines hline))
    exact Bool.false_ne_true (hcontains.symm.trans hmem)

theorem find_of_blank {symbol : String} (hsymbol : Text.isBlankText symbol = true) (fits : UsageRule.Capacity)
    (source : String) : find fits source symbol = [] := by
  rw [find, hsymbol]
  rfl

theorem pairwise_find (fits : UsageRule.Capacity) (source symbol : String) :
    (find fits source symbol).Pairwise Before := by
  cases hsymbol : Text.isBlankText symbol with
  | true =>
    rw [find_of_blank hsymbol]
    exact List.Pairwise.nil
  | false =>
    rw [find_eq hsymbol]
    exact pairwise_inLines (toList_ne_nil hsymbol) fits _

/-! ### Parts of a usage -/

/-- The usage without the window around it. -/
def bare (u : Usage) : Usage := { u with fullContext := "" }

/-- The usage without its window and its scope, which other lines have a share in. -/
def alone (u : Usage) : Usage := { u with fullContext := "", scope := none }

/-- The usage when `count` lines are put on top of its text and `outer` is the scope at their end. -/
def below (count : ℕ) (outer : Option String) (u : Usage) : Usage :=
  { u with line := u.line + count, scope := u.scope <|> outer }

/-! ### The scan as a recursion over lines -/

/-- The usages on a line without their windows. -/
def bareOnLine (rules : List UsageRule) (symbol : List Char) (index : ℕ) (scope : Option String)
    (line : List Char) : List Usage :=
  (inOrder rules symbol [] index scope line).map bare

/-- The usages in lines of which the first has a given index and lies below the scope `outer`. -/
def scan (rules : List UsageRule) (symbol : List Char) :
    (index : ℕ) → (outer : Option String) → List (List Char) → List Usage
  | _, _, [] => []
  | index, outer, line :: rest =>
    let scope := Scope.declared? line <|> outer
    bareOnLine rules symbol index scope line ++ scan rules symbol (index + 1) scope rest

variable {rules : List UsageRule} {symbol : List Char} {fits : UsageRule.Capacity}

theorem map_bare_inOrder (all : List (List Char)) (index : ℕ) (scope : Option String) (line : List Char) :
    (inOrder rules symbol all index scope line).map bare = bareOnLine rules symbol index scope line := by
  rw [bareOnLine, inOrder, inOrder, List.map_map, List.map_map]
  rfl

theorem map_bare_flatMap (all : List (List Char)) (index : ℕ) (outer : Option String)
    (lines : List (List Char)) :
    (((lines.zipIdx index).zip (Scope.ofLines outer lines)).flatMap fun x =>
      inOrder rules symbol all x.1.2 x.2 x.1.1).map bare = scan rules symbol index outer lines := by
  induction lines generalizing index outer with
  | nil => rfl
  | cons line rest ih =>
    rw [List.zipIdx_cons, Scope.ofLines, List.zip_cons_cons, List.flatMap_cons, List.map_append,
      map_bare_inOrder, ih]
    rfl

theorem map_bare_find {symbol : String} (hsymbol : Text.isBlankText symbol = false)
    (fits : UsageRule.Capacity) (source : String) :
    (find fits source symbol).map bare =
      scan (UsageRule.made fits symbol.toList) symbol.toList 0 none (Text.lines source.toList) := by
  rw [find_eq hsymbol]
  exact map_bare_flatMap _ 0 none _

/-! ### Cutting the text -/

theorem scan_append (index : ℕ) (outer : Option String) (upper lower : List (List Char)) :
    scan rules symbol index outer (upper ++ lower) =
      scan rules symbol index outer upper ++
        scan rules symbol (index + upper.length) (Scope.nearest upper <|> outer) lower := by
  induction upper generalizing index outer with
  | nil => rfl
  | cons line rest ih =>
    rw [List.cons_append, scan, scan, ih, Scope.nearest_cons, ← orElse_assoc, List.append_assoc,
      List.length_cons, Nat.add_right_comm, Nat.add_assoc]

theorem bareOnLine_below (count : ℕ) (outer : Option String) (index : ℕ) (scope : Option String)
    (line : List Char) :
    bareOnLine rules symbol (index + count) (scope <|> outer) line =
      (bareOnLine rules symbol index scope line).map (below count outer) := by
  rw [bareOnLine, bareOnLine, inOrder, inOrder, List.map_map, List.map_map, List.map_map]
  apply List.map_congr_left
  intro h _
  simp [atHit, below, bare, Nat.add_right_comm]

theorem scan_below (count : ℕ) (outer : Option String) (index : ℕ) (scope : Option String)
    (lines : List (List Char)) :
    scan rules symbol (index + count) (scope <|> outer) lines =
      (scan rules symbol index scope lines).map (below count outer) := by
  -- each declaration replaces the scope, so it varies while the outer one stays behind it
  induction lines generalizing index scope with
  | nil => rfl
  | cons line rest ih =>
    rw [scan, scan, orElse_assoc, bareOnLine_below, Nat.add_right_comm, ih, List.map_append]

theorem map_bare_find_append {symbol : String} (hsymbol : Text.isBlankText symbol = false) {a : String}
    (ha : a = "" ∨ ∃ text, a = text ++ "\n") (b : String) :
    (find fits (a ++ b) symbol).map bare =
      (find fits a symbol).map bare ++
        (find fits b symbol).map (fun u =>
          (u.below (Text.lines a.toList).length (Scope.nearest (Text.lines a.toList))).bare) := by
  have hwhole : a.toList = [] ∨ ∃ text, a.toList = text ++ ['\n'] := by
    rcases ha with ha | ⟨text, ha⟩
    · left
      rw [ha]
      rfl
    · right
      refine ⟨text.toList, ?_⟩
      rw [ha, String.toList_append]
      rfl
  have hlower : (find fits b symbol).map (fun u =>
        (u.below (Text.lines a.toList).length (Scope.nearest (Text.lines a.toList))).bare) =
      ((find fits b symbol).map bare).map
        (below (Text.lines a.toList).length (Scope.nearest (Text.lines a.toList))) := by
    rw [List.map_map]
    rfl
  rw [hlower, map_bare_find hsymbol, map_bare_find hsymbol, map_bare_find hsymbol, String.toList_append,
    Text.lines_append hwhole, scan_append, ← scan_below]
  cases Scope.nearest (Text.lines a.toList) <;> rfl

/-! ### The scope of a usage -/

theorem eq_of_mem_bareOnLine {index : ℕ} {scope : Option String} {line : List Char} {u : Usage}
    (h : u ∈ bareOnLine rules symbol index scope line) : u.line = index + 1 ∧ u.scope = scope := by
  obtain ⟨v, hv, hu⟩ := List.mem_map.1 h
  obtain ⟨hit, -, hv⟩ := List.mem_map.1 hv
  rw [← hu, ← hv]
  exact ⟨rfl, rfl⟩

/-- The scope of a usage is the nearest declaration from its line upwards, or else the one around the text. -/
theorem scope_of_mem_scan {index : ℕ} {outer : Option String} {lines : List (List Char)} {u : Usage}
    (h : u ∈ scan rules symbol index outer lines) :
    index < u.line ∧ u.scope = (Scope.nearest (lines.take (u.line - index)) <|> outer) := by
  induction lines generalizing index outer with
  | nil => cases h
  | cons line rest ih =>
    rw [scan] at h
    rcases List.mem_append.1 h with hhere | hbelow
    · obtain ⟨hline, hscope⟩ := eq_of_mem_bareOnLine hhere
      refine ⟨by omega, ?_⟩
      rw [hscope, show u.line - index = 1 by omega]
      cases hdeclared : Scope.declared? line <;> simp [Scope.nearest, hdeclared]
    · obtain ⟨hline, hscope⟩ := ih hbelow
      refine ⟨by omega, ?_⟩
      rw [hscope, show u.line - index = u.line - (index + 1) + 1 by omega, List.take_succ_cons,
        Scope.nearest_cons, ← orElse_assoc]

theorem scope_of_mem_find {symbol : String} (hsymbol : Text.isBlankText symbol = false) {source : String}
    {u : Usage} (hu : u ∈ find fits source symbol) :
    u.scope = Scope.nearest ((Text.lines source.toList).take u.line) := by
  have hbare : u.bare ∈ (find fits source symbol).map bare := List.mem_map_of_mem hu
  rw [map_bare_find hsymbol] at hbare
  exact (scope_of_mem_scan hbare).2.trans (orElse_failure _)

/-! ### Each line alone -/

/-- Neither the index of a line nor its scope has a share in what is found on it. -/
theorem map_alone_bareOnLine (index : ℕ) (scope scope' : Option String) (line : List Char) :
    (bareOnLine rules symbol index scope line).map alone =
      (bareOnLine rules symbol 0 scope' line).map fun u => (u.below index none).alone := by
  rw [bareOnLine, bareOnLine, inOrder, inOrder, List.map_map, List.map_map, List.map_map, List.map_map]
  apply List.map_congr_left
  intro h _
  simp [atHit, below, bare, alone, Nat.add_comm]

theorem map_alone_scan (index : ℕ) (outer : Option String) (lines : List (List Char)) :
    (scan rules symbol index outer lines).map alone =
      (lines.zipIdx index).flatMap fun x =>
        (bareOnLine rules symbol 0 none x.1).map fun u => (u.below x.2 none).alone := by
  induction lines generalizing index outer with
  | nil => rfl
  | cons line rest ih =>
    rw [scan, List.map_append, map_alone_bareOnLine, ih, List.zipIdx_cons, List.flatMap_cons]

/-- Scanning the lines of a line is scanning the line. -/
theorem map_alone_scan_lines {text line : List Char} (h : line ∈ Text.lines text) (index : ℕ) :
    ((scan rules symbol 0 none (Text.lines line)).map fun u => (u.below index none).alone) =
      (bareOnLine rules symbol 0 none line).map fun u => (u.below index none).alone := by
  -- an empty line is a line of its text, but as a text it has none
  by_cases hempty : line = []
  · have hnone : Hit.inOrder rules symbol [] = [] :=
      (Hit.claimed_nil rules symbol ▸ Hit.inOrder_perm rules symbol []).eq_nil
    rw [hempty, bareOnLine, inOrder, hnone]
    rfl
  · rw [Text.lines_of_mem h hempty, scan, scan, List.append_nil, ← map_alone_bareOnLine index none]
    exact map_alone_bareOnLine index none none line

theorem map_alone_find {symbol : String} (hsymbol : Text.isBlankText symbol = false) (source : String) :
    (find fits source symbol).map alone =
      (Text.lines source.toList).zipIdx.flatMap fun x =>
        (find fits (String.ofList x.1) symbol).map fun u => (u.below x.2 none).alone := by
  calc (find fits source symbol).map alone
      = ((find fits source symbol).map bare).map alone := by
        rw [List.map_map]
        rfl
    _ = (Text.lines source.toList).zipIdx.flatMap fun x =>
          (bareOnLine (UsageRule.made fits symbol.toList) symbol.toList 0 none x.1).map fun u =>
            (u.below x.2 none).alone := by
        rw [map_bare_find hsymbol, map_alone_scan]
    _ = (Text.lines source.toList).zipIdx.flatMap fun x =>
          (find fits (String.ofList x.1) symbol).map fun u => (u.below x.2 none).alone := by
        apply List.flatMap_congr
        intro x hx
        rw [← map_alone_scan_lines (List.fst_mem_of_mem_zipIdx hx) x.2]
        have hline := map_bare_find hsymbol fits (String.ofList x.1)
        rw [String.toList_ofList] at hline
        rw [← hline, List.map_map]
        rfl

/-! ### Both parts of a text -/

/-- **A text is scanned line by line.**  If a text is cut behind a line feed, its usages are those of the upper
part followed by those of the lower one, numbered from there, windows aside.  Usages of the lower part that
have no scope there get the scope at the end of the upper part.  The scope of a usage is the nearest
declaration from its line upwards, and whatever else is said of a usage is found in its line alone. -/
theorem find_line_by_line (fits : UsageRule.Capacity) {a : String} (ha : a = "" ∨ ∃ text, a = text ++ "\n")
    (b symbol : String) :
    (find fits (a ++ b) symbol).map bare =
      (find fits a symbol).map bare ++
        (find fits b symbol).map (fun u =>
          (u.below (Text.lines a.toList).length (Scope.nearest (Text.lines a.toList))).bare) ∧
    (∀ source, ∀ u ∈ find fits source symbol,
      u.scope = Scope.nearest ((Text.lines source.toList).take u.line)) ∧
    ∀ source, (find fits source symbol).map alone =
      (Text.lines source.toList).zipIdx.flatMap fun x =>
        (find fits (String.ofList x.1) symbol).map fun u => (u.below x.2 none).alone := by
  cases hsymbol : Text.isBlankText symbol with
  | true =>
    simp [find_of_blank hsymbol]
  | false =>
    refine ⟨?_, ?_, map_alone_find hsymbol⟩
    · exact map_bare_find_append hsymbol ha b
    · intro source u hu
      exact scope_of_mem_find hsymbol hu

/-- The first line of the lower part has its scope from the upper part, which ends in a carriage return and a
line feed. -/
theorem find_line_by_line_cut :
    ("fn f() \x7b\r\n" = "" ∨ ∃ text, "fn f() \x7b\r\n" = text ++ "\n") ∧
      (find UsageRule.unlimited ("fn f() \x7b\r\n" ++ "foo()\nfn g() \x7b foo") "foo").map
          (fun u => (u.line, u.column, u.scope)) =
        [(2, 0, some "f"), (3, 9, some "g")] ∧
      (find UsageRule.unlimited ("fn f() \x7b\r\n" ++ "foo()\nfn g() \x7b foo") "foo").map bare =
        (find UsageRule.unlimited "fn f() \x7b\r\n" "foo").map bare ++
          (find UsageRule.unlimited "foo()\nfn g() \x7b foo" "foo").map (fun u => (u.below 1 (some "f")).bare) := by
  have hcut : "fn f() \x7b\r\n" = "" ∨ ∃ text, "fn f() \x7b\r\n" = text ++ "\n" :=
    .inr ⟨"fn f() \x7b\r", by decide⟩
  have hcount : (Text.lines "fn f() \x7b\r\n".toList).length = 1 := by decide
  have hscope : Scope.nearest (Text.lines "fn f() \x7b\r\n".toList) = some "f" := by decide +kernel
  have hparts := (find_line_by_line UsageRule.unlimited hcut "foo()\nfn g() \x7b foo" "foo").1
  rw [hcount, hscope] at hparts
  refine ⟨hcut, ?_, hparts⟩
  rw [find_eq (by decide)]
  decide +kernel

end Usage

end CodeAtlas
