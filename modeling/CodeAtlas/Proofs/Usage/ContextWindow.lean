import CodeAtlas.Proofs.Usage.LineByLine
import Mathlib.Data.List.Forall2
import Mathlib.Data.List.Intervals

/-!
# Windows of context

The window around a usage is one text, and its rows are read back by cutting it at line feeds.  No row holds a
line feed of its own: a line of a text has none, and a row adds but a mark, blanks, digits and a bar to it
(`newline_not_mem_windowRow`).  So the rows are those that were joined (`splitOn_contextWindow`).

Rows are counted from zero inside of the window, lines from zero in the text, and the numbers that are shown
from one.  `forall₂_rows` puts the three side by side.
-/

namespace CodeAtlas

namespace Usage

/-- The row for the line with a number, in a window around the line with the number `marked`: the mark, the
number in at least four columns, and the line. -/
def windowRow (marked number : ℕ) (line : List Char) : List Char :=
  [if number = marked then '>' else ' ', ' '] ++ List.leftpad 4 ' ' (Nat.toDigits 10 number) ++
    " | ".toList ++ line

theorem contextRow_eq (index i : ℕ) (line : List Char) :
    contextRow i (i = index) line = windowRow (index + 1) (i + 1) line := by
  have hpad : (Text.padLeft 4 (toString (i + 1))).toList =
      List.leftpad 4 ' ' (Nat.toDigits 10 (i + 1)) := by
    rw [Text.padLeft, String.toList_append, String.toList_ofList, Nat.toString_eq_repr, Nat.toList_repr,
      ← String.length_toList, Nat.toList_repr]
    rfl
  rw [contextRow, hpad]
  simp [windowRow]

theorem newline_not_mem_windowRow (marked number : ℕ) {line : List Char} (h : '\n' ∉ line) :
    '\n' ∉ windowRow marked number line := by
  have hmark : '\n' ∉ [if number = marked then '>' else ' ', ' '] := by
    split <;> decide
  have hdigits : '\n' ∉ Nat.toDigits 10 number := by
    intro hmem
    exact absurd (Nat.isDigit_of_mem_toDigits (by decide) (by decide) hmem) (by decide)
  have hnumber : '\n' ∉ List.leftpad 4 ' ' (Nat.toDigits 10 number) := by
    rw [List.leftpad, List.mem_append, not_or]
    refine ⟨?_, hdigits⟩
    intro hmem
    exact absurd (List.eq_of_mem_replicate hmem) (by decide)
  simp only [windowRow, List.mem_append, not_or]
  exact ⟨⟨⟨hmark, hnumber⟩, by decide⟩, h⟩

variable {lines : List (List Char)} {index : ℕ}

/-- The rows that make up the window around a line. -/
def rowsAround (lines : List (List Char)) (index : ℕ) : List (List Char) :=
  ((lines.drop (index - 3)).take (index + 4 - (index - 3))).zipIdx.map fun x =>
    windowRow (index + 1) (index - 3 + x.2 + 1) x.1

theorem contextWindow_eq (lines : List (List Char)) (index : ℕ) :
    contextWindow lines index = ['\n'].intercalate (rowsAround lines index) := by
  rw [contextWindow, rowsAround]
  simp only [contextRow_eq]
  rfl

theorem length_rowsAround (lines : List (List Char)) (index : ℕ) :
    (rowsAround lines index).length = min (index + 4 - (index - 3)) (lines.length - (index - 3)) := by
  rw [rowsAround, List.length_map, List.length_zipIdx, List.length_take, List.length_drop]

/-- Cutting a window at line feeds gives its rows. -/
theorem splitOn_contextWindow (hlines : ∀ line ∈ lines, '\n' ∉ line) (hindex : index < lines.length) :
    (contextWindow lines index).splitOn '\n' = rowsAround lines index := by
  rw [contextWindow_eq]
  apply List.splitOn_intercalate
  · intro row hrow
    obtain ⟨⟨line, i⟩, hx, rfl⟩ := List.mem_map.1 hrow
    apply newline_not_mem_windowRow
    apply hlines
    exact List.mem_of_mem_drop (List.mem_of_mem_take (List.fst_mem_of_mem_zipIdx hx))
  · apply List.ne_nil_of_length_pos
    rw [length_rowsAround]
    omega

/-- The rows are those of the lines whose numbers are at most three away, each with its line. -/
theorem forall₂_rows (hindex : index < lines.length) :
    List.Forall₂
      (fun number row => ∃ line, lines[number - 1]? = some line ∧ row = windowRow (index + 1) number line)
      (List.Ico (max 1 (index + 1 - 3)) (min lines.length (index + 1 + 3) + 1)) (rowsAround lines index) := by
  rw [List.forall₂_iff_get]
  constructor
  · rw [List.Ico.length, length_rowsAround]
    omega
  · intro i hi hrow
    have hline : index - 3 + i < lines.length := by
      rw [length_rowsAround] at hrow
      omega
    have hnumber : (List.Ico (max 1 (index + 1 - 3)) (min lines.length (index + 1 + 3) + 1)).get ⟨i, hi⟩ =
        index - 3 + i + 1 := by
      simp only [List.Ico, List.get_eq_getElem, List.getElem_range']
      omega
    rw [hnumber]
    refine ⟨lines[index - 3 + i], ?_, ?_⟩
    · rw [Nat.add_sub_cancel, List.getElem?_eq_getElem hline]
    · simp only [rowsAround, List.get_eq_getElem, List.getElem_map, List.getElem_zipIdx, List.getElem_take,
        List.getElem_drop, Nat.zero_add]

/-! ### The window of a usage -/

variable {fits : UsageRule.Capacity} {source symbol : String} {u : Usage}

theorem exists_window_of_mem_find (hu : u ∈ find fits source symbol) :
    ∃ index < (Text.lines source.toList).length, u.line = index + 1 ∧
      u.fullContext.toList = contextWindow (Text.lines source.toList) index := by
  cases hsymbol : Text.isBlankText symbol with
  | true =>
    rw [find_of_blank hsymbol] at hu
    cases hu
  | false =>
    rw [find_eq hsymbol] at hu
    obtain ⟨⟨⟨line, index⟩, scope⟩, hx, hmem⟩ := List.mem_flatMap.1 hu
    have hline := List.mem_zipIdx_iff_getElem?.1 (List.of_mem_zip hx).1
    obtain ⟨h, -, rfl⟩ := List.mem_map.1 hmem
    exact ⟨index, (List.getElem?_eq_some_iff.1 hline).1, rfl, String.toList_ofList⟩

/-- **The window of a usage can be read back.**  Cut at line feeds, it is made of the rows for the lines from
three above the usage to three below, as far as there are such lines, in order.  Each row shows the line
unchanged behind its number, and the row of the usage alone is marked. -/
theorem find_context_rows (hu : u ∈ find fits source symbol) :
    let lines := Text.lines source.toList
    1 ≤ u.line ∧ u.line ≤ lines.length ∧
      List.Forall₂
        (fun number row => ∃ line, lines[number - 1]? = some line ∧ row = windowRow u.line number line)
        (List.Ico (max 1 (u.line - 3)) (min lines.length (u.line + 3) + 1))
        (u.fullContext.toList.splitOn '\n') := by
  intro lines
  obtain ⟨index, hindex, hline, hwindow⟩ := exists_window_of_mem_find hu
  refine ⟨by omega, hline ▸ hindex, ?_⟩
  rw [hwindow, splitOn_contextWindow (fun _ hmem => Text.newline_not_mem_lines hmem) hindex, hline]
  exact forall₂_rows hindex

/-- The window is cut short above, the carriage return before a line feed is not shown, and one that stands
alone is. -/
theorem find_context_rows_clipped :
    ∃ u ∈ find UsageRule.unlimited "a\r\nfoo()\n\n1\r2\ny\nz" "foo", u.line = 2 ∧
      u.fullContext = "     1 | a\n>    2 | foo()\n     3 | \n     4 | 1\r2\n     5 | y" ∧
      List.Forall₂
        (fun number row => ∃ line, (Text.lines "a\r\nfoo()\n\n1\r2\ny\nz".toList)[number - 1]? = some line ∧
          row = windowRow 2 number line)
        [1, 2, 3, 4, 5] (u.fullContext.toList.splitOn '\n') := by
  have hfind : (find UsageRule.unlimited "a\r\nfoo()\n\n1\r2\ny\nz" "foo").map (fun u => (u.line, u.fullContext)) =
      [(2, "     1 | a\n>    2 | foo()\n     3 | \n     4 | 1\r2\n     5 | y")] := by
    decide +kernel
  have hmem := List.mem_map.1 (hfind ▸ List.mem_singleton_self _)
  obtain ⟨u, hu, hplace⟩ := hmem
  have hline : u.line = 2 := congrArg Prod.fst hplace
  refine ⟨u, hu, hline, congrArg Prod.snd hplace, ?_⟩
  have hrows := (find_context_rows hu).2.2
  rw [hline] at hrows
  exact hrows

end Usage

end CodeAtlas
