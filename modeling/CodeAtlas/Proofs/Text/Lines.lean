import CodeAtlas.Text.Lines

/-!
# Texts of whole lines

A line feed closes the open line whatever stands in it, so a text can be cut behind any line feed: the lines
of the whole are the lines of both parts (`lines_append`).  The open line is read one character at a time, and
no line feed gets into it (`newline_not_mem_lines`); a line is therefore its own only line (`lines_of_mem`).
Nothing is changed in a line, so it stands in the text as it is (`infix_of_mem_lines`).
-/

namespace CodeAtlas.Text

theorem linesFrom_newline (read rest : List Char) :
    linesFrom read ('\n' :: rest) = closeLine read :: linesFrom [] rest := by
  cases read <;> rfl

theorem linesFrom_cons {c : Char} (hc : c ≠ '\n') (read rest : List Char) :
    linesFrom read (c :: rest) = linesFrom (c :: read) rest := by
  rw [linesFrom.eq_def]
  split <;> simp_all

theorem linesFrom_append_newline (read text rest : List Char) :
    linesFrom read (text ++ '\n' :: rest) = linesFrom read (text ++ ['\n']) ++ linesFrom [] rest := by
  induction text generalizing read with
  | nil =>
    show linesFrom read ('\n' :: rest) = linesFrom read ['\n'] ++ linesFrom [] rest
    rw [linesFrom_newline, linesFrom_newline]
    rfl
  | cons c text ih =>
    show linesFrom read (c :: (text ++ '\n' :: rest)) =
      linesFrom read (c :: (text ++ ['\n'])) ++ linesFrom [] rest
    by_cases hc : c = '\n'
    · rw [hc, linesFrom_newline, linesFrom_newline, ih, List.cons_append]
    · rw [linesFrom_cons hc, linesFrom_cons hc, ih]

/-- A text can be cut behind a line feed. -/
theorem lines_append {a : List Char} (ha : a = [] ∨ ∃ text, a = text ++ ['\n']) (b : List Char) :
    lines (a ++ b) = lines a ++ lines b := by
  rcases ha with ha | ⟨text, ha⟩
  · rw [ha]
    rfl
  · rw [ha, List.append_assoc]
    exact linesFrom_append_newline [] text b

theorem linesFrom_of_not_mem {text : List Char} (h : '\n' ∉ text) (read : List Char) :
    linesFrom read text = linesFrom (text.reverse ++ read) [] := by
  induction text generalizing read with
  | nil => rfl
  | cons c text ih =>
    have hc : c ≠ '\n' := fun heq => h (heq ▸ List.mem_cons_self)
    rw [linesFrom_cons hc, ih fun hmem => h (List.mem_cons_of_mem c hmem), List.reverse_cons,
      List.append_assoc]
    rfl

theorem closeLine_subset (read : List Char) : closeLine read ⊆ read := by
  intro c hc
  rw [closeLine.eq_def] at hc
  split at hc
  · exact List.mem_cons_of_mem _ (List.mem_reverse.1 hc)
  · exact List.mem_reverse.1 hc

theorem newline_not_mem_linesFrom {read : List Char} (hread : '\n' ∉ read) {text line : List Char}
    (h : line ∈ linesFrom read text) : '\n' ∉ line := by
  induction text generalizing read with
  | nil =>
    cases read with
    | nil => cases h
    | cons c read =>
      rw [List.mem_singleton.1 h, List.mem_reverse]
      exact hread
  | cons c text ih =>
    by_cases hc : c = '\n'
    · rw [hc, linesFrom_newline] at h
      rcases List.mem_cons.1 h with hclosed | hlater
      · rw [hclosed]
        exact fun hmem => hread (closeLine_subset read hmem)
      · exact ih List.not_mem_nil hlater
    · rw [linesFrom_cons hc] at h
      refine ih ?_ h
      rw [List.mem_cons, not_or]
      exact ⟨Ne.symm hc, hread⟩

theorem newline_not_mem_lines {text line : List Char} (h : line ∈ lines text) : '\n' ∉ line :=
  newline_not_mem_linesFrom List.not_mem_nil h

/-- A line of a text is, as a text, its own only line.  An empty line has no line. -/
theorem lines_of_mem {text line : List Char} (h : line ∈ lines text) (hne : line ≠ []) :
    lines line = [line] := by
  rw [lines, linesFrom_of_not_mem (newline_not_mem_lines h), List.append_nil]
  cases hreverse : line.reverse with
  | nil => exact absurd (List.reverse_eq_nil_iff.1 hreverse) hne
  | cons c read =>
    show [(c :: read).reverse] = [line]
    rw [← hreverse, List.reverse_reverse]

theorem closeLine_isPrefix (read : List Char) : closeLine read <+: read.reverse := by
  rw [closeLine.eq_def]
  split
  · rw [List.reverse_cons]
    exact List.prefix_append _ _
  · exact List.prefix_refl _

theorem infix_of_mem_linesFrom {read text line : List Char} (h : line ∈ linesFrom read text) :
    line <:+: read.reverse ++ text := by
  induction text generalizing read with
  | nil =>
    cases read with
    | nil => cases h
    | cons c read =>
      have hwhole : line = (c :: read).reverse ++ [] := (List.mem_singleton.1 h).trans (List.append_nil _).symm
      exact hwhole ▸ List.infix_refl _
  | cons c text ih =>
    by_cases hc : c = '\n'
    · rw [hc, linesFrom_newline] at h
      rcases List.mem_cons.1 h with hclosed | hlater
      · rw [hclosed]
        exact ((closeLine_isPrefix read).trans (List.prefix_append _ _)).isInfix
      · exact (ih hlater).trans ((List.suffix_cons c text).trans (List.suffix_append _ _)).isInfix
    · rw [linesFrom_cons hc] at h
      have hpart := ih h
      rwa [List.reverse_cons, List.append_assoc] at hpart

theorem infix_of_mem_lines {text line : List Char} (h : line ∈ lines text) : line <:+: text :=
  infix_of_mem_linesFrom h

end CodeAtlas.Text
