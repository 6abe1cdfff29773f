import CodeAtlas.Proofs.Usage.FirstRule

/-!
# Positions of usages

A usage names a line and a column.  What stands there is the symbol, with the edges of a word on each side
where the symbol has a plain character, and no two usages name the same place.
-/

namespace CodeAtlas

namespace Usage

/-- The place of a usage is that of an occurrence which a rule recognises. -/
theorem exists_occurrence_of_mem_find {fits : UsageRule.Capacity} {source symbol : String} {u : Usage}
    (hu : u ∈ find fits source symbol) :
    ∃ index line, (Text.lines source.toList)[index]? = some line ∧ u.line = index + 1 ∧
      u.context = String.ofList (Text.trim line) ∧
      ∃ o : Occurrence line symbol.toList, u.column = o.column ∧
        o.stop ∈ symbolMatcher symbol.toList o.start := by
  obtain ⟨hsymbol, index, line, h, hline, hh, halone⟩ := exists_hit_of_mem_find hu
  obtain ⟨o, hcolumn, hmatch⟩ := Hit.exists_occurrence_of_mem_claimed (toList_ne_nil hsymbol) hh
  refine ⟨index, line, hline, congrArg Usage.line halone, congrArg Usage.context halone, o, ?_, hmatch⟩
  exact (congrArg Usage.column halone).trans hcolumn

/-- **Every usage is an occurrence, and none is reported twice.**  Usages come in the strict order of lines and
columns.  A usage lies on a line of the text, the symbol stands there in its column, and its context is the
line without blanks at its ends.  If the symbol begins (ends) with a plain character, the character before
(behind) it is not one of a word. -/
theorem find_positions (fits : UsageRule.Capacity) (source symbol : String) :
    (find fits source symbol).Pairwise Before ∧
      ∀ u ∈ find fits source symbol, 1 ≤ u.line ∧ u.line ≤ (Text.lines source.toList).length ∧
        ∃ line, (Text.lines source.toList)[u.line - 1]? = some line ∧
          u.context = String.ofList (Text.trim line) ∧
          ∃ o : Occurrence line symbol.toList, u.column = o.column ∧
            (∀ first ∈ symbol.toList.head?, Text.isPlain first = true →
              ∀ c ∈ o.before.getLast?, Text.isWord c = false) ∧
            ∀ last ∈ symbol.toList.getLast?, Text.isPlain last = true →
              ∀ c ∈ o.after.head?, Text.isWord c = false := by
  refine ⟨pairwise_find fits source symbol, ?_⟩
  intro u hu
  obtain ⟨index, line, hline, hindex, hcontext, o, hcolumn, hmatch⟩ := exists_occurrence_of_mem_find hu
  have hlt : index < (Text.lines source.toList).length := (List.getElem?_eq_some_iff.1 hline).1
  refine ⟨by omega, by omega, line, ?_, hcontext, o, hcolumn, ?_, ?_⟩
  · rw [hindex]
    exact hline
  · intro first hfirst hplain
    exact Occurrence.isWord_before hmatch hfirst hplain
  · intro last hlast hplain
    exact Occurrence.isWord_after hmatch hlast hplain

/-- Columns count characters, and a carriage return at the end of a line is not part of it. -/
theorem find_positions_accented :
    (find UsageRule.unlimited "ünï = foo;\r\n\tfoo.bar()" "foo").map (fun u => (u.line, u.column)) = [(1, 6), (2, 1)] ∧
      (find UsageRule.unlimited "ünï = foo;\r\n\tfoo.bar()" "foo").Pairwise Before ∧
      ∃ u ∈ find UsageRule.unlimited "ünï = foo;\r\n\tfoo.bar()" "foo", u.line = 2 ∧
        ∃ line, (Text.lines "ünï = foo;\r\n\tfoo.bar()".toList)[u.line - 1]? = some line ∧
          u.context = String.ofList (Text.trim line) ∧
          ∃ o : Occurrence line "foo".toList, u.column = o.column ∧
            (∀ c ∈ o.before.getLast?, Text.isWord c = false) ∧ ∀ c ∈ o.after.head?, Text.isWord c = false := by
  have hpositions := find_positions UsageRule.unlimited "ünï = foo;\r\n\tfoo.bar()" "foo"
  have hplaces : (find UsageRule.unlimited "ünï = foo;\r\n\tfoo.bar()" "foo").map (fun u => (u.line, u.column)) =
      [(1, 6), (2, 1)] := by
    rw [find_eq (by decide)]
    decide +kernel
  refine ⟨hplaces, hpositions.1, ?_⟩
  have hmem : (2, 1) ∈
      (find UsageRule.unlimited "ünï = foo;\r\n\tfoo.bar()" "foo").map (fun u => (u.line, u.column)) := by
    rw [hplaces]
    decide
  obtain ⟨u, hu, hplace⟩ := List.mem_map.1 hmem
  obtain ⟨-, -, line, hline, hcontext, o, hcolumn, hbefore, hafter⟩ := hpositions.2 u hu
  refine ⟨u, hu, congrArg Prod.fst hplace, line, hline, hcontext, o, hcolumn, ?_, ?_⟩
  · exact hbefore 'f' (by decide) (by decide)
  · exact hafter 'o' (by decide) (by decide)

end Usage

end CodeAtlas
