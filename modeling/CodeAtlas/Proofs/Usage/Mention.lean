import CodeAtlas.Proofs.Usage.FirstRule

/-!
# Mentions

The last rule asks for nothing but the symbol and its edges outside of string literals, so it decides which
occurrences are reported at all.  Its matches follow each other without a gap to spare; an occurrence is passed
over only if another one reaches into it, and then the character before it is one of the symbol.  Where that
character is the edge of a word or a blank, nothing is passed over (`mention_recognises`).

What is left are the edges, as long as the rule can be made for the symbol at all.  A plain symbol has them
wherever it stands as a word of its own, and all of its occurrences outside of literals are reported
(`find_mentions`).  A symbol that stands alone among blanks is reported unless it begins or ends with a name
character that is no word character, such as a superscript digit: there is no edge beside it
(`find_standing_alone`, `find_superscript_alone`).
-/

namespace CodeAtlas

open Text (Cursor Matcher)

namespace UsageRule

variable {line symbol : List Char}

theorem mem_matchesAt_mention {c : Cursor} {s : Site} :
    s ∈ mention.frame.matchesAt (symbolMatcher symbol) c ↔
      s.start = c ∧ s.stop ∈ symbolMatcher symbol c ∧ s.frameEnd = s.stop := by
  simp only [Frame.mem_matchesAt, mention, Matcher.empty, List.mem_singleton]
  constructor
  · intro h
    obtain ⟨hstart, hstop, hend⟩ := h
    exact ⟨hstart, hstart ▸ hstop, hend⟩
  · intro h
    obtain ⟨hstart, hstop, hend⟩ := h
    exact ⟨hstart, hstart.symm ▸ hstop, hend⟩

/-- The last rule recognises nothing inside of a literal. -/
theorem outsideLiteral_of_mention {o : Occurrence line symbol}
    (h : mention.recognises symbol line o.column = true) : o.OutsideLiteral := by
  obtain ⟨d, s, -, haccepts, hstart, -⟩ := exists_match_of_recognises (by simp [UsageRule.all]) h
  have houtside : outsideLiteral s.start.before.reverse = true := haccepts
  rw [hstart, Occurrence.start, List.reverse_reverse] at houtside
  exact houtside

/-- No match of the last rule from further left reaches over an occurrence, if no character of the symbol stands
right before it. -/
theorem mention_frameEnd_le {o : Occurrence line symbol} (hprevious : ∀ c ∈ o.before.getLast?, c ∉ symbol)
    {e : Cursor} (he : e.line = line) (hlt : e.column < o.column) {t : Site}
    (ht : t ∈ mention.frame.matchesAt (symbolMatcher symbol) e) : t.frameEnd.column ≤ o.column := by
  obtain ⟨-, hstop, hend⟩ := mem_matchesAt_mention.1 ht
  obtain ⟨o', hstart', hstop'⟩ := Occurrence.exists_of_reads he (mem_symbolMatcher.1 hstop).1
  rw [hstart', o'.column_start] at hlt
  rw [hend, hstop']
  by_contra hover
  obtain ⟨c, hc, hmem⟩ := Occurrence.mem_of_overlap hlt (Nat.lt_of_not_le hover)
  exact hprevious c hc hmem

/-- An occurrence with its edges is recognised outside of literals, if no character of the symbol stands right
before it. -/
theorem mention_recognises {o : Occurrence line symbol} (hsymbol : symbol ≠ [])
    (hprevious : ∀ c ∈ o.before.getLast?, c ∉ symbol) (hmatch : o.stop ∈ symbolMatcher symbol o.start)
    (houtside : o.OutsideLiteral) : mention.recognises symbol line o.column = true := by
  have hahead : o.start.after ≠ [] := List.append_ne_nil_of_left_ne_nil hsymbol _
  have hhere : (⟨o.start, o.stop, o.stop⟩ : Site) ∈ mention.frame.matchesAt (symbolMatcher symbol) o.start :=
    mem_matchesAt_mention.2 ⟨rfl, hmatch, rfl⟩
  have hfree : ∀ e : Cursor, e.line = o.start.line → e.column < o.start.column →
      ∀ t ∈ mention.frame.matchesAt (symbolMatcher symbol) e, t.frameEnd.column ≤ o.start.column := by
    intro e he hlt t ht
    rw [o.column_start] at hlt ⊢
    exact mention_frameEnd_le hprevious (he.trans o.line_start) hlt ht
  obtain ⟨s, hs, hsite⟩ := Frame.exists_mem_sites hahead (List.ne_nil_of_mem hhere) hfree
  have hstart := (mem_matchesAt_mention.1 hsite).1
  rw [o.line_start] at hs
  refine recognises_iff.2 ⟨s, List.mem_filter.2 ⟨hs, ?_⟩, ?_⟩
  · show outsideLiteral s.start.before.reverse = true
    rw [hstart, Occurrence.start, List.reverse_reverse]
    exact houtside
  · rw [hstart, o.column_start]

end UsageRule

namespace Usage

open UsageRule

variable {fits : Capacity} {source symbol : String} {index : ℕ} {line : List Char}

theorem isBlankText_eq_false (hne : symbol ≠ "") (hblank : ∀ c ∈ symbol.toList, Text.isBlank c = false) :
    Text.isBlankText symbol = false := by
  have hlist : symbol.toList ≠ [] := fun hnil => hne (String.toList_eq_nil_iff.1 hnil)
  rw [Text.isBlankText, List.all_eq_false]
  refine ⟨symbol.toList.head hlist, List.head_mem hlist, ?_⟩
  rw [hblank _ (List.head_mem hlist)]
  exact Bool.false_ne_true

theorem mention_mem_made (hfits : fits mention symbol.toList = true) : mention ∈ made fits symbol.toList :=
  mem_made.2 ⟨by simp [UsageRule.all], hfits⟩

/-- A symbol for which no rule can be made is found nowhere. -/
theorem find_of_made_eq_nil (hnone : made fits symbol.toList = []) (source : String) :
    find fits source symbol = [] := by
  apply List.eq_nil_iff_forall_not_mem.2
  intro u hu
  obtain ⟨-, index, line, h, -, hh, -⟩ := exists_hit_of_mem_find hu
  rw [hnone] at hh
  cases hh

/-- **No mention of a plain symbol is lost.**  If the last rule can be made for the symbol, each occurrence as a
word of its own is reported once outside of string literals, whatever else is on the line and whichever other
rules can be made.  Whatever is reported of an occurrence inside of a literal, it is not the last rule that found
it.  If no rule can be made, nothing is reported. -/
theorem find_mentions (fits : Capacity) (hne : symbol ≠ "") (hplain : ∀ c ∈ symbol.toList, Text.isPlain c = true)
    (hline : (Text.lines source.toList)[index]? = some line) (o : Occurrence line symbol.toList) :
    (fits mention symbol.toList = true → o.IsWord → o.OutsideLiteral →
      (reportedAt fits source symbol (index + 1) o.column).length = 1) ∧
    (¬ o.OutsideLiteral → ∀ u ∈ reportedAt fits source symbol (index + 1) o.column,
      ∃ h ∈ Hit.claimed (made fits symbol.toList) symbol.toList line,
        u.alone = ofHit index line h ∧ h.rule ≠ mention) ∧
    ((∀ rule ∈ UsageRule.all, fits rule symbol.toList = false) → find fits source symbol = []) := by
  refine ⟨?_, ?_, ?_⟩
  · intro hfits hword houtside
    have hsymbol : Text.isBlankText symbol = false :=
      isBlankText_eq_false hne fun c hc => Text.isBlank_of_isPlain (hplain c hc)
    have hprevious : ∀ c ∈ o.before.getLast?, c ∉ symbol.toList := by
      intro c hc hmem
      exact Bool.false_ne_true ((hword.1 c hc).symm.trans (Text.isWord_of_isPlain (hplain c hmem)))
    have hmatch := (hword.stop_mem_iff (toList_ne_nil hsymbol)).2 (edgesFit_of_isPlain hplain)
    exact length_reportedAt_of_recognises hsymbol hline (mention_mem_made hfits)
      (mention_recognises (toList_ne_nil hsymbol) hprevious hmatch houtside)
  · intro hinside u hu
    obtain ⟨h, hh, halone, hfirst⟩ := exists_first_of_mem_reportedAt hline hu
    refine ⟨h, hh, halone, ?_⟩
    intro hmention
    have hrecognises := List.find?_some hfirst
    rw [hmention] at hrecognises
    exact hinside (outsideLiteral_of_mention hrecognises)
  · intro hnone
    refine find_of_made_eq_nil (List.filter_eq_nil_iff.2 ?_) source
    intro rule hrule
    exact Bool.eq_false_iff.1 (hnone rule hrule)

/-- A call in a literal is found by another rule, and the mention below it by the last one, also if that is the
only one.  With room for symbols of two characters only, nothing is found. -/
theorem find_mentions_quoted :
    (∃ o : Occurrence "log('foo()')".toList "foo".toList, o.column = 5 ∧ ¬ o.OutsideLiteral ∧
      (reportedAt unlimited "log('foo()')\nlog(foo)" "foo" 1 5).map Usage.pattern = ["function call"] ∧
      ∀ u ∈ reportedAt unlimited "log('foo()')\nlog(foo)" "foo" 1 5,
        ∃ h ∈ Hit.claimed (made unlimited "foo".toList) "foo".toList "log('foo()')".toList,
          u.alone = ofHit 0 "log('foo()')".toList h ∧ h.rule ≠ mention) ∧
    (∃ o : Occurrence "log(foo)".toList "foo".toList, o.column = 4 ∧ o.IsWord ∧ o.OutsideLiteral ∧
      (reportedAt unlimited "log('foo()')\nlog(foo)" "foo" 2 4).length = 1 ∧
      (reportedAt (fun rule _ => rule.label = "direct usage") "log('foo()')\nlog(foo)" "foo" 2 4).length = 1) ∧
    find (fun _ symbol => symbol.length < 3) "log('foo()')\nlog(foo)" "foo" = [] := by
  have hplain : ∀ c ∈ "foo".toList, Text.isPlain c = true := List.all_eq_true.1 (by decide)
  have hupper : (Text.lines "log('foo()')\nlog(foo)".toList)[0]? = some "log('foo()')".toList := by decide
  have hlower : (Text.lines "log('foo()')\nlog(foo)".toList)[1]? = some "log(foo)".toList := by decide
  have hpattern : (reportedAt unlimited "log('foo()')\nlog(foo)" "foo" 1 5).map Usage.pattern =
      ["function call"] := by
    rw [reportedAt, find_eq (by decide)]
    decide +kernel
  refine ⟨⟨⟨"log('".toList, "()')".toList, by decide⟩, rfl, by decide, hpattern, ?_⟩,
    ⟨⟨"log(".toList, ")".toList, by decide⟩, rfl, by decide, by decide, ?_, ?_⟩, ?_⟩
  · exact (find_mentions unlimited (by decide) hplain hupper ⟨"log('".toList, "()')".toList, by decide⟩).2.1
      (by decide)
  · exact (find_mentions unlimited (by decide) hplain hlower ⟨"log(".toList, ")".toList, by decide⟩).1 rfl
      (by decide) (by decide)
  · exact (find_mentions _ (by decide) hplain hlower ⟨"log(".toList, ")".toList, by decide⟩).1 (by decide)
      (by decide) (by decide)
  · exact (find_mentions _ (by decide) hplain hlower ⟨"log(".toList, ")".toList, by decide⟩).2.2
      fun _ _ => by decide

/-- **A symbol that stands alone is found if its edges are.**  If the last rule can be made for the symbol, an
occurrence among blanks and outside of string literals is reported exactly when the symbol neither begins nor ends
with a name character that is no word character. -/
theorem find_standing_alone (hfits : fits mention symbol.toList = true) (hne : symbol ≠ "")
    (hblank : ∀ c ∈ symbol.toList, Text.isBlank c = false)
    (hline : (Text.lines source.toList)[index]? = some line) (o : Occurrence line symbol.toList)
    (halone : o.StandsAlone) (houtside : o.OutsideLiteral) :
    (∃ u ∈ find fits source symbol, u.line = index + 1 ∧ u.column = o.column) ↔ EdgesFit symbol.toList := by
  have hsymbol : Text.isBlankText symbol = false := isBlankText_eq_false hne hblank
  have hmatch := halone.isWord.stop_mem_iff (toList_ne_nil hsymbol)
  constructor
  · intro ⟨u, hu, hplace⟩
    obtain ⟨h, hh, hmade, -⟩ := exists_first_of_mem_reportedAt hline (mem_reportedAt.2 ⟨hu, hplace⟩)
    obtain ⟨o', hcolumn, hmatch'⟩ := Hit.exists_occurrence_of_mem_claimed (toList_ne_nil hsymbol) hh
    have ho : o' = o := by
      apply Occurrence.eq_of_column_eq
      rw [← hcolumn, ← hplace.2]
      exact (congrArg Usage.column hmade).symm
    rw [ho] at hmatch'
    exact hmatch.1 hmatch'
  · intro hedges
    have hprevious : ∀ c ∈ o.before.getLast?, c ∉ symbol.toList := by
      intro c hc hmem
      exact Bool.false_ne_true ((hblank c hmem).symm.trans (halone.1 c hc))
    have hlength := length_reportedAt_of_recognises hsymbol hline (mention_mem_made hfits)
      (mention_recognises (toList_ne_nil hsymbol) hprevious (hmatch.2 hedges) houtside)
    obtain ⟨u, hu⟩ := List.exists_mem_of_length_pos (hlength ▸ Nat.one_pos)
    exact ⟨u, mem_reportedAt.1 hu⟩

/-- A symbol that begins with a dollar sign asks for no edge there. -/
theorem find_standing_alone_dollar :
    ∃ o : Occurrence "x = $größe".toList "$größe".toList, o.column = 4 ∧ o.StandsAlone ∧ o.OutsideLiteral ∧
      EdgesFit "$größe".toList ∧ ∃ u ∈ find unlimited "\nx = $größe" "$größe", u.line = 2 ∧ u.column = 4 := by
  have hnone : "$größe".toList.any Text.isBlank = false := by decide
  have hblank : ∀ c ∈ "$größe".toList, Text.isBlank c = false := by simpa using hnone
  have hline : (Text.lines "\nx = $größe".toList)[1]? = some "x = $größe".toList := by decide
  have hedges : EdgesFit "$größe".toList := by decide
  refine ⟨⟨"x = ".toList, [], by decide⟩, rfl, by decide, by decide, hedges, ?_⟩
  exact (find_standing_alone rfl (by decide) hblank hline ⟨"x = ".toList, [], by decide⟩ (by decide)
    (by decide)).2 hedges

/-- A superscript digit is a name character, so the edge of a word is asked for beside it; it is no word
character, so there is none, and the symbol is not found though it stands alone. -/
theorem find_superscript_alone :
    (∀ c ∈ "²".toList, Text.isBlank c = false) ∧
      (∃ o : Occurrence "x ² y".toList "²".toList, o.column = 2 ∧ o.StandsAlone ∧ o.OutsideLiteral) ∧
      find unlimited "x ² y" "²" = [] := by
  have hnone : "²".toList.any Text.isBlank = false := by decide
  refine ⟨by simpa using hnone, ⟨⟨"x ".toList, " y".toList, by decide⟩, rfl, by decide, by decide⟩,
    by decide +kernel⟩

end Usage

end CodeAtlas
