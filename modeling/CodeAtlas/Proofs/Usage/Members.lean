import CodeAtlas.Proofs.Usage.TypeArguments
import Mathlib.Order.WellFounded

/-!
# Members

A symbol behind a dot is a member of what stands before the dot.  Two rules look for members: one for calls, one
for everything that is not called.  Both begin with a mark, and a mark cannot be mistaken for a part of a plain
symbol, so an occurrence is passed over only by a match that begins further left and reaches over its mark
(`Marks.exists_site`).

* `memberRead_recognises_iff` — for the second rule there is no such match: it ends with the symbol;
* `memberCall_recognises_iff` — for the first rule there is one exactly if the occurrence stands in what reads as
  the type arguments of another call of the same member.

No other rule but those for imports and exports comes before these two, and no rule for calls behind them takes a
called member but the one for mentions.  So a member that is not called is never reported as a call
(`Usage.find_member_reads`); a called one is reported as a method call unless it stands among type arguments, and
then it is a mere mention (`Usage.find_member_calls`, `Usage.find_compared_call`).
-/

namespace CodeAtlas

open Text (Cursor Matcher)

/-! ### Frames that begin with a mark -/

namespace Occurrence

variable {line part : List Char} {o : Occurrence line part}

/-- What is read on the way to the text stands before it. -/
theorem exists_reads_iff {mark : List Char} : (∃ d : Cursor, d.Reads mark o.start) ↔ mark <:+ o.before := by
  constructor
  · rintro ⟨d, hd⟩
    refine ⟨d.before.reverse, ?_⟩
    have hbefore := congrArg List.reverse hd.before_eq
    simpa [start] using hbefore.symm
  · rintro ⟨before, hbefore⟩
    refine ⟨⟨before.reverse, mark ++ o.start.after⟩, ?_, rfl⟩
    simp [start, ← hbefore]

theorem isMember_iff : o.IsMember ↔ ∃ mark ∈ ["?.", "."], mark.toList <:+ o.before := by
  have hdot : o.IsMember ↔ ['.'] <:+ o.before := by
    rw [IsMember, List.getLast?_eq_some_iff]
    exact ⟨fun ⟨l, hl⟩ => ⟨l, hl.symm⟩, fun ⟨l, hl⟩ => ⟨l, hl.symm⟩⟩
  rw [hdot]
  constructor
  · intro h
    exact ⟨".", by simp, h⟩
  · rintro ⟨mark, hmark, h⟩
    have hends : ['.'] <:+ mark.toList := by
      simp only [List.mem_cons, List.not_mem_nil, or_false] at hmark
      rcases hmark with rfl | rfl <;> decide
    exact hends.trans h

theorem isQualified_iff : o.IsQualified ↔ ∃ mark ∈ ["?.", ".", "::"], mark.toList <:+ o.before := by
  rw [IsQualified, isMember_iff]
  simp [or_assoc]

end Occurrence

/-- Marks of one or two characters that are not plain and no parentheses, no two of which begin alike. -/
structure Marks (marks : List String) : Prop where
  short : ∀ m ∈ marks, 1 ≤ m.toList.length ∧ m.toList.length ≤ 2
  foreign : ∀ m ∈ marks, (m.toList.all fun c => !Text.isPlain c && c ≠ '(') = true
  apart : ∀ m ∈ marks, ∀ m' ∈ marks, m.toList.head? = m'.toList.head? → m = m'

theorem marks_of_call : Marks ["?.", ".", "::"] := ⟨by decide, by decide, by decide⟩

theorem marks_of_read : Marks ["?.", "."] := ⟨by decide, by decide, by decide⟩

namespace Marks

variable {marks : List String} (hmarks : Marks marks) {line part : List Char} {o o' : Occurrence line part}

include hmarks

theorem not_mem {m : String} (hm : m ∈ marks) {x : Char} (hx : Text.isPlain x = true ∨ x = '(') :
    x ∉ m.toList := by
  intro hmem
  have hforeign := List.all_eq_true.1 (hmarks.foreign m hm) x hmem
  rcases hx with hx | hx <;> simp [hx] at hforeign

/-- From one place, marks lead to one place at most. -/
theorem eq_of_mem_words {d a b : Cursor} (ha : a ∈ Matcher.words marks d) (hb : b ∈ Matcher.words marks d) :
    a = b := by
  obtain ⟨m, hm, hma⟩ := Matcher.mem_words.1 ha
  obtain ⟨m', hm', hmb⟩ := Matcher.mem_words.1 hb
  have hhead : ∀ {m : String} {c : Cursor}, m ∈ marks → d.Reads m.toList c → d.after.head? = m.toList.head? := by
    intro m c hm hc
    have hne : m.toList ≠ [] := List.ne_nil_of_length_pos (hmarks.short m hm).1
    rw [hc.after_eq, List.head?_append_of_ne_nil _ hne]
  have hsame : m = m' := hmarks.apart m hm m' hm' ((hhead hm hma).symm.trans (hhead hm' hmb))
  rw [← hsame] at hmb
  exact hma.unique hmb

omit hmarks in
/-- The leftmost place from which a mark leads to the text. -/
theorem exists_leftmost (h : ∃ mark ∈ marks, mark.toList <:+ o.before) :
    ∃ d : Cursor, o.start ∈ Matcher.words marks d ∧
      ∀ e : Cursor, o.start ∈ Matcher.words marks e → d.column ≤ e.column := by
  obtain ⟨mark, hmark, hsuffix⟩ := h
  obtain ⟨d, hd⟩ := Occurrence.exists_reads_iff.2 hsuffix
  have hplace : {d : Cursor | o.start ∈ Matcher.words marks d}.Nonempty :=
    ⟨d, Matcher.mem_words.2 ⟨mark, hmark, hd⟩⟩
  obtain ⟨d, hd, hleast⟩ := (measure Cursor.column).wf.has_min _ hplace
  exact ⟨d, hd, fun e he => Nat.le_of_not_lt (hleast e he)⟩

/-- Further left there are only marks of occurrences further left. -/
theorem column_lt {d e : Cursor} (hd : o.start ∈ Matcher.words marks d)
    (hleast : ∀ e : Cursor, o.start ∈ Matcher.words marks e → d.column ≤ e.column)
    (he : o'.start ∈ Matcher.words marks e) (hlt : e.column < d.column) : o'.column < o.column := by
  obtain ⟨m, hm, hreads⟩ := Matcher.mem_words.1 hd
  obtain ⟨m', hm', hreads'⟩ := Matcher.mem_words.1 he
  have hcolumn := hreads.column_eq
  have hcolumn' := hreads'.column_eq
  rw [Occurrence.column_start] at hcolumn hcolumn'
  have hshort := hmarks.short m hm
  have hshort' := hmarks.short m' hm'
  by_contra hle
  have hsame : o' = o := Occurrence.eq_of_column_eq (by omega)
  rw [hsame] at he
  exact absurd (hleast e he) (Nat.not_le_of_lt hlt)

section

variable {f : Frame} (hlead : f.lead = Matcher.words marks) (hne : part ≠ [])
  (hplain : ∀ c ∈ part, Text.isPlain c = true)

include hlead hne hplain

omit hmarks in
theorem exists_occurrence_of_mem_matchesAt {e : Cursor} (he : e.line = line) {t : Site}
    (ht : t ∈ f.matchesAt (symbolMatcher part) e) :
    ∃ o : Occurrence line part, t.start = o.start ∧ t.stop = o.stop ∧ o.start ∈ Matcher.words marks e ∧ o.IsWord ∧
      t.frameEnd ∈ f.trail o.stop := by
  obtain ⟨hstart, hstop, hend⟩ := Frame.mem_matchesAt.1 ht
  rw [hlead] at hstart
  obtain ⟨m, hm, hreads⟩ := Matcher.mem_words.1 hstart
  obtain ⟨o, ho, ho'⟩ :=
    Occurrence.exists_of_reads (hreads.line_eq.trans he) (mem_symbolMatcher.1 hstop).1
  rw [ho] at hstart
  rw [ho, ho', Occurrence.stop_mem_iff_isWord hne hplain] at hstop
  rw [ho'] at hend
  exact ⟨o, ho, ho', hstart, hstop, hend⟩

/-- An occurrence behind a mark is found if no match of an earlier occurrence reaches over the mark. -/
theorem exists_site (hword : o.IsWord) (hmark : ∃ mark ∈ marks, mark.toList <:+ o.before) {c : Cursor}
    (hend : c ∈ f.trail o.stop)
    (hfree : ∀ {d e : Cursor} {o' : Occurrence line part}, o.start ∈ Matcher.words marks d →
      o'.start ∈ Matcher.words marks e → o'.IsWord → o'.column < o.column →
        ∀ c' ∈ f.trail o'.stop, c'.column ≤ d.column) :
    ∃ s ∈ f.sites (symbolMatcher part) line, s.start = o.start ∧ s.stop = o.stop ∧ s.frameEnd ∈ f.trail o.stop := by
  obtain ⟨d, hd, hleast⟩ := exists_leftmost hmark
  obtain ⟨m, hm, hreads⟩ := Matcher.mem_words.1 hd
  have hline : d.line = line := hreads.line_eq.symm.trans o.line_start
  have hahead : d.after ≠ [] := by
    rw [hreads.after_eq]
    exact List.append_ne_nil_of_left_ne_nil (List.ne_nil_of_length_pos (hmarks.short m hm).1) _
  have hhere : (⟨o.start, o.stop, c⟩ : Site) ∈ f.matchesAt (symbolMatcher part) d := by
    refine Frame.mem_matchesAt.2 ⟨?_, (Occurrence.stop_mem_iff_isWord hne hplain).2 hword, hend⟩
    rw [hlead]
    exact hd
  have hearlier : ∀ e : Cursor, e.line = d.line → e.column < d.column →
      ∀ t ∈ f.matchesAt (symbolMatcher part) e, t.frameEnd.column ≤ d.column := by
    intro e he hlt t ht
    obtain ⟨o', -, -, hstart, hword', hend'⟩ :=
      exists_occurrence_of_mem_matchesAt hlead hne hplain (he.trans hline) ht
    exact hfree hd hstart hword' (hmarks.column_lt hd hleast hstart hlt) _ hend'
  obtain ⟨s, hs, hsite⟩ := Frame.exists_mem_sites hahead (List.ne_nil_of_mem hhere) hearlier
  obtain ⟨o', hstart, hstop, hmark', -, hend'⟩ := exists_occurrence_of_mem_matchesAt hlead hne hplain hline hsite
  have hsame : o' = o := by
    apply Occurrence.eq_of_column_eq
    rw [← o'.column_start, ← o.column_start, hmarks.eq_of_mem_words hmark' hd]
  rw [hsame] at hstart hstop hend'
  rw [hline] at hs
  exact ⟨s, hs, hstart, hstop, hend'⟩

end

end Marks

/-! ### Members that are not called -/

namespace UsageRule

variable {line symbol : List Char} {o : Occurrence line symbol}

theorem notCalled_iff {s : Site} (hstop : s.stop = o.stop) : s.notCalled = true ↔ ¬ o.IsCalled := by
  rw [Site.notCalled, hstop, decide_eq_true_eq]
  rfl

/-- Only members that are not called are recognised as such, whatever the symbol is. -/
theorem member_of_memberRead (h : memberRead.recognises symbol line o.column = true) :
    o.IsMember ∧ ¬ o.IsCalled := by
  obtain ⟨d, s, hmatch, haccepts, hstart, hstop⟩ := exists_match_of_recognises (by simp [UsageRule.all]) h
  have hlead : s.start ∈ Matcher.words ["?.", "."] d := (Frame.mem_matchesAt.1 hmatch).1
  rw [hstart] at hlead
  obtain ⟨mark, hmark, hreads⟩ := Matcher.mem_words.1 hlead
  exact ⟨Occurrence.isMember_iff.2 ⟨mark, hmark, Occurrence.exists_reads_iff.1 ⟨d, hreads⟩⟩,
    (notCalled_iff hstop).1 haccepts⟩

section

variable (hne : symbol ≠ []) (hplain : ∀ c ∈ symbol, Text.isPlain c = true) (hword : o.IsWord)

include hne hplain hword

/-- An earlier occurrence ends with a character of the symbol, and no mark has one. -/
theorem stop_column_le_of_mark {d : Cursor} (hd : o.start ∈ Matcher.words ["?.", "."] d)
    {o' : Occurrence line symbol} (hlt : o'.column < o.column) : o'.stop.column ≤ d.column := by
  obtain ⟨mark, hmark, hreads⟩ := Matcher.mem_words.1 hd
  have hlast : symbol.getLast hne ∈ o'.stop.before.head? := by
    rw [Occurrence.stop, ← List.reverse_append, List.head?_reverse, List.getLast?_append_of_ne_nil _ hne]
    exact List.getLast?_eq_some_getLast hne
  have hforeign : symbol.getLast hne ∉ mark.toList :=
    marks_of_read.not_mem hmark (.inl (hplain _ (List.getLast_mem hne)))
  have hline : o'.stop.line = d.line := o'.line_stop.trans (o.line_start.symm.trans hreads.line_eq)
  by_contra hover
  have hinside := hreads.lt_column_of_not_mem hforeign hline hlast (Nat.lt_of_not_le hover)
  rw [o.column_start] at hinside
  exact absurd (hword.stop_column_le hplain hlt) (Nat.not_le_of_lt hinside)

theorem memberRead_recognises_iff :
    memberRead.recognises symbol line o.column = true ↔ o.IsMember ∧ ¬ o.IsCalled := by
  refine ⟨member_of_memberRead, ?_⟩
  rintro ⟨hmember, hcalled⟩
  have hend : o.stop ∈ memberRead.frame.trail o.stop := List.mem_singleton_self _
  have hfree : ∀ {d e : Cursor} {o' : Occurrence line symbol}, o.start ∈ Matcher.words ["?.", "."] d →
      o'.start ∈ Matcher.words ["?.", "."] e → o'.IsWord → o'.column < o.column →
        ∀ c ∈ memberRead.frame.trail o'.stop, c.column ≤ d.column := by
    intro d e o' hd _ _ hlt c hc
    rw [List.mem_singleton.1 hc]
    exact stop_column_le_of_mark hne hplain hword hd hlt
  obtain ⟨s, hs, hstart, hstop, -⟩ :=
    marks_of_read.exists_site rfl hne hplain hword (Occurrence.isMember_iff.1 hmember) hend hfree
  refine recognises_iff.2 ⟨s, List.mem_filter.2 ⟨hs, (notCalled_iff hstop).2 hcalled⟩, ?_⟩
  rw [hstart, o.column_start]

/-! ### Members that are called -/

/-- A call of an earlier occurrence that reaches over the mark takes in the later one: it ends with a parenthesis,
and neither the mark nor the symbol has one. -/
theorem callEnd_column_le (hfree : ¬ o.InTypeArguments) {d e c : Cursor}
    (hd : o.start ∈ Matcher.words ["?.", ".", "::"] d) {o' : Occurrence line symbol}
    (he : o'.start ∈ Matcher.words ["?.", ".", "::"] e) (hword' : o'.IsWord) (hlt : o'.column < o.column)
    (hc : c ∈ callTrail o'.stop) : c.column ≤ d.column := by
  obtain ⟨gap, hgap, hreads'⟩ := mem_callTrail.1 hc
  obtain ⟨mark, hmark, hreads⟩ := Matcher.mem_words.1 hd
  obtain ⟨mark', hmark', hlead⟩ := Matcher.mem_words.1 he
  have hqualified : o'.IsQualified :=
    Occurrence.isQualified_iff.2 ⟨mark', hmark', Occurrence.exists_reads_iff.1 ⟨e, hlead⟩⟩
  have hlast : '(' ∈ c.before.head? := by
    rw [hreads'.before_eq]
    simp
  have hforeign : '(' ∉ mark.toList ++ symbol := by
    simp [marks_of_call.not_mem hmark (.inr rfl), Occurrence.not_mem_part hplain (x := '(') (by decide)]
  have hline : c.line = d.line :=
    hreads'.line_eq.trans (o'.line_stop.trans (o.line_start.symm.trans hreads.line_eq))
  by_contra hover
  have hbeyond := (hreads.trans o.start_reads).lt_column_of_not_mem hforeign hline hlast (Nat.lt_of_not_le hover)
  exact hfree ⟨o', Occurrence.encloses_of_reads hplain hne hword' hqualified
    (hword.stop_column_le hplain hlt) hgap hreads' hbeyond⟩

/-- An occurrence that reads as a call is found if no other one takes it in. -/
theorem exists_memberCall_site (hqualified : o.IsQualified) (hcall : o.ReadsAsCall) (hfree : ¬ o.InTypeArguments) :
    ∃ s ∈ memberCall.frame.sites (symbolMatcher symbol) line,
      s.start = o.start ∧ s.frameEnd ∈ callTrail o.stop := by
  obtain ⟨c, hend⟩ := Occurrence.readsAsCall_iff.1 hcall
  obtain ⟨s, hs, hstart, -, hend⟩ := marks_of_call.exists_site (f := memberCall.frame) rfl hne hplain hword
    (Occurrence.isQualified_iff.1 hqualified) hend
    fun hd he hword' hlt _ hc => callEnd_column_le hne hplain hword hfree hd he hword' hlt hc
  exact ⟨s, hs, hstart, hend⟩

omit hword in
/-- The leftmost of all occurrences that take another one in is found, and its call is read beyond the other. -/
theorem exists_site_of_inTypeArguments (h : o.InTypeArguments) :
    ∃ s ∈ memberCall.frame.sites (symbolMatcher symbol) line,
      s.start.column < o.column ∧ o.column < s.frameEnd.column := by
  obtain ⟨o', hencloses, hleast⟩ := (measure Occurrence.column).wf.has_min {o' | o'.Encloses o} h
  have hfree : ¬ o'.InTypeArguments := by
    rintro ⟨o'', h''⟩
    exact hleast o'' (h''.trans hplain hencloses) h''.column_lt
  obtain ⟨s, hs, hstart, hend⟩ :=
    exists_memberCall_site hne hplain hencloses.1 hencloses.2.1 (hencloses.readsAsCall hplain) hfree
  refine ⟨s, hs, ?_, hencloses.column_lt_of_mem_callTrail hend⟩
  rw [hstart, o'.column_start]
  exact hencloses.column_lt

omit hword in
theorem not_inTypeArguments_of_memberCall (h : memberCall.recognises symbol line o.column = true) :
    ¬ o.InTypeArguments := by
  intro henclosed
  obtain ⟨s, hs, hcolumn⟩ := recognises_iff.1 h
  obtain ⟨s', hs', hbefore, hover⟩ := exists_site_of_inTypeArguments hne hplain henclosed
  rw [← hcolumn] at hbefore hover
  have hend := frameEnd_le_of_mem_sites (by simp [UsageRule.all]) hne hs' (List.mem_filter.1 hs).1 hbefore
  exact absurd hend (Nat.not_le_of_lt hover)

/-- The rule for calls of members recognises what stands behind a mark and reads as a call, unless it stands in
what reads as the type arguments of another call. -/
theorem memberCall_recognises_iff :
    memberCall.recognises symbol line o.column = true ↔
      o.IsQualified ∧ o.ReadsAsCall ∧ ¬ o.InTypeArguments := by
  constructor
  · intro h
    obtain ⟨d, s, hmatch, -, hstart, hstop⟩ := exists_match_of_recognises (by simp [UsageRule.all]) h
    obtain ⟨hlead, -, hend⟩ := Frame.mem_matchesAt.1 hmatch
    rw [hstart] at hlead
    rw [hstop] at hend
    obtain ⟨mark, hmark, hreads⟩ := Matcher.mem_words.1 hlead
    exact ⟨Occurrence.isQualified_iff.2 ⟨mark, hmark, Occurrence.exists_reads_iff.1 ⟨d, hreads⟩⟩,
      Occurrence.readsAsCall_iff.2 ⟨_, hend⟩, not_inTypeArguments_of_memberCall hne hplain h⟩
  · rintro ⟨hqualified, hcall, hfree⟩
    obtain ⟨s, hs, hstart, -⟩ := exists_memberCall_site hne hplain hword hqualified hcall hfree
    refine recognises_iff.2 ⟨s, List.mem_filter.2 ⟨hs, rfl⟩, ?_⟩
    rw [hstart, o.column_start]

theorem mention_recognises_iff : mention.recognises symbol line o.column = true ↔ o.OutsideLiteral := by
  refine ⟨outsideLiteral_of_mention, ?_⟩
  intro houtside
  refine mention_recognises hne ?_ ((Occurrence.stop_mem_iff_isWord hne hplain).2 hword) houtside
  intro c hc hmem
  exact Bool.false_ne_true ((hword.1 c hc).symm.trans (Text.isWord_of_isPlain (hplain c hmem)))

end

/-! ### Rules that no member meets -/

/-- Behind `new` there is a blank, and before a member there is a dot. -/
theorem construction_eq_false (hmember : o.IsMember) : construction.recognises symbol line o.column = false := by
  apply Bool.eq_false_iff.2
  intro h
  obtain ⟨d, s, hmatch, -, hstart, -⟩ := exists_match_of_recognises (by simp [UsageRule.all]) h
  have hlead := (Frame.mem_matchesAt.1 hmatch).1
  rw [hstart] at hlead
  simp only [construction, Matcher.mem_all_cons, Matcher.all_singleton] at hlead
  obtain ⟨-, -, e, -, hblanks⟩ := hlead
  obtain ⟨run, hrun_ne, hrun, hreads⟩ := Matcher.exists_run_of_mem_someBlanks₁ hblanks
  obtain ⟨before, hbefore⟩ := Occurrence.exists_reads_iff.1 ⟨e, hreads⟩
  have hdot : run.getLast? = some '.' := by
    rw [← List.getLast?_append_of_ne_nil before hrun_ne, hbefore]
    exact hmember
  exact absurd (hrun '.' (List.mem_of_getLast? hdot)) (by decide)

theorem bareCall_eq_false (hmember : o.IsMember) : bareCall.recognises symbol line o.column = false := by
  apply Bool.eq_false_iff.2
  intro h
  obtain ⟨d, s, -, haccepts, hstart, -⟩ := exists_match_of_recognises (by simp [UsageRule.all]) h
  obtain ⟨before, hbefore⟩ := List.getLast?_eq_some_iff.1 hmember
  have hdot : s.leading.head? = some '.' := by
    rw [Site.leading, hstart, Occurrence.start, hbefore, List.reverse_concat]
    rfl
  have hnot : s.notMember = true := haccepts
  simp [Site.notMember, hdot] at hnot

end UsageRule

/-! ### Members in a text -/

namespace Usage

open UsageRule

variable {fits : Capacity} {source symbol : String} {index : ℕ} {line : List Char}

/-- The kinds of what is reported at a place. -/
def kindsAt (fits : Capacity) (source symbol : String) (line column : ℕ) : List UsageKind :=
  (reportedAt fits source symbol line column).map Usage.kind

section

variable (hfits : AllFit fits symbol.toList) (hsymbol : Text.isBlankText symbol = false)
  (hline : (Text.lines source.toList)[index]? = some line) {column : ℕ}

include hfits hsymbol hline

theorem kindsAt_of_listed (h : ∃ rule ∈ imports ++ exports, rule.recognises symbol.toList line column = true) :
    kindsAt fits source symbol (index + 1) column = [.imported] ∨
      kindsAt fits source symbol (index + 1) column = [.exported] := by
  rw [kindsAt, map_kind_reportedAt hsymbol hline, first?, made_eq_all hfits, all_eq, ← List.append_assoc,
    List.find?_append]
  obtain ⟨rule, hfind⟩ := Option.isSome_iff_exists.1 (List.find?_isSome.2 h)
  rw [hfind, Option.some_or]
  have hkinds : ∀ rule ∈ imports ++ exports, rule.kind = .imported ∨ rule.kind = .exported := by decide
  rcases hkinds rule (List.mem_of_find?_eq_some hfind) with hkind | hkind
  · exact .inl (by rw [Option.map_some, hkind, Option.toList_some])
  · exact .inr (by rw [Option.map_some, hkind, Option.toList_some])

theorem kindsAt_of_not_listed
    (h : ∀ rule ∈ imports ++ exports, rule.recognises symbol.toList line column = false) :
    kindsAt fits source symbol (index + 1) column =
      ((references.find? fun rule => rule.recognises symbol.toList line column).map UsageRule.kind).toList := by
  have hnone : (imports ++ exports).find? (fun rule => rule.recognises symbol.toList line column) = none := by
    apply List.find?_eq_none.2
    intro rule hrule
    exact Bool.eq_false_iff.1 (h rule hrule)
  rw [kindsAt, map_kind_reportedAt hsymbol hline, first?, made_eq_all hfits, all_eq, ← List.append_assoc,
    List.find?_append, hnone, Option.none_or]

/-- Three rules are left for a member that is neither imported nor exported. -/
theorem kindsAt_of_member {o : Occurrence line symbol.toList} (hmember : o.IsMember)
    (h : ∀ rule ∈ imports ++ exports, rule.recognises symbol.toList line o.column = false) :
    kindsAt fits source symbol (index + 1) o.column =
      if memberCall.recognises symbol.toList line o.column then [.method]
      else if memberRead.recognises symbol.toList line o.column then [.property]
      else if mention.recognises symbol.toList line o.column then [.call]
      else [] := by
  rw [kindsAt_of_not_listed hfits hsymbol hline h]
  simp only [references, List.find?_cons, construction_eq_false hmember, bareCall_eq_false hmember]
  cases memberCall.recognises symbol.toList line o.column with
  | true => rfl
  | false =>
    cases memberRead.recognises symbol.toList line o.column with
    | true => rfl
    | false =>
      cases mention.recognises symbol.toList line o.column with
      | true => rfl
      | false => rfl

end

/-- There is one rule for properties. -/
theorem memberRead_of_property {h : Hit} (hne : symbol.toList ≠ [])
    (hh : h ∈ Hit.claimed (made fits symbol.toList) symbol.toList line) (hkind : h.rule.kind = .property) :
    memberRead.recognises symbol.toList line h.column = true := by
  obtain ⟨hrule, hsite⟩ := Hit.made_of_mem_claimed hne hh
  have hothers : ∀ rule ∈ imports ++ exports ++ [construction, memberCall, bareCall, mention],
      rule.kind ≠ .property := by decide
  have hread : h.rule = memberRead := by
    by_contra hother
    refine hothers h.rule ?_ hkind
    simp only [UsageRule.all, List.mem_cons, List.not_mem_nil, or_false] at hrule
    simpa [imports, exports, hother] using hrule
  rw [← hread]
  exact recognises_iff.2 ⟨h.site, hsite, h.column_eq.symm⟩

/-- **A called member is a method call, unless it stands among type arguments.**  Let all rules be made for a
plain symbol, and let it stand as a word of its own right behind a dot, followed by an opening parenthesis.  If a
rule for imports or exports recognises it there, it is reported as imported or exported.  Otherwise it is reported
as a method call, with one exception: in what reads as the type arguments of another call of the same member it is
a mere mention, reported as a call outside of string literals and not at all inside of them. -/
theorem find_member_calls (hfits : AllFit fits symbol.toList) (hne : symbol ≠ "")
    (hplain : ∀ c ∈ symbol.toList, Text.isPlain c = true)
    (hline : (Text.lines source.toList)[index]? = some line) (o : Occurrence line symbol.toList)
    (hword : o.IsWord) (hmember : o.IsMember) (hcalled : o.IsCalled) :
    ((∃ rule ∈ imports ++ exports, rule.recognises symbol.toList line o.column = true) →
      kindsAt fits source symbol (index + 1) o.column = [.imported] ∨
        kindsAt fits source symbol (index + 1) o.column = [.exported]) ∧
    ((∀ rule ∈ imports ++ exports, rule.recognises symbol.toList line o.column = false) →
      (¬ o.InTypeArguments → kindsAt fits source symbol (index + 1) o.column = [.method]) ∧
      (o.InTypeArguments →
        kindsAt fits source symbol (index + 1) o.column = if o.OutsideLiteral then [.call] else [])) := by
  have hsymbol : Text.isBlankText symbol = false :=
    isBlankText_eq_false hne fun c hc => Text.isBlank_of_isPlain (hplain c hc)
  have hlist := toList_ne_nil hsymbol
  refine ⟨kindsAt_of_listed hfits hsymbol hline, ?_⟩
  intro hlisted
  have hread : ¬ memberRead.recognises symbol.toList line o.column = true := by
    intro h
    exact (member_of_memberRead h).2 hcalled
  have hcall := memberCall_recognises_iff hlist hplain hword
  have hmention := mention_recognises_iff hlist hplain hword
  rw [kindsAt_of_member hfits hsymbol hline hmember hlisted, if_neg hread]
  constructor
  · intro hfree
    exact if_pos (hcall.2 ⟨.inl hmember, hcalled.readsAsCall, hfree⟩)
  · intro henclosed
    rw [if_neg fun h => (hcall.1 h).2.2 henclosed]
    exact if_congr hmention rfl rfl

/-- A called member without angle brackets around it, and one between two comparisons. -/
theorem find_member_calls_compared :
    (∃ o : Occurrence "b.foo(a.foo)".toList "foo".toList, o.column = 2 ∧ o.IsWord ∧ o.IsMember ∧ o.IsCalled ∧
      ¬ o.InTypeArguments ∧
      kindsAt unlimited "b.foo(a.foo)\nif (a.foo < b.foo() && c > (d)) return" "foo" 1 2 = [.method]) ∧
    ∃ o : Occurrence "if (a.foo < b.foo() && c > (d)) return".toList "foo".toList,
      o.column = 14 ∧ o.IsWord ∧ o.IsMember ∧ o.IsCalled ∧ o.InTypeArguments ∧
      kindsAt unlimited "b.foo(a.foo)\nif (a.foo < b.foo() && c > (d)) return" "foo" 2 14 = [.call] := by
  have hplain : ∀ c ∈ "foo".toList, Text.isPlain c = true := List.all_eq_true.1 (by decide)
  constructor
  · let o : Occurrence "b.foo(a.foo)".toList "foo".toList := ⟨"b.".toList, "(a.foo)".toList, by decide⟩
    have hfree : ¬ o.InTypeArguments := fun h => absurd h.mem_before (by decide)
    refine ⟨o, rfl, by decide, by decide, by decide, hfree, ?_⟩
    exact ((find_member_calls (fun _ _ => rfl) (by decide) hplain (by decide) o (by decide) (by decide) (by decide)).2
      (by decide +kernel)).1 hfree
  · let o : Occurrence "if (a.foo < b.foo() && c > (d)) return".toList "foo".toList :=
      ⟨"if (a.foo < b.".toList, "() && c > (d)) return".toList, by decide⟩
    have henclosed : o.InTypeArguments :=
      ⟨⟨"if (a.".toList, " < b.foo() && c > (d)) return".toList, by decide⟩, by decide, .inl (by decide), " ".toList,
        " b.".toList, "() && c ".toList, " ".toList, "d)) return".toList, by decide, by decide,
        List.all_eq_true.1 (by decide), List.all_eq_true.1 (by decide), by decide, by decide⟩
    refine ⟨o, rfl, by decide, by decide, by decide, henclosed, ?_⟩
    exact ((find_member_calls (fun _ _ => rfl) (by decide) hplain (by decide) o (by decide) (by decide) (by decide)).2
      (by decide +kernel)).2 henclosed

/-- A member that is called between two comparisons is no method call, though no import or export is around. -/
theorem find_compared_call :
    (∃ o : Occurrence "if (a.foo < b.foo() && c > (d)) return".toList "foo".toList,
      o.column = 14 ∧ o.IsWord ∧ o.IsMember ∧ o.IsCalled ∧
      ∀ rule ∈ imports ++ exports,
        rule.recognises "foo".toList "if (a.foo < b.foo() && c > (d)) return".toList o.column = false) ∧
    kindsAt unlimited "if (a.foo < b.foo() && c > (d)) return" "foo" 1 14 = [.call] := by
  have hline : (Text.lines "if (a.foo < b.foo() && c > (d)) return".toList)[0]? =
      some "if (a.foo < b.foo() && c > (d)) return".toList := by decide
  constructor
  · exact ⟨⟨"if (a.foo < b.".toList, "() && c > (d)) return".toList, by decide⟩, rfl, by decide, by decide,
      by decide, by decide +kernel⟩
  · rw [kindsAt, map_kind_reportedAt (by decide) hline]
    decide +kernel

/-- **A member that is not called is never reported as a call.**  Let all rules be made for a plain symbol, and
let it stand as a word of its own right behind a dot, with no opening parenthesis behind it.  If a rule for imports
or exports recognises it there, it is reported as imported or exported.  Otherwise it is a method call if it has
type arguments and is not among those of another call, and a property if not.  Conversely, whatever the symbol is
and whichever rules are made for it, a property is reported only at a member that is not called. -/
theorem find_member_reads (fits : Capacity) (source symbol : String) :
    (AllFit fits symbol.toList → symbol ≠ "" → (∀ c ∈ symbol.toList, Text.isPlain c = true) →
      ∀ index line, (Text.lines source.toList)[index]? = some line → ∀ o : Occurrence line symbol.toList,
        o.IsWord → o.IsMember → ¬ o.IsCalled →
        ((∃ rule ∈ imports ++ exports, rule.recognises symbol.toList line o.column = true) →
          kindsAt fits source symbol (index + 1) o.column = [.imported] ∨
            kindsAt fits source symbol (index + 1) o.column = [.exported]) ∧
        ((∀ rule ∈ imports ++ exports, rule.recognises symbol.toList line o.column = false) →
          (o.ReadsAsCall ∧ ¬ o.InTypeArguments → kindsAt fits source symbol (index + 1) o.column = [.method]) ∧
          (¬ (o.ReadsAsCall ∧ ¬ o.InTypeArguments) →
            kindsAt fits source symbol (index + 1) o.column = [.property]))) ∧
    ∀ u ∈ find fits source symbol, u.kind = .property →
      ∃ index line, (Text.lines source.toList)[index]? = some line ∧ u.line = index + 1 ∧
        ∃ o : Occurrence line symbol.toList, u.column = o.column ∧ o.IsMember ∧ ¬ o.IsCalled := by
  constructor
  · intro hfits hne hplain index line hline o hword hmember hcalled
    have hsymbol : Text.isBlankText symbol = false :=
      isBlankText_eq_false hne fun c hc => Text.isBlank_of_isPlain (hplain c hc)
    have hlist := toList_ne_nil hsymbol
    refine ⟨kindsAt_of_listed hfits hsymbol hline, ?_⟩
    intro hlisted
    have hread := (memberRead_recognises_iff hlist hplain hword).2 ⟨hmember, hcalled⟩
    have hcall := memberCall_recognises_iff hlist hplain hword
    rw [kindsAt_of_member hfits hsymbol hline hmember hlisted, if_pos hread]
    constructor
    · intro htyped
      exact if_pos (hcall.2 ⟨.inl hmember, htyped⟩)
    · intro huntyped
      exact if_neg fun h => huntyped (hcall.1 h).2
  · intro u hu hproperty
    obtain ⟨hsymbol, index, line, h, hline, hh, halone⟩ := exists_hit_of_mem_find hu
    obtain ⟨o, hcolumn, -⟩ := Hit.exists_occurrence_of_mem_claimed (toList_ne_nil hsymbol) hh
    have hrow : u.line = index + 1 := congrArg Usage.line halone
    have hplace : u.column = o.column := (congrArg Usage.column halone).trans hcolumn
    refine ⟨index, line, hline, hrow, o, hplace, ?_⟩
    have hkind : h.rule.kind = .property := (congrArg Usage.kind halone).symm.trans hproperty
    have hread := memberRead_of_property (toList_ne_nil hsymbol) hh hkind
    rw [hcolumn] at hread
    exact member_of_memberRead hread

/-- In a chain each member is found, also behind a question mark; the last one here has type arguments. -/
theorem find_member_reads_chain :
    (∃ o : Occurrence "a.foo?.foo .foo<T>()".toList "foo".toList,
      o.column = 7 ∧ o.IsWord ∧ o.IsMember ∧ ¬ o.IsCalled ∧ ¬ o.ReadsAsCall ∧
      kindsAt unlimited "a.foo?.foo .foo<T>()" "foo" 1 7 = [.property]) ∧
    (∃ o : Occurrence "a.foo?.foo .foo<T>()".toList "foo".toList,
      o.column = 12 ∧ o.IsWord ∧ o.IsMember ∧ ¬ o.IsCalled ∧ o.ReadsAsCall ∧ ¬ o.InTypeArguments ∧
      kindsAt unlimited "a.foo?.foo .foo<T>()" "foo" 1 12 = [.method]) ∧
    ∃ u ∈ find unlimited "a.foo?.foo .foo<T>()" "foo", u.kind = .property ∧
      ∃ index line, (Text.lines "a.foo?.foo .foo<T>()".toList)[index]? = some line ∧ u.line = index + 1 ∧
        ∃ o : Occurrence line "foo".toList, u.column = o.column ∧ o.IsMember ∧ ¬ o.IsCalled := by
  have hplain : ∀ c ∈ "foo".toList, Text.isPlain c = true := List.all_eq_true.1 (by decide)
  obtain ⟨hreads, hproperty⟩ := find_member_reads unlimited "a.foo?.foo .foo<T>()" "foo"
  have hreads := hreads (fun _ _ => rfl) (by decide) hplain 0 "a.foo?.foo .foo<T>()".toList (by decide)
  let middle : Occurrence "a.foo?.foo .foo<T>()".toList "foo".toList :=
    ⟨"a.foo?.".toList, " .foo<T>()".toList, by decide⟩
  let last : Occurrence "a.foo?.foo .foo<T>()".toList "foo".toList :=
    ⟨"a.foo?.foo .".toList, "<T>()".toList, by decide⟩
  have hmiddle : kindsAt unlimited "a.foo?.foo .foo<T>()" "foo" 1 7 = [.property] :=
    ((hreads middle (by decide) (by decide) (by decide)).2 (by decide +kernel)).2
      fun h => absurd h.1 (by decide)
  have hfree : ¬ last.InTypeArguments := fun h => absurd h.mem_before (by decide)
  have hlast : kindsAt unlimited "a.foo?.foo .foo<T>()" "foo" 1 12 = [.method] :=
    ((hreads last (by decide) (by decide) (by decide)).2 (by decide +kernel)).1 ⟨by decide, hfree⟩
  refine ⟨⟨middle, rfl, by decide, by decide, by decide, by decide, hmiddle⟩,
    ⟨last, rfl, by decide, by decide, by decide, by decide, hfree, hlast⟩, ?_⟩
  have hmem : UsageKind.property ∈ kindsAt unlimited "a.foo?.foo .foo<T>()" "foo" 1 7 := by
    rw [hmiddle]
    exact List.mem_singleton_self _
  obtain ⟨u, hu, hkind⟩ := List.mem_map.1 hmem
  have hfind := (mem_reportedAt.1 hu).1
  exact ⟨u, hfind, hkind, hproperty u hfind hkind⟩

end Usage

end CodeAtlas
