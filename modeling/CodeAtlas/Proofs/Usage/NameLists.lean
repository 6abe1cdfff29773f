import CodeAtlas.Proofs.Usage.Mention

/-!
# Lists of names

An import or an export may list names between braces.  The rules for such lists are tied to the start of the
line and take the shortest way to the symbol, so each of them recognises one occurrence on a line: the first one
in the list (`NameList.recognises_iff`).

The other rules for imports and exports find nothing in a list, except for two that look for an equals sign
beside the symbol.  So a name is reported as imported or exported where it stands first, and another mention of
it in the same list is not (`find_listed_names`, `find_listed_twice`).
-/

namespace CodeAtlas

open Text (Cursor Matcher)

/-- Is there no occurrence as a word of its own further left? -/
def Occurrence.IsFirst {line part : List Char} (o : Occurrence line part) : Prop :=
  ∀ o' : Occurrence line part, o'.IsWord → o.column ≤ o'.column

/-- A line that opens with a word and a list of names between braces. -/
structure NameList (word : String) (line : List Char) where
  indent : List Char
  gap : List Char
  body : List Char
  rest : List Char
  line_eq : line = indent ++ (word.toList ++ (gap ++ '\x7b' :: (body ++ '\x7d' :: rest)))
  indent_blank : ∀ c ∈ indent, Text.isBlank c = true
  gap_blank : ∀ c ∈ gap, Text.isBlank c = true
  closed : '\x7d' ∉ body

namespace NameList

variable {word : String} {line part : List Char} (l : NameList word line)

/-- The line up to the list. -/
def opening : List Char := l.indent ++ word.toList ++ l.gap ++ ['\x7b']

/-- The place of the word. -/
def atWord : Cursor := ⟨l.indent.reverse, word.toList ++ (l.gap ++ '\x7b' :: (l.body ++ '\x7d' :: l.rest))⟩

/-- The place behind the word. -/
def afterWord : Cursor :=
  ⟨word.toList.reverse ++ l.indent.reverse, l.gap ++ '\x7b' :: (l.body ++ '\x7d' :: l.rest)⟩

/-- The place before the brace. -/
def atBrace : Cursor :=
  ⟨l.gap.reverse ++ (word.toList.reverse ++ l.indent.reverse), '\x7b' :: (l.body ++ '\x7d' :: l.rest)⟩

/-- The place behind the brace. -/
def inside : Cursor := ⟨l.opening.reverse, l.body ++ '\x7d' :: l.rest⟩

theorem line_eq_opening : line = l.opening ++ (l.body ++ '\x7d' :: l.rest) := by
  rw [opening, List.append_assoc, List.append_assoc, List.append_assoc]
  exact l.line_eq

theorem line_ne_nil (l : NameList word line) : line ≠ [] := by
  intro hnil
  have hline := hnil.symm.trans l.line_eq
  simp at hline

/-! ### Occurrences in a list -/

/-- An occurrence in the list as one on the line. -/
def inLine (p : Occurrence l.body part) : Occurrence line part where
  before := l.opening ++ p.before
  after := p.after ++ '\x7d' :: l.rest
  line_eq := by
    have hline := l.line_eq_opening
    rw [p.line_eq] at hline
    simpa using hline

variable {l} {p : Occurrence l.body part}

theorem column_inLine : (l.inLine p).column = l.opening.length + p.column := List.length_append

/-- No word goes on over a brace. -/
theorem isWord_inLine_iff : (l.inLine p).IsWord ↔ p.IsWord := by
  have hbefore : (∀ c ∈ (l.opening ++ p.before).getLast?, Text.isWord c = false) ↔
      ∀ c ∈ p.before.getLast?, Text.isWord c = false := by
    by_cases hnil : p.before = []
    · have hbrace : Text.isWord '\x7b' = false := by decide
      simp [hnil, opening, hbrace]
    · rw [List.getLast?_append_of_ne_nil _ hnil]
  have hafter : (∀ c ∈ (p.after ++ '\x7d' :: l.rest).head?, Text.isWord c = false) ↔
      ∀ c ∈ p.after.head?, Text.isWord c = false := by
    by_cases hnil : p.after = []
    · have hbrace : Text.isWord '\x7d' = false := by decide
      simp [hnil, hbrace]
    · rw [List.head?_append_of_ne_nil _ hnil]
  exact and_congr hbefore hafter

/-- The shortest way from the brace to an occurrence. -/
theorem reads_inside (p : Occurrence l.body part) : l.inside.Reads p.before (l.inLine p).start := by
  constructor
  · exact List.reverse_append
  · show l.body ++ '\x7d' :: l.rest = p.before ++ (part ++ (p.after ++ '\x7d' :: l.rest))
    rw [← List.append_assoc, ← List.append_assoc, ← p.line_eq]

/-- A symbol behind a run without a closing brace is one in the list. -/
theorem exists_occurrence (hplain : ∀ c ∈ part, Text.isPlain c = true) {run : List Char}
    (hrun : ∀ x ∈ run, decide (x ≠ '\x7d') = true) {c d : Cursor} (hc : l.inside.Reads run c)
    (hd : c.Reads part d) : ∃ p : Occurrence l.body part, c = (l.inLine p).start ∧ d = (l.inLine p).stop := by
  have hline : run ++ part ++ d.after = l.body ++ '\x7d' :: l.rest := by
    rw [List.append_assoc, ← hd.after_eq]
    exact hc.after_eq.symm
  have hopen : '\x7d' ∉ run ++ part := by
    intro hmem
    rcases List.mem_append.1 hmem with hmem | hmem
    · exact absurd rfl (of_decide_eq_true (hrun _ hmem))
    · exact absurd (hplain _ hmem) (by decide)
  obtain ⟨more, hbody, -⟩ := Text.exists_eq_append_of_not_mem hline hopen
  let p : Occurrence l.body part := ⟨run, more, hbody⟩
  have hstart : c = (l.inLine p).start := hc.unique (reads_inside p)
  refine ⟨p, hstart, ?_⟩
  rw [hstart] at hd
  exact hd.unique (l.inLine p).start_reads

/-! ### The first name -/

section

variable {f : Frame} (hanchored : f.Anchored)
  (hlead : f.lead (Cursor.start line) = Matcher.lazily (· ≠ '\x7d') l.inside) (htrail : f.trail = Matcher.empty)
  (hne : part ≠ []) (hplain : ∀ c ∈ part, Text.isPlain c = true)

include hlead hne hplain

theorem exists_occurrence_of_mem_matchesAt {s : Site}
    (hs : s ∈ f.matchesAt (symbolMatcher part) (Cursor.start line)) :
    ∃ p : Occurrence l.body part, p.IsWord ∧ s.start = (l.inLine p).start := by
  obtain ⟨hstart, hstop, -⟩ := Frame.mem_matchesAt.1 hs
  rw [hlead] at hstart
  obtain ⟨run, hrun, hreads⟩ := Matcher.mem_runs.1 hstart
  obtain ⟨p, hp, hp'⟩ := exists_occurrence hplain hrun hreads (mem_symbolMatcher.1 hstop).1
  rw [hp, hp', Occurrence.stop_mem_iff_isWord hne hplain] at hstop
  exact ⟨p, isWord_inLine_iff.1 hstop, hp⟩

include htrail

theorem exists_mem_matchesAt {p : Occurrence l.body part} (hword : p.IsWord) :
    ∃ s ∈ f.matchesAt (symbolMatcher part) (Cursor.start line), s.start = (l.inLine p).start := by
  refine ⟨⟨(l.inLine p).start, (l.inLine p).stop, (l.inLine p).stop⟩, Frame.mem_matchesAt.2 ⟨?_, ?_, ?_⟩, rfl⟩
  · rw [hlead]
    refine Matcher.mem_runs.2 ⟨p.before, ?_, reads_inside p⟩
    intro x hx
    apply decide_eq_true
    intro hbrace
    rw [hbrace] at hx
    apply l.closed
    rw [p.line_eq]
    exact List.mem_append_left _ (List.mem_append_left _ hx)
  · exact (Occurrence.stop_mem_iff_isWord hne hplain).2 (isWord_inLine_iff.2 hword)
  · rw [htrail]
    exact List.mem_singleton_self _

include hanchored

theorem exists_site_iff {p : Occurrence l.body part} (hword : p.IsWord) :
    (∃ s ∈ f.sites (symbolMatcher part) line, s.start.column = (l.inLine p).column) ↔ p.IsFirst := by
  have hsorted : (f.lead (Cursor.start line)).Pairwise fun c d => c.column < d.column := by
    rw [hlead]
    exact Matcher.pairwise_runs _ _ _
  have hsites : ∀ s, s ∈ f.sites (symbolMatcher part) line ↔
      (f.matchesAt (symbolMatcher part) (Cursor.start line)).head? = some s := by
    intro s
    rw [hanchored.sites_eq l.line_ne_nil, Option.mem_toList]
  -- the site is the leftmost match, and the matches are the occurrences in the list
  constructor
  · intro ⟨s, hs, hcolumn⟩ p' hword'
    obtain ⟨t, ht, hstart⟩ := exists_mem_matchesAt hlead htrail hne hplain hword'
    have hle := Frame.column_le_of_head? hsorted ((hsites s).1 hs) ht
    rw [hcolumn, hstart, Occurrence.column_start, column_inLine, column_inLine] at hle
    exact Nat.le_of_add_le_add_left hle
  · intro hfirst
    obtain ⟨t, ht, hstart⟩ := exists_mem_matchesAt hlead htrail hne hplain hword
    obtain ⟨s, hs⟩ := Option.isSome_iff_exists.1 (List.isSome_head?.2 (List.ne_nil_of_mem ht))
    refine ⟨s, (hsites s).2 hs, ?_⟩
    have hle := Frame.column_le_of_head? hsorted hs ht
    obtain ⟨p', hword', hstart'⟩ :=
      exists_occurrence_of_mem_matchesAt hlead hne hplain (List.mem_of_head? hs)
    have hge := hfirst p' hword'
    rw [hstart, hstart', Occurrence.column_start, Occurrence.column_start, column_inLine, column_inLine] at hle
    rw [hstart', Occurrence.column_start, column_inLine, column_inLine]
    omega

end

/-- A rule that takes the shortest way from the opening brace recognises the first occurrence in the list and no
other. -/
theorem recognises_iff {rule : UsageRule} (hanchored : rule.frame.Anchored)
    (hlead : rule.frame.lead (Cursor.start line) = Matcher.lazily (· ≠ '\x7d') l.inside)
    (htrail : rule.frame.trail = Matcher.empty) (haccepts : rule.accepts = fun _ => true) (hne : part ≠ [])
    (hplain : ∀ c ∈ part, Text.isPlain c = true) {p : Occurrence l.body part} (hword : p.IsWord) :
    rule.recognises part line (l.inLine p).column = true ↔ p.IsFirst := by
  have hsites : rule.sites part line = rule.frame.sites (symbolMatcher part) line := by
    rw [UsageRule.sites, haccepts, List.filter_true]
  rw [UsageRule.recognises_iff, hsites]
  exact exists_site_iff hanchored hlead htrail hne hplain hword

/-! ### The way to the list -/

open Text.Matcher

theorem all_lineStart (l : NameList word line) (hword : word.toList.head?.any fun c => !Text.isBlank c)
    (m : List Matcher) :
    Matcher.all (lineStart :: blanks :: m) (Cursor.start line) = Matcher.all m l.atWord := by
  have hahead : ∀ c ∈ l.atWord.after.head?, Text.isBlank c = false := by
    cases hlist : word.toList with
    | nil => simp [hlist] at hword
    | cons c w => simpa [atWord, hlist] using hword
  have hstart : lineStart (Cursor.start line) = [Cursor.start line] := rfl
  have hindent : blanks (Cursor.start line) = [l.atWord] := by
    have hlongest := longest_append l.indent_blank hahead []
    rw [List.append_nil] at hlongest
    rw [blanks, Cursor.start]
    exact (congrArg (fun line => longest Text.isBlank ⟨[], line⟩) l.line_eq).trans hlongest
  rw [all_cons_of_eq_singleton hstart, all_cons_of_eq_singleton hindent]

theorem all_lineStart_eq_nil (l : NameList word line) (hword : word.toList.head?.any fun c => !Text.isBlank c)
    {other : String} (hother : text other l.atWord = []) (m : List Matcher) :
    Matcher.all (lineStart :: blanks :: text other :: m) (Cursor.start line) = [] := by
  rw [l.all_lineStart hword, all_cons_of_eq_nil hother]

theorem text_atWord : text word l.atWord = [l.afterWord] := chars_append _ _ _

theorem blanks_afterWord : blanks l.afterWord = [l.atBrace] :=
  longest_append l.gap_blank (by intro x hx; cases hx; decide) _

theorem blanks₁_afterWord (hgap : l.gap ≠ []) : blanks₁ l.afterWord = [l.atBrace] :=
  longest₁_append hgap l.gap_blank (by intro x hx; cases hx; decide) _

/-- Some blanks behind the word end where a blank or the brace is ahead. -/
theorem isBlank_or_eq_of_mem_someBlanks₁ {c : Cursor} (hc : c ∈ someBlanks₁ l.afterWord) :
    ∀ x ∈ c.after.head?, Text.isBlank x = true ∨ x = '\x7b' := by
  obtain ⟨run, -, hrun, hreads⟩ := exists_run_of_mem_someBlanks₁ hc
  have hbrace : '\x7b' ∉ run := fun hmem => absurd (hrun _ hmem) (by decide)
  obtain ⟨more, hgap, hafter⟩ := Text.exists_eq_append_of_not_mem hreads.after_eq.symm hbrace
  intro x hx
  rw [hafter] at hx
  cases more with
  | nil => exact .inr (Option.some.inj hx).symm
  | cons y more =>
    left
    apply l.gap_blank
    rw [hgap, ← Option.some.inj hx]
    simp

theorem text_atBrace : text "\x7b" l.atBrace = [l.inside] := by
  have hbefore : l.opening.reverse = '\x7b' :: l.atBrace.before := by
    simp [opening, atBrace]
  rw [inside, hbefore]
  rfl

end NameList

namespace UsageRule

open Text.Matcher

variable {line symbol : List Char}

theorem lead_namedImport (l : NameList "import" line) (hgap : l.gap ≠ []) :
    namedImport.frame.lead (Cursor.start line) = lazily (· ≠ '\x7d') l.inside := by
  have htype : Matcher.all [text "type", blanks₁] l.atBrace = [] := all_cons_of_eq_nil rfl _
  have hmain : Matcher.all [longest₁ isIdentifierChar, blanks, text ",", blanks] l.atBrace = [] :=
    all_cons_of_eq_nil rfl _
  dsimp only [namedImport]
  rw [l.all_lineStart (by decide), all_cons_of_eq_singleton NameList.text_atWord,
    all_cons_of_eq_singleton (NameList.blanks₁_afterWord hgap),
    all_cons_of_eq_singleton (optional_of_eq_nil htype), all_cons_of_eq_singleton (optional_of_eq_nil hmain),
    all_cons_of_eq_singleton NameList.text_atBrace, all_singleton]

theorem lead_namedExport (l : NameList "export" line) :
    namedExport.frame.lead (Cursor.start line) = lazily (· ≠ '\x7d') l.inside := by
  dsimp only [namedExport]
  rw [l.all_lineStart (by decide), all_cons_of_eq_singleton NameList.text_atWord,
    all_cons_of_eq_singleton NameList.blanks_afterWord, all_cons_of_eq_singleton NameList.text_atBrace,
    all_singleton]

/-! ### Rules that find nothing in a list -/

theorem recognises_eq_false {rule : UsageRule} (hanchored : rule.frame.Anchored) (hline : line ≠ [])
    (hnone : ∀ c ∈ rule.frame.lead (Cursor.start line), symbolMatcher symbol c = []) (column : ℕ) :
    rule.recognises symbol line column = false := by
  rw [Bool.eq_false_iff]
  intro h
  obtain ⟨s, hs, -⟩ := recognises_iff.1 h
  have hsite := (List.mem_filter.1 hs).1
  rw [hanchored.sites_eq hline, Option.mem_toList] at hsite
  obtain ⟨hstart, hstop, -⟩ := Frame.mem_matchesAt.1 (List.mem_of_head? hsite)
  rw [hnone _ hstart] at hstop
  cases hstop

theorem recognises_of_lead_eq_nil {rule : UsageRule} (hanchored : rule.frame.Anchored) (hline : line ≠ [])
    (hlead : rule.frame.lead (Cursor.start line) = []) (column : ℕ) :
    rule.recognises symbol line column = false := by
  refine recognises_eq_false hanchored hline ?_ column
  rw [hlead]
  exact List.forall_mem_nil _

theorem lead_useImport {word : String} (l : NameList word line)
    (hword : word.toList.head?.any fun c => !Text.isBlank c) (hpub : text "pub" l.atWord = [])
    (huse : text "use" l.atWord = []) :
    useImport.frame.lead (Cursor.start line) = [] := by
  dsimp only [useImport]
  rw [l.all_lineStart hword, all_cons_of_eq_singleton (optional_of_eq_nil (all_cons_of_eq_nil hpub _)),
    all_cons_of_eq_nil huse]

theorem lead_defaultExport (l : NameList "export" line) : defaultExport.frame.lead (Cursor.start line) = [] := by
  dsimp only [defaultExport]
  rw [l.all_lineStart (by decide), all_cons_of_eq_singleton NameList.text_atWord]
  by_cases hgap : l.gap = []
  · apply all_cons_of_eq_nil
    rw [NameList.afterWord, hgap]
    rfl
  · rw [all_cons_of_eq_singleton (NameList.blanks₁_afterWord hgap)]
    exact all_cons_of_eq_nil rfl _

theorem symbolMatcher_of_lead_wholeImport (l : NameList "import" line) (hne : symbol ≠ [])
    (hplain : ∀ c ∈ symbol, Text.isPlain c = true) {c : Cursor}
    (hc : c ∈ wholeImport.frame.lead (Cursor.start line)) : symbolMatcher symbol c = [] := by
  dsimp only [wholeImport] at hc
  rw [l.all_lineStart (by decide), all_cons_of_eq_singleton NameList.text_atWord, mem_all_cons] at hc
  obtain ⟨d, hd, hc⟩ := hc
  have hother : ∀ x, Text.isBlank x = false → x ≠ '\x7b' → some x ≠ d.after.head? := by
    intro x hblank hbrace hx
    rcases NameList.isBlank_or_eq_of_mem_someBlanks₁ hd x hx.symm with h | h
    · exact Bool.false_ne_true (hblank.symm.trans h)
    · exact hbrace h
  have htype : text "type" d = [] := chars_eq_nil (by decide) (hother 't' (by decide) (by decide))
  have hstar : text "*" d = [] := chars_eq_nil (by decide) (hother '*' (by decide) (by decide))
  rw [all_cons_of_eq_singleton (optional_of_eq_nil (all_cons_of_eq_nil htype _)),
    all_cons_of_eq_singleton (optional_of_eq_nil (all_cons_of_eq_nil hstar _))] at hc
  have hfirst := hplain _ (List.head_mem hne)
  have hbrace : symbol.head hne ≠ '\x7b' := by
    intro hbrace
    rw [hbrace] at hfirst
    exact absurd hfirst (by decide)
  rw [List.mem_singleton.1 hc]
  apply symbolMatcher_eq_nil hne
  rw [List.head?_eq_some_head hne]
  exact hother _ (Text.isBlank_of_isPlain hfirst) hbrace

/-! ### Rules that look for an equals sign -/

theorem requiredImport_eq_false {word : String} {l : NameList word line} {p : Occurrence l.body symbol}
    (hequals : '=' ∉ l.body) : requiredImport.recognises symbol line (l.inLine p).column = false := by
  rw [Bool.eq_false_iff]
  intro h
  obtain ⟨d, s, hmatch, -, -, hstop⟩ := exists_match_of_recognises (by simp [UsageRule.all]) h
  have htrail := (Frame.mem_matchesAt.1 hmatch).2.2
  dsimp only [requiredImport] at htrail
  rw [hstop, mem_all_cons] at htrail
  obtain ⟨c, hc, htrail⟩ := htrail
  obtain ⟨e, he, -⟩ := mem_all_cons.1 htrail
  obtain ⟨run, hrun, hreads⟩ := exists_run_of_mem_blanks hc
  -- the way to the sign does not lead out of the list
  have hafter := (hreads.trans (mem_chars.1 he)).after_eq
  have hbrace : '\x7d' ∉ run ++ "=".toList := by
    intro hmem
    rcases List.mem_append.1 hmem with hmem | hmem
    · exact absurd (hrun _ hmem) (by decide)
    · exact absurd hmem (by decide)
  obtain ⟨more, hafter, -⟩ := Text.exists_eq_append_of_not_mem hafter.symm hbrace
  apply hequals
  rw [p.line_eq, hafter]
  simp

theorem assignedExport_eq_false {word : String} {l : NameList word line} {p : Occurrence l.body symbol}
    (hequals : '=' ∉ l.body) : assignedExport.recognises symbol line (l.inLine p).column = false := by
  rw [Bool.eq_false_iff]
  intro h
  obtain ⟨d, s, hmatch, -, hstart, -⟩ := exists_match_of_recognises (by simp [UsageRule.all]) h
  have hlead := (Frame.mem_matchesAt.1 hmatch).1
  dsimp only [assignedExport] at hlead
  simp only [mem_all_cons, all_singleton] at hlead
  obtain ⟨-, -, -, -, e, -, c, hc, hlead⟩ := hlead
  obtain ⟨run, hrun, hreads⟩ := mem_someBlanks.1 hlead
  have hbefore := ((mem_chars.1 hc).trans hreads).before_eq
  have hopening : (l.opening ++ p.before).reverse =
      p.before.reverse ++ '\x7b' :: (l.indent ++ word.toList ++ l.gap).reverse := by
    simp [NameList.opening]
  rw [hstart, Occurrence.start, NameList.inLine, hopening] at hbefore
  have hbrace : '\x7b' ∉ ("=".toList ++ run).reverse := by
    intro hmem
    rcases List.mem_append.1 (List.mem_reverse.1 hmem) with hmem | hmem
    · exact absurd hmem (by decide)
    · exact absurd (hrun _ hmem) (by decide)
  obtain ⟨more, hbefore, -⟩ := Text.exists_eq_append_of_not_mem hbefore.symm hbrace
  have hmem : '=' ∈ p.before.reverse := by
    rw [hbefore]
    simp
  apply hequals
  rw [p.line_eq]
  exact List.mem_append_left _ (List.mem_append_left _ (List.mem_reverse.1 hmem))

/-! ### The rules for lists -/

section

variable (hne : symbol ≠ []) (hplain : ∀ c ∈ symbol, Text.isPlain c = true)

include hne hplain

/-- Of the rules for imports, the one for lists recognises the first occurrence in a list, and the only other one
that may recognise any is the one for modules that are asked for. -/
theorem exists_import_iff {l : NameList "import" line} (hgap : l.gap ≠ []) {p : Occurrence l.body symbol}
    (hword : p.IsWord) :
    (∃ rule ∈ imports, rule.recognises symbol line (l.inLine p).column = true) ↔
      p.IsFirst ∨ requiredImport.recognises symbol line (l.inLine p).column = true := by
  have hnamed : namedImport.recognises symbol line (l.inLine p).column = true ↔ p.IsFirst :=
    NameList.recognises_iff (Frame.anchored_lineStart _ _) (lead_namedImport l hgap) rfl rfl hne hplain hword
  have hwhole : wholeImport.recognises symbol line (l.inLine p).column = false :=
    recognises_eq_false (Frame.anchored_lineStart _ _) l.line_ne_nil
      (fun _ hc => symbolMatcher_of_lead_wholeImport l hne hplain hc) _
  have hfrom : fromImport.recognises symbol line (l.inLine p).column = false :=
    recognises_of_lead_eq_nil (Frame.anchored_lineStart _ _) l.line_ne_nil
      (l.all_lineStart_eq_nil (by decide) rfl _) _
  have huse : useImport.recognises symbol line (l.inLine p).column = false :=
    recognises_of_lead_eq_nil (Frame.anchored_lineStart _ _) l.line_ne_nil (lead_useImport l (by decide) rfl rfl) _
  simp [imports, hnamed, hwhole, hfrom, huse]

/-- Of the rules for exports, the one for lists recognises the first occurrence in a list, and the only other one
that may recognise any is the one for assignments. -/
theorem exists_export_iff {l : NameList "export" line} {p : Occurrence l.body symbol} (hword : p.IsWord) :
    (∃ rule ∈ exports, rule.recognises symbol line (l.inLine p).column = true) ↔
      p.IsFirst ∨ assignedExport.recognises symbol line (l.inLine p).column = true := by
  have hnamed : namedExport.recognises symbol line (l.inLine p).column = true ↔ p.IsFirst :=
    NameList.recognises_iff (Frame.anchored_lineStart _ _) (lead_namedExport l) rfl rfl hne hplain hword
  have hdefault : defaultExport.recognises symbol line (l.inLine p).column = false :=
    recognises_of_lead_eq_nil (Frame.anchored_lineStart _ _) l.line_ne_nil (lead_defaultExport l) _
  simp [exports, hnamed, hdefault]

end

/-- Of the rules for imports, only the one for modules that are asked for may recognise a symbol in an export. -/
theorem forall_import_iff (l : NameList "export" line) (column : ℕ) :
    (∀ rule ∈ imports, rule.recognises symbol line column = false) ↔
      requiredImport.recognises symbol line column = false := by
  have hnamed : namedImport.recognises symbol line column = false :=
    recognises_of_lead_eq_nil (Frame.anchored_lineStart _ _) l.line_ne_nil
      (l.all_lineStart_eq_nil (by decide) rfl _) _
  have hwhole : wholeImport.recognises symbol line column = false :=
    recognises_of_lead_eq_nil (Frame.anchored_lineStart _ _) l.line_ne_nil
      (l.all_lineStart_eq_nil (by decide) rfl _) _
  have hfrom : fromImport.recognises symbol line column = false :=
    recognises_of_lead_eq_nil (Frame.anchored_lineStart _ _) l.line_ne_nil
      (l.all_lineStart_eq_nil (by decide) rfl _) _
  have huse : useImport.recognises symbol line column = false :=
    recognises_of_lead_eq_nil (Frame.anchored_lineStart _ _) l.line_ne_nil (lead_useImport l (by decide) rfl rfl) _
  simp [imports, hnamed, hwhole, hfrom, huse]

end UsageRule

namespace Usage

open UsageRule

variable {fits : Capacity} {source symbol : String} {index : ℕ} {line : List Char}

/-- **Of the mentions of a name in a list, the first is an import or an export.**  Let all rules be made for a
plain symbol.  An occurrence as a word of its own in the list of an import is reported as imported exactly when it
is the first one in the list or is bound to a module that is asked for by a call.  In the list of an export it is
reported as exported exactly when it is no such binding, and is the first one in the list or what `module.exports`
is set to.  Without an equals sign in the list, this leaves the first one. -/
theorem find_listed_names (hfits : AllFit fits symbol.toList) (hne : symbol ≠ "")
    (hplain : ∀ c ∈ symbol.toList, Text.isPlain c = true)
    (hline : (Text.lines source.toList)[index]? = some line) :
    (∀ l : NameList "import" line, l.gap ≠ [] → ∀ p : Occurrence l.body symbol.toList, p.IsWord →
      (ReportedAs fits source symbol (index + 1) (l.inLine p).column .imported ↔
        p.IsFirst ∨ requiredImport.recognises symbol.toList line (l.inLine p).column = true) ∧
      ('=' ∉ l.body →
        (ReportedAs fits source symbol (index + 1) (l.inLine p).column .imported ↔ p.IsFirst))) ∧
    (∀ l : NameList "export" line, ∀ p : Occurrence l.body symbol.toList, p.IsWord →
      (ReportedAs fits source symbol (index + 1) (l.inLine p).column .exported ↔
        requiredImport.recognises symbol.toList line (l.inLine p).column = false ∧
          (p.IsFirst ∨ assignedExport.recognises symbol.toList line (l.inLine p).column = true)) ∧
      ('=' ∉ l.body →
        (ReportedAs fits source symbol (index + 1) (l.inLine p).column .exported ↔ p.IsFirst))) := by
  have hsymbol : Text.isBlankText symbol = false :=
    isBlankText_eq_false hne fun c hc => Text.isBlank_of_isPlain (hplain c hc)
  have hlist := toList_ne_nil hsymbol
  constructor
  · intro l hgap p hword
    have hiff : ReportedAs fits source symbol (index + 1) (l.inLine p).column .imported ↔
        p.IsFirst ∨ requiredImport.recognises symbol.toList line (l.inLine p).column = true := by
      rw [reportedAs_imported_iff hsymbol hfits hline, exists_import_iff hlist hplain hgap hword]
    refine ⟨hiff, ?_⟩
    intro hequals
    rw [hiff, requiredImport_eq_false hequals]
    simp
  · intro l p hword
    have hiff : ReportedAs fits source symbol (index + 1) (l.inLine p).column .exported ↔
        requiredImport.recognises symbol.toList line (l.inLine p).column = false ∧
          (p.IsFirst ∨ assignedExport.recognises symbol.toList line (l.inLine p).column = true) := by
      rw [reportedAs_exported_iff hsymbol hfits hline, forall_import_iff l, exists_export_iff hlist hplain hword]
    refine ⟨hiff, ?_⟩
    intro hequals
    rw [hiff, requiredImport_eq_false hequals, assignedExport_eq_false hequals]
    simp

/-- The first name of an import is imported, and the second mention in an export is not exported. -/
theorem find_listed_names_braced :
    (∃ l : NameList "import" "import \x7b foo \x7d from 'x'".toList, l.gap ≠ [] ∧
      ∃ p : Occurrence l.body "foo".toList, p.IsWord ∧ (l.inLine p).column = 9 ∧
        ReportedAs unlimited "import \x7b foo \x7d from 'x'\nexport \x7b foo, foo as default \x7d" "foo" 1 9
          .imported) ∧
    ∃ l : NameList "export" "export \x7b foo, foo as default \x7d".toList,
      ∃ p : Occurrence l.body "foo".toList, p.IsWord ∧ (l.inLine p).column = 14 ∧
        ¬ ReportedAs unlimited "import \x7b foo \x7d from 'x'\nexport \x7b foo, foo as default \x7d" "foo" 2 14
          .exported := by
  have hplain : ∀ c ∈ "foo".toList, Text.isPlain c = true := List.all_eq_true.1 (by decide)
  constructor
  · let l : NameList "import" "import \x7b foo \x7d from 'x'".toList :=
      ⟨[], " ".toList, " foo ".toList, " from 'x'".toList, by decide, List.forall_mem_nil _,
        List.all_eq_true.1 (by decide), by decide⟩
    let p : Occurrence l.body "foo".toList := ⟨" ".toList, " ".toList, by decide⟩
    have hfirst : p.IsFirst := by
      intro p' _
      apply List.length_pos_of_ne_nil
      intro hnil
      have hbody : " foo ".toList = [] ++ "foo".toList ++ p'.after := hnil ▸ p'.line_eq
      cases hbody
    refine ⟨l, by decide, p, by decide, rfl, ?_⟩
    exact ((find_listed_names (fun _ _ => rfl) (by decide) hplain (by decide)).1 l (by decide) p
      (by decide)).1.2 (.inl hfirst)
  · let l : NameList "export" "export \x7b foo, foo as default \x7d".toList :=
      ⟨[], " ".toList, " foo, foo as default ".toList, [], by decide, List.forall_mem_nil _,
        List.all_eq_true.1 (by decide), by decide⟩
    let p : Occurrence l.body "foo".toList := ⟨" foo, ".toList, " as default ".toList, by decide⟩
    let first : Occurrence l.body "foo".toList := ⟨" ".toList, ", foo as default ".toList, by decide⟩
    refine ⟨l, p, by decide, rfl, ?_⟩
    intro hexported
    have hfirst : p.IsFirst :=
      (((find_listed_names (fun _ _ => rfl) (by decide) hplain (by decide)).2 l p (by decide)).2
        (by decide)).1 hexported
    exact absurd (hfirst first (by decide)) (by decide)

/-- A name that an import or an export lists twice is a mere mention in the second place. -/
theorem find_listed_twice :
    ((∃ l : NameList "import" "import \x7b foo, foo \x7d from 'x'".toList, l.gap ≠ [] ∧
      ∃ p : Occurrence l.body "foo".toList, p.IsWord ∧ (l.inLine p).column = 14) ∧
      (reportedAt unlimited "import \x7b foo, foo \x7d from 'x'" "foo" 1 14).map Usage.kind = [.call]) ∧
    (∃ l : NameList "export" "export \x7b foo, foo as default \x7d".toList,
      ∃ p : Occurrence l.body "foo".toList, p.IsWord ∧ (l.inLine p).column = 14) ∧
      (reportedAt unlimited "export \x7b foo, foo as default \x7d" "foo" 1 14).map Usage.kind = [.call] := by
  constructor
  · let l : NameList "import" "import \x7b foo, foo \x7d from 'x'".toList :=
      ⟨[], " ".toList, " foo, foo ".toList, " from 'x'".toList, by decide, List.forall_mem_nil _,
        List.all_eq_true.1 (by decide), by decide⟩
    have hline : (Text.lines "import \x7b foo, foo \x7d from 'x'".toList)[0]? =
        some "import \x7b foo, foo \x7d from 'x'".toList := by decide
    refine ⟨⟨l, by decide, ⟨" foo, ".toList, " ".toList, by decide⟩, by decide, rfl⟩, ?_⟩
    rw [map_kind_reportedAt (by decide) hline]
    decide +kernel
  · let l : NameList "export" "export \x7b foo, foo as default \x7d".toList :=
      ⟨[], " ".toList, " foo, foo as default ".toList, [], by decide, List.forall_mem_nil _,
        List.all_eq_true.1 (by decide), by decide⟩
    have hline : (Text.lines "export \x7b foo, foo as default \x7d".toList)[0]? =
        some "export \x7b foo, foo as default \x7d".toList := by decide
    refine ⟨⟨l, ⟨" foo, ".toList, " as default ".toList, by decide⟩, by decide, rfl⟩, ?_⟩
    rw [map_kind_reportedAt (by decide) hline]
    decide +kernel

end Usage

end CodeAtlas
