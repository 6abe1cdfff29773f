import CodeAtlas.Proofs.Usage.Mention

/-!
# Type arguments

Between the name of a member and the parenthesis of its call there may be type arguments.  The rule for member
calls takes everything from an opening angle bracket to the next closing one for such, so a comparison may read
as a call, and another call of the same member between the two brackets belongs to the first match.

* `mem_callTrail` — what the rule reads behind a name;
* `Occurrence.Encloses` — one occurrence of a name takes another one in;
* `Occurrence.encloses_of_reads` — a call that is read beyond a later occurrence takes it in;
* `Occurrence.Encloses.trans` — what takes in an occurrence that takes in another one takes in the other one too,
  so it does no harm that an occurrence may be passed over because of one that is itself passed over.
-/

namespace CodeAtlas

open Text (Cursor Matcher)

theorem not_mem_of_blank {x : Char} {l : List Char} (hl : ∀ c ∈ l, Text.isBlank c = true)
    (hx : Text.isBlank x = false) : x ∉ l := by
  intro hmem
  exact Bool.false_ne_true (hx.symm.trans (hl x hmem))

/-! ### What stands between a name and its parenthesis -/

/-- Blanks, or something between angle brackets among blanks. -/
inductive CallGap : List Char → Prop where
  | direct {gap : List Char} (gap_blank : ∀ c ∈ gap, Text.isBlank c = true) : CallGap gap
  | typed {gap args gap' : List Char} (gap_blank : ∀ c ∈ gap, Text.isBlank c = true)
      (gap'_blank : ∀ c ∈ gap', Text.isBlank c = true) (closed : '>' ∉ args) :
      CallGap (gap ++ '<' :: (args ++ '>' :: gap'))

/-- A plain text there stands between the brackets. -/
theorem CallGap.exists_brackets {first part rest : List Char} (h : CallGap (first ++ (part ++ rest)))
    (hne : part ≠ []) (hplain : ∀ c ∈ part, Text.isPlain c = true) :
    ∃ gap read more gap', first = gap ++ '<' :: read ∧ rest = more ++ '>' :: gap' ∧
      (∀ c ∈ gap, Text.isBlank c = true) ∧ (∀ c ∈ gap', Text.isBlank c = true) ∧ '>' ∉ read ∧ '>' ∉ more := by
  have hnot_blank : ∀ {l : List Char}, (∀ c ∈ l, Text.isBlank c = true) → ∀ x ∈ part, x ∉ l := by
    intro l hl x hx
    exact not_mem_of_blank hl (Text.isBlank_of_isPlain (hplain x hx))
  have hnot_eq : ∀ {y : Char}, Text.isPlain y = false → ∀ x ∈ part, x ≠ y := by
    intro y hy x hx heq
    exact Bool.false_ne_true (hy.symm.trans (heq ▸ hplain x hx))
  generalize hwhole : first ++ (part ++ rest) = whole at h
  cases h with
  | direct hblank =>
    have hmem : part.head hne ∈ whole := by
      rw [← hwhole]
      simp
    exact absurd hmem (hnot_blank hblank _ (List.head_mem hne))
  | @typed gap args gap' hgap hgap' hclosed =>
    -- the first character of the text is not read on the way to the opening bracket
    have hopen : part.head hne ∉ gap ++ ['<'] := by
      simp [hnot_blank hgap _ (List.head_mem hne), hnot_eq (y := '<') (by decide) _ (List.head_mem hne)]
    have hsplit : gap ++ ['<'] ++ (args ++ '>' :: gap') = first ++ part.head hne :: (part.tail ++ rest) := by
      rw [← List.cons_append, List.cons_head_tail, hwhole]
      simp
    obtain ⟨read, hfirst, hargs⟩ := Text.exists_eq_append_of_not_mem hsplit hopen
    rw [← List.cons_append, List.cons_head_tail, ← List.append_assoc] at hargs
    -- and its last character is not one from the closing bracket on
    have hclose : part.getLast hne ∉ '>' :: gap' := by
      simp [hnot_blank hgap' _ (List.getLast_mem hne), hnot_eq (y := '>') (by decide) _ (List.getLast_mem hne)]
    obtain ⟨more, rfl, hrest⟩ : ∃ more, args = read ++ part ++ more ∧ rest = more ++ '>' :: gap' := by
      rcases List.append_eq_append_iff.1 hargs.symm with h | ⟨more, hread, hrest⟩
      · exact h
      · cases more with
        | nil =>
          rw [List.append_nil] at hread
          exact ⟨[], by rw [hread, List.append_nil], hrest.symm⟩
        | cons y more =>
          have hlast := congrArg List.getLast? hread
          rw [List.getLast?_append_of_ne_nil _ hne, List.getLast?_append_of_ne_nil _ (List.cons_ne_nil y more),
            List.getLast?_eq_some_getLast hne] at hlast
          apply absurd _ hclose
          rw [hrest]
          exact List.mem_append_left _ (List.mem_of_getLast? hlast.symm)
    refine ⟨gap, read, more, gap', by simpa using hfirst, hrest, hgap, hgap', ?_, ?_⟩
    · intro hmem
      exact hclosed (by simp [hmem])
    · intro hmem
      exact hclosed (by simp [hmem])

namespace UsageRule

open Text.Matcher

theorem exists_callGap_of_mem_callTrail {c d : Cursor} (h : d ∈ callTrail c) :
    ∃ gap, CallGap gap ∧ c.Reads (gap ++ ['(']) d := by
  rw [callTrail] at h
  simp only [mem_all_cons, all_singleton] at h
  obtain ⟨e, he, f, hf, k, hk, hd⟩ := h
  obtain ⟨gap, hgap, hreads⟩ := exists_run_of_mem_blanks he
  obtain ⟨gap', hgap', hreads'⟩ := exists_run_of_mem_blanks hk
  have hparen : k.Reads ['('] d := mem_chars.1 hd
  rcases List.mem_append.1 hf with hf | hf
  · simp only [mem_all_cons, all_singleton] at hf
    obtain ⟨x, hx, y, hy, hf⟩ := hf
    obtain ⟨args, hargs, hreads''⟩ := exists_run_of_mem_longest hy
    have hopen : e.Reads ['<'] x := mem_chars.1 hx
    have hclose : y.Reads ['>'] f := mem_chars.1 hf
    have hclosed : '>' ∉ args := by
      intro hmem
      simpa using hargs _ hmem
    refine ⟨_, .typed hgap hgap' hclosed, ?_⟩
    simpa using hreads.trans (hopen.trans (hreads''.trans (hclose.trans (hreads'.trans hparen))))
  · rw [List.mem_singleton.1 hf] at hreads'
    have hblank : ∀ c ∈ gap ++ gap', Text.isBlank c = true := by
      intro c hc
      exact (List.mem_append.1 hc).elim (hgap c) (hgap' c)
    refine ⟨_, .direct hblank, ?_⟩
    simpa using hreads.trans (hreads'.trans hparen)

theorem mem_callTrail_of_callGap {gap : List Char} (hgap : CallGap gap) {c d : Cursor}
    (h : c.Reads (gap ++ ['(']) d) : d ∈ callTrail c := by
  have hahead : ∀ {e : Cursor} {x : Char}, e.after.head? = some x → Text.isBlank x = false →
      ∀ y ∈ e.after.head?, Text.isBlank y = false := by
    intro e x hx hblank y hy
    rw [Option.mem_def, hx] at hy
    rw [← Option.some.inj hy]
    exact hblank
  rw [callTrail]
  simp only [mem_all_cons, all_singleton]
  cases hgap with
  | direct hblank =>
    obtain ⟨e, hreads, hparen⟩ := Cursor.reads_append_iff.1 h
    have hstay : e ∈ blanks e :=
      mem_longest_of_reads (Cursor.Reads.refl e) (List.forall_mem_nil _) (hahead hparen.head?_after (by decide))
    refine ⟨e, mem_longest_of_reads hreads hblank (hahead hparen.head?_after (by decide)), e, ?_, e, hstay,
      mem_chars.2 hparen⟩
    exact List.mem_append_right _ (List.mem_singleton_self e)
  | @typed gap args gap' hblank hblank' hclosed =>
    rw [List.append_assoc, Cursor.reads_append_iff] at h
    obtain ⟨e, hreads, h⟩ := h
    have hangle := hahead h.head?_after (by decide)
    rw [← List.singleton_append, List.append_assoc, Cursor.reads_append_iff] at h
    obtain ⟨x, hopen, h⟩ := h
    rw [List.append_assoc, Cursor.reads_append_iff] at h
    obtain ⟨y, hargs, h⟩ := h
    have hnext : ∀ z ∈ y.after.head?, decide (z ≠ '>') = false := by
      intro z hz
      rw [Option.mem_def, h.head?_after] at hz
      simp [← Option.some.inj hz]
    rw [← List.singleton_append, List.append_assoc, Cursor.reads_append_iff] at h
    obtain ⟨f, hclose, h⟩ := h
    obtain ⟨k, hreads', hparen⟩ := Cursor.reads_append_iff.1 h
    refine ⟨e, mem_longest_of_reads hreads hblank hangle, f, List.mem_append_left _ ?_, k, ?_, mem_chars.2 hparen⟩
    · simp only [mem_all_cons, all_singleton]
      refine ⟨x, mem_chars.2 hopen, y, mem_longest_of_reads hargs ?_ hnext, mem_chars.2 hclose⟩
      intro z hz
      apply decide_eq_true
      intro hz'
      exact hclosed (hz' ▸ hz)
    · exact mem_longest_of_reads hreads' hblank' (hahead hparen.head?_after (by decide))

theorem mem_callTrail {c d : Cursor} :
    d ∈ callTrail c ↔ ∃ gap, CallGap gap ∧ c.Reads (gap ++ ['(']) d := by
  refine ⟨exists_callGap_of_mem_callTrail, ?_⟩
  rintro ⟨gap, hgap, hreads⟩
  exact mem_callTrail_of_callGap hgap hreads

end UsageRule

/-! ### Occurrences behind a mark -/

namespace Occurrence

variable {line part : List Char} {o o' : Occurrence line part}

/-- The text stands right behind a dot. -/
def IsMember (o : Occurrence line part) : Prop := o.before.getLast? = some '.'

/-- The text stands right behind a dot or two colons. -/
def IsQualified (o : Occurrence line part) : Prop := o.IsMember ∨ [':', ':'] <:+ o.before

/-- The next character that is not blank is an opening parenthesis. -/
def IsCalled (o : Occurrence line part) : Prop := (Text.trimStart o.after).head? = some '('

/-- The text is followed by a parenthesis, perhaps behind type arguments. -/
def ReadsAsCall (o : Occurrence line part) : Prop := ∃ gap rest, CallGap gap ∧ o.after = gap ++ '(' :: rest

instance (o : Occurrence line part) : Decidable o.IsMember := inferInstanceAs (Decidable (_ = _))

instance (o : Occurrence line part) : Decidable o.IsCalled := inferInstanceAs (Decidable (_ = _))

theorem line_stop (o : Occurrence line part) : o.stop.line = line :=
  o.start_reads.line_eq.trans o.line_start

theorem readsAsCall_iff : o.ReadsAsCall ↔ ∃ d, d ∈ UsageRule.callTrail o.stop := by
  constructor
  · rintro ⟨gap, rest, hgap, hafter⟩
    refine ⟨⟨(gap ++ ['(']).reverse ++ o.stop.before, rest⟩, UsageRule.mem_callTrail.2 ⟨gap, hgap, rfl, ?_⟩⟩
    simpa [stop] using hafter
  · rintro ⟨d, hd⟩
    obtain ⟨gap, hgap, hreads⟩ := UsageRule.mem_callTrail.1 hd
    refine ⟨gap, d.after, hgap, ?_⟩
    simpa [stop] using hreads.after_eq

instance (o : Occurrence line part) : Decidable o.ReadsAsCall :=
  decidable_of_iff ((UsageRule.callTrail o.stop).isEmpty = false) (by
    rw [readsAsCall_iff, List.isEmpty_eq_false_iff_exists_mem])

theorem IsCalled.readsAsCall (h : o.IsCalled) : o.ReadsAsCall := by
  obtain ⟨rest, hrest⟩ := List.head?_eq_some_iff.1 h
  refine ⟨o.after.takeWhile Text.isBlank, rest, .direct ?_, ?_⟩
  · exact List.all_eq_true.1 List.all_takeWhile
  · rw [← hrest, Text.trimStart, List.takeWhile_append_dropWhile]

/-- An occurrence that stands for itself is not reached into by one that starts before it. -/
theorem IsWord.stop_column_le (h : o.IsWord) (hplain : ∀ c ∈ part, Text.isPlain c = true)
    (hlt : o'.column < o.column) : o'.stop.column ≤ o.column := by
  by_contra hover
  obtain ⟨c, hc, hmem⟩ := mem_of_overlap hlt (Nat.lt_of_not_le hover)
  exact Bool.false_ne_true ((h.1 c hc).symm.trans (Text.isWord_of_isPlain (hplain c hmem)))

/-! ### Occurrences between angle brackets -/

/-- The one occurrence is qualified and followed by angle brackets and a parenthesis, and the other one stands
between the brackets. -/
def Encloses (o' o : Occurrence line part) : Prop :=
  o'.IsWord ∧ o'.IsQualified ∧ ∃ gap read more gap' rest,
    o.before = o'.before ++ (part ++ (gap ++ '<' :: read)) ∧ o.after = more ++ '>' :: (gap' ++ '(' :: rest) ∧
      (∀ c ∈ gap, Text.isBlank c = true) ∧ (∀ c ∈ gap', Text.isBlank c = true) ∧ '>' ∉ read ∧ '>' ∉ more

/-- The text stands between what reads as the brackets of a call of another occurrence. -/
def InTypeArguments (o : Occurrence line part) : Prop := ∃ o' : Occurrence line part, o'.Encloses o

theorem InTypeArguments.mem_before (h : o.InTypeArguments) : '<' ∈ o.before := by
  obtain ⟨o', -, -, gap, read, more, gap', rest, hbefore, -⟩ := h
  rw [hbefore]
  simp

theorem Encloses.column_lt (h : o'.Encloses o) : o'.column < o.column := by
  obtain ⟨-, -, gap, read, more, gap', rest, hbefore, -⟩ := h
  unfold column
  rw [hbefore]
  simp only [List.length_append, List.length_cons]
  omega

/-- The call of an occurrence that takes in another one is read beyond its start. -/
theorem Encloses.column_lt_of_mem_callTrail (h : o'.Encloses o) {d : Cursor}
    (hd : d ∈ UsageRule.callTrail o'.stop) : o.column < d.column := by
  obtain ⟨-, -, gap, read, -, -, -, hbefore, -, hgap, -, hread, -⟩ := h
  obtain ⟨between, hbetween, hreads⟩ := UsageRule.mem_callTrail.1 hd
  by_contra hle
  rw [← o.column_start] at hle
  have hline : d.line = o.start.line := hreads.line_eq.trans (o'.line_stop.trans o.line_start.symm)
  obtain ⟨more, hmore⟩ := Cursor.exists_reads_of_column_le hline (Nat.le_of_not_lt hle)
  have hopen : o'.stop.Reads (gap ++ '<' :: read) o.start := by
    refine ⟨?_, ?_⟩
    · simp [start, stop, hbefore]
    · have hline := o'.line_eq.symm.trans o.line_eq
      rw [hbefore] at hline
      simpa [start, stop] using hline
  have hsplit : gap ++ '<' :: read = between ++ ['('] ++ more := hopen.eq_of_reads (hreads.trans hmore)
  cases hbetween with
  | direct hblank =>
    have hparen : '(' ∉ gap ++ ['<'] := by
      simp [not_mem_of_blank hgap (x := '(') (by decide)]
    have hopen : gap ++ ['<'] ++ read = between ++ '(' :: more := by
      simpa using hsplit
    obtain ⟨rest, hrest, -⟩ := Text.exists_eq_append_of_not_mem hopen hparen
    exact absurd (hblank '<' (by simp [hrest])) (by decide)
  | typed hblank hblank' hclosed =>
    have hmem : '>' ∈ gap ++ '<' :: read := by
      rw [hsplit]
      simp
    simp [not_mem_of_blank hgap (x := '>') (by decide), hread] at hmem

section

variable (hplain : ∀ c ∈ part, Text.isPlain c = true)
include hplain

theorem not_mem_part {x : Char} (hx : Text.isPlain x = false) : x ∉ part := by
  intro hmem
  exact Bool.false_ne_true (hx.symm.trans (hplain x hmem))

/-- An occurrence that takes in another one reads as a call. -/
theorem Encloses.readsAsCall (h : o'.Encloses o) : o'.ReadsAsCall := by
  obtain ⟨-, -, gap, read, more, gap', rest, hbefore, hafter, hgap, hgap', hread, hmore⟩ := h
  have hclosed : '>' ∉ read ++ (part ++ more) := by
    simp [hread, hmore, not_mem_part hplain (x := '>') (by decide)]
  refine ⟨_, rest, .typed hgap hgap' hclosed, ?_⟩
  have hline := o'.line_eq.symm.trans o.line_eq
  rw [hbefore, hafter] at hline
  simpa using hline

/-- What takes in an occurrence that takes in another one takes in the other one too. -/
theorem Encloses.trans {o'' : Occurrence line part} (h : o''.Encloses o') (h' : o'.Encloses o) :
    o''.Encloses o := by
  obtain ⟨hword, hqualified, gap₁, read₁, -, -, -, hbefore₁, -, hgap₁, -, hread₁, -⟩ := h
  obtain ⟨-, -, gap, read, more, gap', rest, hbefore, hafter, hgap, hgap', hread, hmore⟩ := h'
  have hgap_closed : '>' ∉ gap := not_mem_of_blank hgap (by decide)
  have hpart : '>' ∉ part := not_mem_part hplain (by decide)
  refine ⟨hword, hqualified, gap₁, read₁ ++ (part ++ (gap ++ '<' :: read)), more, gap', rest, ?_, hafter, hgap₁,
    hgap', ?_, hmore⟩
  · rw [hbefore, hbefore₁]
    simp
  · simp [hread₁, hpart, hgap_closed, hread]

/-- A call that is read beyond a later occurrence takes it in. -/
theorem encloses_of_reads (hne : part ≠ []) (hword : o'.IsWord) (hqualified : o'.IsQualified)
    (hbehind : o'.stop.column ≤ o.column) {gap : List Char} (hgap : CallGap gap) {d : Cursor}
    (hreads : o'.stop.Reads (gap ++ ['(']) d) (hover : o.stop.column < d.column) : o'.Encloses o := by
  obtain ⟨first, hfirst⟩ := Cursor.exists_reads_of_column_le (o'.line_stop.trans o.line_start.symm)
    (o.column_start.symm ▸ hbehind)
  have hline : d.line = line := hreads.line_eq.trans o'.line_stop
  obtain ⟨last, hlast⟩ := Cursor.exists_reads_of_column_le (o.line_stop.trans hline.symm) (Nat.le_of_lt hover)
  have hgap_eq : gap ++ ['('] = first ++ (part ++ last) :=
    hreads.eq_of_reads (hfirst.trans (o.start_reads.trans hlast))
  have hlast_ne : last ≠ [] := by
    intro hnil
    have hcolumn := hlast.column_eq
    rw [hnil, List.length_nil] at hcolumn
    omega
  obtain ⟨rest, x, rfl⟩ := (List.eq_nil_or_concat' last).resolve_left hlast_ne
  rw [← List.append_assoc part, ← List.append_assoc first] at hgap_eq
  obtain ⟨rfl, hx⟩ := List.append_inj' hgap_eq rfl
  obtain ⟨gap, read, more, gap', rfl, rfl, hblank, hblank', hread, hmore⟩ := hgap.exists_brackets hne hplain
  refine ⟨hword, hqualified, gap, read, more, gap', d.after, ?_, ?_, hblank, hblank', hread, hmore⟩
  · have hreverse := congrArg List.reverse hfirst.before_eq
    simpa [start, stop] using hreverse
  · rw [← hx] at hlast
    simpa [stop] using hlast.after_eq

end

end Occurrence

end CodeAtlas
