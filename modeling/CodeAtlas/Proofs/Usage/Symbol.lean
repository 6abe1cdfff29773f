import CodeAtlas.Proofs.Usage.Sites
import CodeAtlas.Usage.Rule

/-!
# Occurrences of a symbol

An occurrence of a symbol on a line is a way of cutting the line into what stands before the symbol, the
symbol, and what stands behind it.  All rules look for the symbol in the same way, so whatever a rule
recognises is an occurrence, and the edges of the symbol are where it wants them
(`exists_occurrence_of_mem_sites`).

Where a symbol begins or ends with a name character, the edge of a word is asked for there.  The classes of
name characters and of word characters are not the same: if no word goes on beside the occurrence, there is an
edge exactly where the symbol itself has a word character (`IsWord.stop_mem_iff`).
-/

namespace CodeAtlas

open Text (Cursor Matcher)

/-! ### Classes of characters -/

namespace Text

/-- Is the character a letter, a digit or the underscore of ASCII? -/
def isPlain (c : Char) : Bool := c.isAlphanum || c = '_'

/-- The code points of plain characters. -/
def plainRanges : List (ℕ × ℕ) := [(0x30, 0x39), (0x41, 0x5A), (0x5F, 0x5F), (0x61, 0x7A)]

theorem inRanges_of_isPlain {c : Char} (h : isPlain c = true) : inRanges plainRanges c = true := by
  delta isPlain Char.isAlphanum Char.isAlpha Char.isUpper Char.isLower Char.isDigit at h
  simp only [Bool.or_eq_true, Bool.and_eq_true, decide_eq_true_eq, UInt32.le_iff_toNat_le, ge_iff_le, Char.ext_iff,
    ← UInt32.toNat_inj] at h
  simp [plainRanges, inRanges_iff] at h ⊢
  omega

theorem toNat_lt_of_isPlain {c : Char} (h : isPlain c = true) : c.toNat < 0x80 := by
  obtain ⟨r, hr, -, hc⟩ := inRanges_iff.1 (inRanges_of_isPlain h)
  have hbound : ∀ r ∈ plainRanges, r.2 < 0x80 := by decide
  exact Nat.lt_of_le_of_lt hc (hbound r hr)

theorem isWord_of_isPlain {c : Char} (h : isPlain c = true) : isWord c = true := by
  rw [isWord, if_pos (toNat_lt_of_isPlain h)]
  exact h

theorem isNameChar_of_isPlain {c : Char} (h : isPlain c = true) : isNameChar c = true := by
  rw [← isWord_eq_isNameChar_of_ascii (toNat_lt_of_isPlain h)]
  exact isWord_of_isPlain h

/-- Does no range of the one list meet a range of the other? -/
def apart (r s : List (ℕ × ℕ)) : Bool :=
  r.all fun a => s.all fun b => a.2 < b.1 || b.2 < a.1

theorem inRanges_of_apart {r s : List (ℕ × ℕ)} (h : apart r s = true) {c : Char}
    (hc : inRanges r c = true) : inRanges s c = false := by
  obtain ⟨a, ha, hac⟩ := inRanges_iff.1 hc
  rw [Bool.eq_false_iff]
  intro hs
  obtain ⟨b, hb, hbc⟩ := inRanges_iff.1 hs
  have hab := List.all_eq_true.1 (List.all_eq_true.1 h a ha) b hb
  rw [Bool.or_eq_true, decide_eq_true_eq, decide_eq_true_eq] at hab
  omega

theorem isPlain_of_isBlank {c : Char} (h : isBlank c = true) : isPlain c = false := by
  rw [Bool.eq_false_iff]
  intro hplain
  have hapart : apart blankRanges plainRanges = true := by decide
  exact Bool.false_ne_true ((inRanges_of_apart hapart h).symm.trans (inRanges_of_isPlain hplain))

theorem isBlank_of_isPlain {c : Char} (h : isPlain c = true) : isBlank c = false := by
  rw [Bool.eq_false_iff]
  intro hblank
  exact Bool.false_ne_true ((isPlain_of_isBlank hblank).symm.trans h)

/-- No word goes on over a blank. -/
theorem isWord_of_isBlank {c : Char} (h : isBlank c = true) : isWord c = false := by
  by_cases hc : c.toNat < 0x80
  · rw [isWord, if_pos hc]
    exact isPlain_of_isBlank h
  · have hapart : ∀ s, apart blankRanges s = true → inRanges s c = false :=
      fun s hs => inRanges_of_apart hs h
    rw [isWord, if_neg hc, isAlphabetic, if_neg hc, isMark, isDecimal, if_neg hc,
      hapart alphabeticRanges (by decide +kernel), hapart markRanges (by decide +kernel),
      hapart decimalRanges (by decide +kernel), hapart connectorRanges (by decide),
      hapart joinerRanges (by decide)]
    rfl

end Text

/-! ### Occurrences -/

/-- A text on a line, with what stands before it and behind it. -/
structure Occurrence (line part : List Char) where
  before : List Char
  after : List Char
  line_eq : line = before ++ part ++ after

namespace Occurrence

variable {line part : List Char} (o : Occurrence line part)

/-- The number of characters before the text. -/
def column : ℕ := o.before.length

/-- The place where the text starts. -/
def start : Cursor := ⟨o.before.reverse, part ++ o.after⟩

/-- The place where the text ends. -/
def stop : Cursor := ⟨part.reverse ++ o.before.reverse, o.after⟩

/-- On neither side does a word go on. -/
def IsWord : Prop :=
  (∀ c ∈ o.before.getLast?, Text.isWord c = false) ∧ ∀ c ∈ o.after.head?, Text.isWord c = false

/-- On either side there is a blank or the end of the line. -/
def StandsAlone : Prop :=
  (∀ c ∈ o.before.getLast?, Text.isBlank c = true) ∧ ∀ c ∈ o.after.head?, Text.isBlank c = true

/-- The text starts outside of every string literal. -/
def OutsideLiteral : Prop := outsideLiteral o.before = true

-- the instances are named because there is another way to decide these, by going through all characters
instance : Decidable o.IsWord :=
  @instDecidableAnd _ _ (Option.decidableForallMem _) (Option.decidableForallMem _)

instance : Decidable o.StandsAlone :=
  @instDecidableAnd _ _ (Option.decidableForallMem _) (Option.decidableForallMem _)

instance : Decidable o.OutsideLiteral := inferInstanceAs (Decidable (_ = _))

theorem start_reads : o.start.Reads part o.stop := ⟨rfl, rfl⟩

theorem column_start : o.start.column = o.column := List.length_reverse

theorem line_start : o.start.line = line := by
  rw [Cursor.line, start, List.reverse_reverse, ← List.append_assoc]
  exact o.line_eq.symm

theorem StandsAlone.isWord {o : Occurrence line part} (h : o.StandsAlone) : o.IsWord :=
  ⟨fun c hc => Text.isWord_of_isBlank (h.1 c hc), fun c hc => Text.isWord_of_isBlank (h.2 c hc)⟩

/-- A line holds one occurrence of a text at most in each column. -/
theorem eq_of_column_eq {o o' : Occurrence line part} (h : o.column = o'.column) : o = o' := by
  obtain ⟨before, after, hline⟩ := o
  obtain ⟨before', after', hline'⟩ := o'
  rw [List.append_assoc] at hline hline'
  obtain ⟨hbefore, hrest⟩ := List.append_inj (hline.symm.trans hline') h
  rw [mk.injEq]
  exact ⟨hbefore, List.append_cancel_left hrest⟩

/-- Reading a text on a line is an occurrence of it. -/
theorem exists_of_reads {c d : Cursor} (hline : c.line = line) (h : c.Reads part d) :
    ∃ o : Occurrence line part, c = o.start ∧ d = o.stop := by
  refine ⟨⟨c.before.reverse, d.after, ?_⟩, ?_, ?_⟩
  · rw [← hline, Cursor.line, h.after_eq, List.append_assoc]
  · rw [start, List.reverse_reverse, ← h.after_eq]
  · rw [stop, List.reverse_reverse, ← h.before_eq]

/-- If another occurrence reaches over the start of an occurrence, the character there is one of the text. -/
theorem mem_of_overlap {o o' : Occurrence line part} (hlt : o'.column < o.column)
    (hover : o.column < o'.stop.column) : ∃ c ∈ o.before.getLast?, c ∈ part := by
  have hstop := o'.start_reads.column_eq
  rw [column_start] at hstop
  -- what stands before `o` is what stands before `o'` and a first part of the text
  have hprefix : o.before <+: line := ⟨part ++ o.after, (List.append_assoc ..).symm.trans o.line_eq.symm⟩
  have hprefix' : o'.before ++ part <+: line := ⟨o'.after, o'.line_eq.symm⟩
  have hover' : o.before <+: o'.before ++ part := by
    refine List.prefix_of_prefix_length_le hprefix hprefix' ?_
    rw [List.length_append]
    unfold column at *
    omega
  have hbelow : o'.before <+: o.before := by
    exact List.prefix_of_prefix_length_le (List.prefix_append _ _) hover' (Nat.le_of_lt hlt)
  obtain ⟨read, hread⟩ := hbelow
  have hpart : read <+: part := by
    rw [← hread] at hover'
    exact (List.prefix_append_right_inj _).1 hover'
  have hne : read ≠ [] := by
    intro hnil
    rw [hnil, List.append_nil] at hread
    unfold column at hlt
    rw [hread] at hlt
    exact Nat.lt_irrefl _ hlt
  refine ⟨read.getLast hne, ?_, hpart.subset (List.getLast_mem hne)⟩
  rw [← hread, List.getLast?_append_of_ne_nil _ hne]
  exact List.getLast?_eq_some_getLast hne

end Occurrence

/-! ### The symbol and its edges -/

theorem mem_edgeBeside {x : Option Char} {c d : Cursor} :
    d ∈ edgeBeside x c ↔ d = c ∧ (x.any Text.isNameChar = true → c.atBoundary = true) := by
  rw [edgeBeside]
  split
  case isTrue h => simp [Matcher.mem_boundary, h]
  case isFalse h => simp [Matcher.empty, h]

theorem mem_symbolMatcher {symbol : List Char} {c d : Cursor} :
    d ∈ symbolMatcher symbol c ↔
      c.Reads symbol d ∧ (symbol.head?.any Text.isNameChar = true → c.atBoundary = true) ∧
        (symbol.getLast?.any Text.isNameChar = true → d.atBoundary = true) := by
  simp only [symbolMatcher, Matcher.all, Matcher.andThen, Matcher.empty, List.mem_flatMap, mem_edgeBeside,
    Matcher.mem_chars, List.mem_singleton]
  constructor
  · intro h
    obtain ⟨c', ⟨hc, hlead⟩, d', hreads, d'', ⟨hd, htrail⟩, hd'⟩ := h
    rw [hd', hd]
    rw [hc] at hreads
    exact ⟨hreads, hlead, htrail⟩
  · intro h
    obtain ⟨hreads, hlead, htrail⟩ := h
    exact ⟨c, ⟨rfl, hlead⟩, d, hreads, d, ⟨rfl, htrail⟩, rfl⟩

theorem symbolMatcher_eq_nil {symbol : List Char} {c : Cursor} (hne : symbol ≠ [])
    (hhead : symbol.head? ≠ c.after.head?) : symbolMatcher symbol c = [] := by
  apply List.eq_nil_iff_forall_not_mem.2
  intro d hd
  have hchars := Matcher.mem_chars.2 (mem_symbolMatcher.1 hd).1
  rw [Matcher.chars_eq_nil hne hhead] at hchars
  cases hchars

/-- The first and the last character of a text are word characters if they are name characters. -/
def EdgesFit (part : List Char) : Prop :=
  (∀ c ∈ part.head?, Text.isNameChar c = true → Text.isWord c = true) ∧
    ∀ c ∈ part.getLast?, Text.isNameChar c = true → Text.isWord c = true

instance (part : List Char) : Decidable (EdgesFit part) :=
  @instDecidableAnd _ _ (Option.decidableForallMem _) (Option.decidableForallMem _)

theorem edgesFit_of_isPlain {part : List Char} (h : ∀ c ∈ part, Text.isPlain c = true) : EdgesFit part := by
  constructor
  · intro c hc _
    exact Text.isWord_of_isPlain (h c (List.mem_of_mem_head? hc))
  · intro c hc _
    exact Text.isWord_of_isPlain (h c (List.mem_of_mem_getLast? hc))

namespace Occurrence

variable {line part : List Char} {o : Occurrence line part}

theorem atBoundary_start (hne : part ≠ []) :
    o.start.atBoundary = (o.before.getLast?.any Text.isWord != part.head?.any Text.isWord) := by
  rw [Cursor.atBoundary, start, List.head?_reverse, List.head?_append_of_ne_nil _ hne]

theorem atBoundary_stop (hne : part ≠ []) :
    o.stop.atBoundary = (part.getLast?.any Text.isWord != o.after.head?.any Text.isWord) := by
  rw [Cursor.atBoundary, stop, ← List.reverse_append, List.head?_reverse,
    List.getLast?_append_of_ne_nil _ hne]

/-- In front of a recognised symbol that begins with a plain character no word goes on. -/
theorem isWord_before (h : o.stop ∈ symbolMatcher part o.start) {first : Char} (hfirst : first ∈ part.head?)
    (hplain : Text.isPlain first = true) : ∀ c ∈ o.before.getLast?, Text.isWord c = false := by
  have hne : part ≠ [] := List.ne_nil_of_mem (List.mem_of_mem_head? hfirst)
  obtain ⟨-, hedge, -⟩ := mem_symbolMatcher.1 h
  rw [Option.mem_def.1 hfirst, Option.any_some, atBoundary_start hne, Option.mem_def.1 hfirst,
    Option.any_some, Text.isWord_of_isPlain hplain, bne_iff_ne, ← Bool.eq_false_iff, Option.any_eq_false] at hedge
  exact hedge (Text.isNameChar_of_isPlain hplain)

/-- Nor does one behind a recognised symbol that ends with a plain character. -/
theorem isWord_after (h : o.stop ∈ symbolMatcher part o.start) {last : Char} (hlast : last ∈ part.getLast?)
    (hplain : Text.isPlain last = true) : ∀ c ∈ o.after.head?, Text.isWord c = false := by
  have hne : part ≠ [] := List.ne_nil_of_mem (List.mem_of_mem_getLast? hlast)
  obtain ⟨-, -, hedge⟩ := mem_symbolMatcher.1 h
  rw [Option.mem_def.1 hlast, Option.any_some, atBoundary_stop hne, Option.mem_def.1 hlast,
    Option.any_some, Text.isWord_of_isPlain hplain, bne_comm, bne_iff_ne, ← Bool.eq_false_iff,
    Option.any_eq_false] at hedge
  exact hedge (Text.isNameChar_of_isPlain hplain)

/-- If no word goes on beside it, a symbol is recognised unless it begins or ends with a name character that
belongs to no word. -/
theorem IsWord.stop_mem_iff (h : o.IsWord) (hne : part ≠ []) :
    o.stop ∈ symbolMatcher part o.start ↔ EdgesFit part := by
  have hbefore : o.before.getLast?.any Text.isWord = false := by
    rw [Option.any_eq_false]
    exact h.1
  have hafter : o.after.head?.any Text.isWord = false := by
    rw [Option.any_eq_false]
    exact h.2
  rw [mem_symbolMatcher, atBoundary_start hne, atBoundary_stop hne, hbefore, hafter, EdgesFit,
    List.head?_eq_some_head hne, List.getLast?_eq_some_getLast hne]
  simp [start_reads]

/-- A plain symbol is recognised exactly where it stands as a word of its own. -/
theorem stop_mem_iff_isWord (hne : part ≠ []) (hplain : ∀ c ∈ part, Text.isPlain c = true) :
    o.stop ∈ symbolMatcher part o.start ↔ o.IsWord := by
  refine ⟨fun h => ⟨?_, ?_⟩, fun h => (h.stop_mem_iff hne).2 (edgesFit_of_isPlain hplain)⟩
  · exact isWord_before h (List.head?_eq_some_head hne) (hplain _ (List.head_mem hne))
  · exact isWord_after h (List.getLast?_eq_some_getLast hne) (hplain _ (List.getLast_mem hne))

end Occurrence

/-! ### Sites of rules -/

namespace UsageRule

open Text.Matcher

instance : Forward callTrail := by
  rw [callTrail]
  infer_instance

theorem forward_of_mem_all {rule : UsageRule} (h : rule ∈ UsageRule.all) :
    Forward rule.frame.lead ∧ Forward rule.frame.trail := by
  simp only [UsageRule.all, List.mem_cons, List.not_mem_nil, or_false] at h
  rcases h with rfl | rfl | rfl | rfl | rfl | rfl | rfl | rfl | rfl | rfl | rfl | rfl | rfl
  all_goals
    simp only [namedImport, wholeImport, requiredImport, fromImport, useImport, namedExport, defaultExport,
      assignedExport, construction, memberCall, memberRead, bareCall, mention]
    exact ⟨inferInstance, inferInstance⟩

variable {rule : UsageRule} {symbol line : List Char}

/-- Whatever a rule recognises is an occurrence of the symbol, with edges where the symbol wants them. -/
theorem exists_occurrence_of_mem_sites (hrule : rule ∈ UsageRule.all) {s : Site}
    (h : s ∈ rule.sites symbol line) :
    ∃ o : Occurrence line symbol, s.start = o.start ∧ o.stop ∈ symbolMatcher symbol o.start := by
  obtain ⟨d, hline, hmatch⟩ := Frame.exists_place_of_mem_sites (List.mem_filter.1 h).1
  obtain ⟨hlead, hpiece, -⟩ := Frame.mem_matchesAt.1 hmatch
  obtain ⟨read, hread⟩ := (forward_of_mem_all hrule).1.exists_reads hlead
  obtain ⟨o, hstart, hstop⟩ :=
    Occurrence.exists_of_reads (hread.line_eq.trans hline) (mem_symbolMatcher.1 hpiece).1
  rw [hstart, hstop] at hpiece
  exact ⟨o, hstart, hpiece⟩

theorem lt_column_of_mem_symbolMatcher (hsymbol : symbol ≠ []) ⦃c d : Text.Cursor⦄ (h : d ∈ symbolMatcher symbol c) :
    c.column < d.column := by
  rw [(mem_symbolMatcher.1 h).1.column_eq]
  exact Nat.lt_add_of_pos_right (List.length_pos_of_ne_nil hsymbol)

/-- A rule recognises a symbol from left to right. -/
theorem pairwise_sites (hrule : rule ∈ UsageRule.all) (hsymbol : symbol ≠ []) (line : List Char) :
    (rule.sites symbol line).Pairwise fun s t => s.start.column < t.start.column := by
  obtain ⟨hlead, htrail⟩ := forward_of_mem_all hrule
  exact (Frame.pairwise_sites hlead htrail (lt_column_of_mem_symbolMatcher hsymbol) line).filter _

/-- What one match of a rule takes in is not looked at again. -/
theorem frameEnd_le_of_mem_sites (hrule : rule ∈ UsageRule.all) (hsymbol : symbol ≠ []) {s t : Site}
    (hs : s ∈ rule.frame.sites (symbolMatcher symbol) line) (ht : t ∈ rule.frame.sites (symbolMatcher symbol) line)
    (hlt : s.start.column < t.start.column) : s.frameEnd.column ≤ t.start.column := by
  obtain ⟨hlead, htrail⟩ := forward_of_mem_all hrule
  exact Frame.frameEnd_le_of_mem_sites hlead htrail (lt_column_of_mem_symbolMatcher hsymbol) hs ht hlt

end UsageRule

end CodeAtlas
