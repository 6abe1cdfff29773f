import CodeAtlas.Text.Cursor
import Mathlib.Data.List.Basic

/-!
# What matchers read

A matcher that leads from one place to another has read the characters between the two: nothing is skipped,
nothing is read twice, and the line stays what it is.  `Cursor.Reads` says so of two places, and
`Matcher.Forward` of all places that a matcher leads to.  It holds of the single pieces and passes to
everything that is put together from them.

For texts and runs the characters read are known exactly (`mem_chars`, `mem_runs`), and where the line ahead
is known, so is the place where they end (`chars_append`, `longest_append`).
-/

namespace CodeAtlas.Text

/-- Reading that meets no `x` does not go beyond the first one. -/
theorem exists_eq_append_of_not_mem {x : Char} {read after body rest : List Char}
    (h : read ++ after = body ++ x :: rest) (hx : x ∉ read) :
    ∃ more, body = read ++ more ∧ after = more ++ x :: rest := by
  rcases List.append_eq_append_iff.1 h with ⟨more, hbody, hafter⟩ | ⟨more, hread, hrest⟩
  · exact ⟨more, hbody, hafter⟩
  · cases more with
    | nil =>
      rw [List.append_nil] at hread
      exact ⟨[], by rw [hread, List.append_nil], hrest.symm⟩
    | cons y more =>
      obtain ⟨hxy, -⟩ := List.cons.inj hrest
      exact absurd (by rw [hread, hxy]; simp) hx

/-- Reading a text leads from one place to another. -/
structure Cursor.Reads (c : Cursor) (read : List Char) (d : Cursor) : Prop where
  before_eq : d.before = read.reverse ++ c.before
  after_eq : c.after = read ++ d.after

namespace Cursor

variable {c d e : Cursor} {read : List Char}

theorem Reads.refl (c : Cursor) : c.Reads [] c := ⟨rfl, rfl⟩

theorem Reads.trans {more : List Char} (h : c.Reads read d) (h' : d.Reads more e) :
    c.Reads (read ++ more) e := by
  constructor
  · rw [h'.before_eq, h.before_eq, List.reverse_append, List.append_assoc]
  · rw [h.after_eq, h'.after_eq, List.append_assoc]

theorem Reads.line_eq (h : c.Reads read d) : d.line = c.line := by
  rw [line, line, h.before_eq, h.after_eq, List.reverse_append, List.reverse_reverse, List.append_assoc]

theorem Reads.column_eq (h : c.Reads read d) : d.column = c.column + read.length := by
  rw [column, column, h.before_eq, List.length_append, List.length_reverse, Nat.add_comm]

/-- Where reading ends is settled by what is read. -/
theorem Reads.unique (h : c.Reads read d) (h' : c.Reads read e) : d = e := by
  obtain ⟨before, after⟩ := d
  obtain ⟨before', after'⟩ := e
  rw [mk.injEq]
  exact ⟨h.before_eq.trans h'.before_eq.symm, List.append_cancel_left (h.after_eq.symm.trans h'.after_eq)⟩

/-- What is read between two places is settled by the places. -/
theorem Reads.eq_of_reads {other : List Char} (h : c.Reads read d) (h' : c.Reads other d) : read = other :=
  List.append_cancel_right (h.after_eq.symm.trans h'.after_eq)

theorem Reads.head?_after {x : Char} (h : c.Reads (x :: read) d) : c.after.head? = some x := by
  rw [h.after_eq, List.cons_append, List.head?_cons]

theorem reads_append_iff {more : List Char} :
    c.Reads (read ++ more) e ↔ ∃ d, c.Reads read d ∧ d.Reads more e := by
  refine ⟨fun h => ⟨⟨read.reverse ++ c.before, more ++ e.after⟩, ⟨rfl, ?_⟩, ⟨?_, rfl⟩⟩, ?_⟩
  · rw [h.after_eq, List.append_assoc]
  · rw [h.before_eq, List.reverse_append, List.append_assoc]
  · intro ⟨d, hread, hmore⟩
    exact hread.trans hmore

/-- Between two places of a line stands some text. -/
theorem exists_reads_of_column_le (hline : c.line = d.line) (hle : c.column ≤ d.column) :
    ∃ read, c.Reads read d := by
  have hprefix : c.before.reverse <+: d.before.reverse := by
    refine List.prefix_of_prefix_length_le ⟨c.after, rfl⟩ ⟨d.after, hline.symm⟩ ?_
    simpa [column] using hle
  obtain ⟨read, hread⟩ := hprefix
  refine ⟨read, ?_, ?_⟩
  · rw [← List.reverse_reverse d.before, ← hread, List.reverse_append, List.reverse_reverse]
  · rw [line, line, ← hread, List.append_assoc] at hline
    exact List.append_cancel_left hline

/-- A place right behind an `x` does not lie within a text that has no `x`. -/
theorem Reads.lt_column_of_not_mem {x : Char} (h : c.Reads read d) (hx : x ∉ read) (hline : e.line = c.line)
    (hlast : x ∈ e.before.head?) (hlt : c.column < e.column) : d.column < e.column := by
  by_contra hle
  obtain ⟨first, hfirst⟩ := exists_reads_of_column_le hline.symm (Nat.le_of_lt hlt)
  obtain ⟨rest, hrest⟩ := exists_reads_of_column_le (hline.trans h.line_eq.symm) (Nat.le_of_not_lt hle)
  have hread : read = first ++ rest := h.eq_of_reads (hfirst.trans hrest)
  have hne : first.reverse ≠ [] := by
    intro hnil
    have hcolumn := hfirst.column_eq
    rw [List.reverse_eq_nil_iff.1 hnil, List.length_nil] at hcolumn
    omega
  rw [hfirst.before_eq, List.head?_append_of_ne_nil _ hne] at hlast
  apply hx
  rw [hread]
  exact List.mem_append_left _ (List.mem_reverse.1 (List.mem_of_mem_head? hlast))

/-- Reading starts with the character ahead. -/
theorem reads_cons_iff {before after : List Char} {x y : Char} :
    Reads ⟨before, x :: after⟩ (y :: read) d ↔ y = x ∧ Reads ⟨x :: before, after⟩ read d := by
  constructor
  · intro h
    obtain ⟨hxy, hafter⟩ := List.cons.inj h.after_eq
    refine ⟨hxy.symm, ?_, hafter⟩
    rw [h.before_eq, hxy, List.reverse_cons, List.append_assoc]
    rfl
  · intro ⟨hyx, h⟩
    rw [hyx]
    refine ⟨?_, congrArg (x :: ·) h.after_eq⟩
    rw [h.before_eq, List.reverse_cons, List.append_assoc]
    rfl

/-- Every place of a line is reached from its start. -/
theorem reads_start (c : Cursor) : (start c.line).Reads c.before.reverse c := by
  constructor
  · rw [List.reverse_reverse]
    exact (List.append_nil _).symm
  · rfl

end Cursor

namespace Matcher

variable {m n : Matcher} {p : Char → Bool}

/-- Wherever the matcher leads to, it has read the characters up to there. -/
class Forward (m : Matcher) : Prop where
  exists_reads : ∀ ⦃c d : Cursor⦄, d ∈ m c → ∃ read, c.Reads read d

/-! ### Single pieces -/

theorem mem_boundary {c d : Cursor} : d ∈ boundary c ↔ d = c ∧ c.atBoundary = true := by
  rw [boundary]
  split <;> simp_all

theorem mem_one {c d : Cursor} : d ∈ one p c ↔ ∃ x, p x = true ∧ c.Reads [x] d := by
  obtain ⟨before, after⟩ := c
  cases after with
  | nil =>
    constructor
    · intro h
      cases h
    · intro ⟨x, _, h⟩
      cases h.after_eq
  | cons y after =>
    rw [one]
    constructor
    · intro h
      split at h
      case isTrue hy =>
        rw [List.mem_singleton.1 h]
        exact ⟨y, hy, Cursor.reads_cons_iff.2 ⟨rfl, Cursor.Reads.refl _⟩⟩
      case isFalse => cases h
    · intro ⟨x, hx, h⟩
      obtain ⟨hxy, hd⟩ := Cursor.reads_cons_iff.1 h
      rw [← hxy, if_pos hx, List.mem_singleton, hxy]
      exact hd.unique (Cursor.Reads.refl _)

theorem mem_chars {l : List Char} {c d : Cursor} : d ∈ chars l c ↔ c.Reads l d := by
  induction l generalizing c with
  | nil =>
    rw [chars, List.mem_singleton]
    constructor
    · intro h
      rw [h]
      exact Cursor.Reads.refl c
    · intro h
      exact h.unique (Cursor.Reads.refl c)
  | cons x l ih =>
    obtain ⟨before, after⟩ := c
    cases after with
    | nil =>
      constructor
      · intro h
        cases h
      · intro h
        cases h.after_eq
    | cons y after =>
      rw [chars, Cursor.reads_cons_iff, ← ih]
      split <;> simp_all

theorem chars_eq_nil {l : List Char} {c : Cursor} (hne : l ≠ []) (hhead : l.head? ≠ c.after.head?) :
    chars l c = [] := by
  apply List.eq_nil_iff_forall_not_mem.2
  intro d hd
  apply hhead
  rw [(mem_chars.1 hd).after_eq, List.head?_append_of_ne_nil _ hne]

/-- A text that stands ahead is read. -/
theorem chars_append (l before after : List Char) :
    chars l ⟨before, l ++ after⟩ = [⟨l.reverse ++ before, after⟩] := by
  induction l generalizing before with
  | nil => rfl
  | cons x l ih =>
    rw [List.cons_append, chars, if_pos rfl, ih, List.reverse_cons, List.append_assoc]
    rfl

theorem mem_runs {before after : List Char} {d : Cursor} :
    d ∈ runs p before after ↔ ∃ run, (∀ x ∈ run, p x = true) ∧ Cursor.Reads ⟨before, after⟩ run d := by
  induction after generalizing before with
  | nil =>
    rw [runs, List.mem_singleton]
    constructor
    · intro h
      rw [h]
      exact ⟨[], List.forall_mem_nil _, Cursor.Reads.refl _⟩
    · intro ⟨run, _, h⟩
      obtain ⟨hrun, -⟩ := List.append_eq_nil_iff.1 h.after_eq.symm
      rw [hrun] at h
      exact h.unique (Cursor.Reads.refl _)
  | cons y after ih =>
    rw [runs, List.mem_cons]
    constructor
    · intro h
      rcases h with h | h
      · rw [h]
        exact ⟨[], List.forall_mem_nil _, Cursor.Reads.refl _⟩
      · split at h
        case isTrue hy =>
          obtain ⟨run, hrun, hreads⟩ := ih.1 h
          refine ⟨y :: run, List.forall_mem_cons.2 ⟨hy, hrun⟩, ?_⟩
          exact Cursor.reads_cons_iff.2 ⟨rfl, hreads⟩
        case isFalse => cases h
    · intro ⟨run, hrun, hreads⟩
      cases run with
      | nil => exact .inl (hreads.unique (Cursor.Reads.refl _))
      | cons x run =>
        obtain ⟨hxy, hreads⟩ := Cursor.reads_cons_iff.1 hreads
        obtain ⟨hx, hrun⟩ := List.forall_mem_cons.1 hrun
        right
        rw [← hxy, if_pos hx, hxy]
        exact ih.2 ⟨run, hrun, hreads⟩

/-- Shorter runs come first. -/
theorem pairwise_runs (p : Char → Bool) (before after : List Char) :
    (runs p before after).Pairwise fun c d => c.column < d.column := by
  induction after generalizing before with
  | nil => exact List.pairwise_singleton _ _
  | cons y after ih =>
    rw [runs, List.pairwise_cons]
    split
    case isTrue =>
      refine ⟨?_, ih (y :: before)⟩
      intro d hd
      obtain ⟨run, -, hreads⟩ := mem_runs.1 hd
      have hcolumn := hreads.column_eq
      simp only [Cursor.column, List.length_cons] at hcolumn ⊢
      omega
    case isFalse => exact ⟨List.forall_mem_nil _, List.Pairwise.nil⟩

theorem runEnd_mem_runs (p : Char → Bool) (before after : List Char) :
    runEnd p before after ∈ runs p before after := by
  induction after generalizing before with
  | nil => exact List.mem_singleton_self _
  | cons y after ih =>
    rw [runEnd, runs]
    split
    case isTrue => exact List.mem_cons_of_mem _ (ih (y :: before))
    case isFalse => exact List.mem_singleton_self _

/-- The longest run ends where a character of another class, or none, is ahead. -/
theorem longest_append {run after : List Char} (hrun : ∀ x ∈ run, p x = true)
    (hafter : ∀ x ∈ after.head?, p x = false) (before : List Char) :
    longest p ⟨before, run ++ after⟩ = [⟨run.reverse ++ before, after⟩] := by
  show [runEnd p before (run ++ after)] = _
  congr 1
  induction run generalizing before with
  | nil =>
    cases after with
    | nil => rfl
    | cons y after => rw [List.nil_append, runEnd, hafter y rfl, if_neg Bool.false_ne_true]; rfl
  | cons x run ih =>
    obtain ⟨hx, hrun⟩ := List.forall_mem_cons.1 hrun
    rw [List.cons_append, runEnd, if_pos hx, ih hrun, List.reverse_cons, List.append_assoc]
    rfl

/-- The longest run of one character at least. -/
theorem longest₁_append {run after : List Char} (hne : run ≠ []) (hrun : ∀ x ∈ run, p x = true)
    (hafter : ∀ x ∈ after.head?, p x = false) (before : List Char) :
    longest₁ p ⟨before, run ++ after⟩ = [⟨run.reverse ++ before, after⟩] := by
  cases run with
  | nil => exact absurd rfl hne
  | cons x run =>
    obtain ⟨hx, hrun⟩ := List.forall_mem_cons.1 hrun
    rw [longest₁, andThen, List.cons_append, one, if_pos hx, List.flatMap_singleton,
      longest_append hrun hafter, List.reverse_cons, List.append_assoc]
    rfl

theorem mem_someBlanks {c d : Cursor} :
    d ∈ someBlanks c ↔ ∃ run, (∀ x ∈ run, isBlank x = true) ∧ c.Reads run d :=
  List.mem_reverse.trans mem_runs

theorem exists_run_of_mem_someBlanks₁ {c d : Cursor} (h : d ∈ someBlanks₁ c) :
    ∃ run, run ≠ [] ∧ (∀ x ∈ run, isBlank x = true) ∧ c.Reads run d := by
  obtain ⟨e, he, hd⟩ := List.mem_flatMap.1 h
  obtain ⟨x, hx, hreads⟩ := mem_one.1 he
  obtain ⟨run, hrun, hreads'⟩ := mem_someBlanks.1 hd
  exact ⟨x :: run, List.cons_ne_nil x run, List.forall_mem_cons.2 ⟨hx, hrun⟩, hreads.trans hreads'⟩

theorem exists_run_of_mem_longest {c d : Cursor} (h : d ∈ longest p c) :
    ∃ run, (∀ x ∈ run, p x = true) ∧ c.Reads run d := by
  rw [List.mem_singleton.1 h]
  exact mem_runs.1 (runEnd_mem_runs p c.before c.after)

theorem exists_run_of_mem_blanks {c d : Cursor} (h : d ∈ blanks c) :
    ∃ run, (∀ x ∈ run, isBlank x = true) ∧ c.Reads run d :=
  exists_run_of_mem_longest h

theorem mem_longest_of_reads {c d : Cursor} {run : List Char} (h : c.Reads run d)
    (hrun : ∀ x ∈ run, p x = true) (hafter : ∀ x ∈ d.after.head?, p x = false) : d ∈ longest p c := by
  obtain ⟨before, after⟩ := c
  obtain ⟨before', after'⟩ := d
  obtain rfl : before' = run.reverse ++ before := h.before_eq
  obtain rfl : after = run ++ after' := h.after_eq
  rw [longest_append hrun hafter]
  exact List.mem_singleton_self _

/-! ### Sequences -/

theorem mem_all_cons {l : List Matcher} {c d : Cursor} : d ∈ all (m :: l) c ↔ ∃ e ∈ m c, d ∈ all l e :=
  List.mem_flatMap

theorem all_cons_of_eq_singleton {c d : Cursor} (h : m c = [d]) (l : List Matcher) :
    all (m :: l) c = all l d := by
  rw [all, andThen, h, List.flatMap_singleton]

theorem all_cons_of_eq_nil {c : Cursor} (h : m c = []) (l : List Matcher) : all (m :: l) c = [] := by
  rw [all, andThen, h, List.flatMap_nil]

theorem all_singleton (m : Matcher) : all [m] = m := by
  funext c
  exact List.flatMap_singleton' (m c)

theorem optional_of_eq_nil {c : Cursor} (h : m c = []) : optional m c = [c] := by
  rw [optional, h, List.nil_append]

theorem mem_words {l : List String} {c d : Cursor} : d ∈ words l c ↔ ∃ s ∈ l, c.Reads s.toList d := by
  rw [words]
  induction l with
  | nil => simp [any]
  | cons s l ih => simp [any, ih, text, mem_chars]

/-! ### Forward matchers

Instances, so that a matcher is seen to be forward from the way it is put together. -/

instance : Forward empty where
  exists_reads := by
    intro c d h
    rw [List.mem_singleton.1 h]
    exact ⟨[], Cursor.Reads.refl c⟩

instance : Forward lineStart where
  exists_reads := by
    intro c d h
    rw [lineStart] at h
    split at h
    case isTrue =>
      rw [List.mem_singleton.1 h]
      exact ⟨[], Cursor.Reads.refl c⟩
    case isFalse => cases h

instance : Forward boundary where
  exists_reads := by
    intro c d h
    rw [(mem_boundary.1 h).1]
    exact ⟨[], Cursor.Reads.refl c⟩

instance : Forward (one p) where
  exists_reads := by
    intro c d h
    obtain ⟨x, -, hreads⟩ := mem_one.1 h
    exact ⟨[x], hreads⟩

instance (s : String) : Forward (text s) where
  exists_reads := fun _ _ h => ⟨s.toList, mem_chars.1 h⟩

instance : Forward (lazily p) where
  exists_reads := by
    intro c d h
    obtain ⟨run, -, hreads⟩ := mem_runs.1 h
    exact ⟨run, hreads⟩

instance : Forward (greedy p) where
  exists_reads := by
    intro c d h
    obtain ⟨run, -, hreads⟩ := mem_runs.1 (List.mem_reverse.1 h)
    exact ⟨run, hreads⟩

instance : Forward (longest p) where
  exists_reads := by
    intro c d h
    obtain ⟨run, -, hreads⟩ := exists_run_of_mem_longest h
    exact ⟨run, hreads⟩

instance [Forward m] [Forward n] : Forward (andThen m n) where
  exists_reads := by
    intro c e h
    obtain ⟨d, hd, he⟩ := List.mem_flatMap.1 h
    obtain ⟨read, hread⟩ := Forward.exists_reads hd
    obtain ⟨more, hmore⟩ := Forward.exists_reads he
    exact ⟨read ++ more, hread.trans hmore⟩

instance [Forward m] : Forward (optional m) where
  exists_reads := by
    intro c d h
    rcases List.mem_append.1 h with h | h
    · exact Forward.exists_reads h
    · rw [List.mem_singleton.1 h]
      exact ⟨[], Cursor.Reads.refl c⟩

instance : Forward (all []) := inferInstanceAs (Forward empty)

instance {l : List Matcher} [Forward m] [Forward (all l)] : Forward (all (m :: l)) :=
  inferInstanceAs (Forward (andThen m (all l)))

instance : Forward (any []) where
  exists_reads := fun _ _ h => absurd h List.not_mem_nil

instance {l : List Matcher} [Forward m] [Forward (any l)] : Forward (any (m :: l)) where
  exists_reads := by
    intro c d h
    rcases List.mem_append.1 h with h | h
    · exact Forward.exists_reads h
    · exact Forward.exists_reads h

instance (l : List String) : Forward (words l) := by
  rw [words]
  induction l with
  | nil => exact inferInstanceAs (Forward (any []))
  | cons s l ih =>
    rw [List.map_cons]
    infer_instance

instance : Forward (longest₁ p) := inferInstanceAs (Forward (andThen (one p) (longest p)))

instance : Forward blanks := inferInstanceAs (Forward (longest isBlank))

instance : Forward blanks₁ := inferInstanceAs (Forward (longest₁ isBlank))

instance : Forward someBlanks := inferInstanceAs (Forward (greedy isBlank))

instance : Forward someBlanks₁ := inferInstanceAs (Forward (andThen (one isBlank) (greedy isBlank)))

end Matcher

end CodeAtlas.Text
