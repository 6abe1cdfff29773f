import CodeAtlas.Proofs.Text.Matching
import CodeAtlas.Usage.Frame

/-!
# The search for sites

The search goes through a line once.  It tries the frame at every place that the last match has not passed
over, so three things are known of the sites of a frame:

* `exists_place_of_mem_sites` — each of them is a match at some place of the line;
* `pairwise_sites` — each starts behind the one before it, and not before its end (`frameEnd_le_of_mem_sites`);
* `exists_mem_sites` — a match at a place is missed only if a match from further left reaches over the place.

A frame that is tied to the start of the line has its preferred match there as its only site
(`Anchored.sites_eq`).
-/

namespace CodeAtlas

open Text (Cursor Matcher)

namespace Frame

variable {f : Frame} {piece : Matcher}

theorem mem_matchesAt {c : Cursor} {s : Site} :
    s ∈ f.matchesAt piece c ↔
      s.start ∈ f.lead c ∧ s.stop ∈ piece s.start ∧ s.frameEnd ∈ f.trail s.stop := by
  rw [matchesAt, List.mem_flatMap]
  constructor
  · intro ⟨start, hstart, h⟩
    obtain ⟨stop, hstop, h⟩ := List.mem_flatMap.1 h
    obtain ⟨frameEnd, hend, h⟩ := List.mem_map.1 h
    rw [← h]
    exact ⟨hstart, hstop, hend⟩
  · intro ⟨hstart, hstop, hend⟩
    exact ⟨s.start, hstart, List.mem_flatMap.2 ⟨s.stop, hstop, List.mem_map.2 ⟨s.frameEnd, hend, rfl⟩⟩⟩

/-- If the lead tries places from left to right, the preferred match is the leftmost one. -/
theorem column_le_of_head? {c : Cursor} (hlead : (f.lead c).Pairwise fun d e => d.column < e.column) {s t : Site}
    (hs : (f.matchesAt piece c).head? = some s) (ht : t ∈ f.matchesAt piece c) :
    s.start.column ≤ t.start.column := by
  have hsorted : (f.matchesAt piece c).Pairwise fun s t => s.start.column ≤ t.start.column := by
    have hstart : ∀ (start : Cursor) (s : Site),
        s ∈ ((piece start).flatMap fun stop => (f.trail stop).map fun frameEnd => ⟨start, stop, frameEnd⟩) →
          s.start = start := by
      intro start s hs
      obtain ⟨stop, -, hs⟩ := List.mem_flatMap.1 hs
      obtain ⟨frameEnd, -, hs⟩ := List.mem_map.1 hs
      rw [← hs]
    rw [matchesAt, List.pairwise_flatMap]
    constructor
    · intro start _
      refine List.pairwise_of_forall_mem_list ?_
      intro s hs t ht
      have hsame : s.start = t.start := (hstart start s hs).trans (hstart start t ht).symm
      exact Nat.le_of_eq (congrArg Cursor.column hsame)
    · refine hlead.imp ?_
      intro d e hlt s hs t ht
      rw [hstart d s hs, hstart e t ht]
      exact Nat.le_of_lt hlt
  obtain ⟨rest, hrest⟩ := List.head?_eq_some_iff.1 hs
  rw [hrest] at hsorted ht
  rcases List.mem_cons.1 ht with rfl | ht
  · exact Nat.le_refl _
  · exact (List.pairwise_cons.1 hsorted).1 t ht

/-! ### Every site is a match -/

theorem exists_place_of_mem_sitesFrom {skip : ℕ} {before after : List Char} {s : Site}
    (h : s ∈ f.sitesFrom piece skip before after) :
    ∃ read d, Cursor.Reads ⟨before, after⟩ read d ∧ skip ≤ read.length ∧ s ∈ f.matchesAt piece d := by
  fun_induction sitesFrom f piece skip before after with
  | case1 => cases h
  | case2 skip before c after ih =>
    obtain ⟨read, d, hreads, hskip, hs⟩ := ih h
    exact ⟨c :: read, d, Cursor.reads_cons_iff.2 ⟨rfl, hreads⟩, Nat.succ_le_succ hskip, hs⟩
  | case3 before c after hnone ih =>
    obtain ⟨read, d, hreads, -, hs⟩ := ih h
    exact ⟨c :: read, d, Cursor.reads_cons_iff.2 ⟨rfl, hreads⟩, Nat.zero_le _, hs⟩
  | case4 before c after site hsite ih =>
    rcases List.mem_cons.1 h with h | h
    · rw [h]
      exact ⟨[], _, Cursor.Reads.refl _, Nat.zero_le _, List.mem_of_head? hsite⟩
    · obtain ⟨read, d, hreads, -, hs⟩ := ih h
      exact ⟨c :: read, d, Cursor.reads_cons_iff.2 ⟨rfl, hreads⟩, Nat.zero_le _, hs⟩

theorem exists_place_of_mem_sites {line : List Char} {s : Site} (h : s ∈ f.sites piece line) :
    ∃ d : Cursor, d.line = line ∧ s ∈ f.matchesAt piece d := by
  obtain ⟨read, d, hreads, -, hs⟩ := exists_place_of_mem_sitesFrom h
  exact ⟨d, hreads.line_eq, hs⟩

/-! ### Sites from left to right -/

theorem pairwise_sitesFrom (hlead : f.lead.Forward) (skip : ℕ) (before after : List Char) :
    (f.sitesFrom piece skip before after).Pairwise fun s t => s.frameEnd.column ≤ t.start.column := by
  fun_induction sitesFrom f piece skip before after with
  | case1 => exact List.Pairwise.nil
  | case2 skip before c after ih => exact ih
  | case3 before c after hnone ih => exact ih
  | case4 before c after site hsite ih =>
    refine List.pairwise_cons.2 ⟨?_, ih⟩
    -- the next site is looked for behind the frame of this one, and its lead only goes on from there
    intro t ht
    obtain ⟨read, d, hreads, hskip, ht⟩ := exists_place_of_mem_sitesFrom ht
    obtain ⟨more, hmore⟩ := hlead.exists_reads (mem_matchesAt.1 ht).1
    have hd : d.column = before.length + 1 + read.length := hreads.column_eq
    have hstart := hmore.column_eq
    omega

theorem pairwise_sites (hlead : f.lead.Forward) (htrail : f.trail.Forward)
    (hpiece : ∀ ⦃c d : Cursor⦄, d ∈ piece c → c.column < d.column) (line : List Char) :
    (f.sites piece line).Pairwise fun s t => s.start.column < t.start.column := by
  refine (pairwise_sitesFrom hlead 0 [] line).imp_of_mem ?_
  intro s t hs _ hst
  obtain ⟨d, -, hmatch⟩ := exists_place_of_mem_sites hs
  obtain ⟨-, hstop, hend⟩ := mem_matchesAt.1 hmatch
  obtain ⟨read, hread⟩ := htrail.exists_reads hend
  have hmoved := hpiece hstop
  have htrailed := hread.column_eq
  omega

/-- A site ends before the next one starts. -/
theorem frameEnd_le_of_mem_sites (hlead : f.lead.Forward) (htrail : f.trail.Forward)
    (hpiece : ∀ ⦃c d : Cursor⦄, d ∈ piece c → c.column < d.column) {line : List Char} {s t : Site}
    (hs : s ∈ f.sites piece line) (ht : t ∈ f.sites piece line) (hlt : s.start.column < t.start.column) :
    s.frameEnd.column ≤ t.start.column := by
  have hself : ∀ s ∈ f.sites piece line, s.start.column < s.start.column → s.frameEnd.column ≤ s.start.column := by
    intro s _ h
    exact absurd h (Nat.lt_irrefl _)
  have hafter : (f.sites piece line).Pairwise fun s t =>
      s.start.column < t.start.column → s.frameEnd.column ≤ t.start.column := by
    refine (pairwise_sitesFrom hlead 0 [] line).imp ?_
    intro s t hle _
    exact hle
  have hbefore : (f.sites piece line).Pairwise (flip fun s t =>
      s.start.column < t.start.column → s.frameEnd.column ≤ t.start.column) := by
    refine (pairwise_sites hlead htrail hpiece line).imp ?_
    intro s t hst hts
    exact absurd hst (Nat.lt_asymm hts)
  exact hafter.forall_of_forall_of_flip hself hbefore hs ht hlt

/-! ### No match is missed -/

theorem exists_mem_sitesFrom {skip : ℕ} {before after read : List Char} {d : Cursor}
    (hreads : Cursor.Reads ⟨before, after⟩ read d) (hskip : skip ≤ read.length) (hahead : d.after ≠ [])
    (hmatch : f.matchesAt piece d ≠ [])
    (hfree : ∀ ⦃more e⦄, Cursor.Reads ⟨before, after⟩ more e → more.length < read.length →
      ∀ t ∈ f.matchesAt piece e, t.frameEnd.column ≤ d.column) :
    ∃ s ∈ f.sitesFrom piece skip before after, s ∈ f.matchesAt piece d := by
  -- the search has not come to the place yet: `read` is what still stands before it
  fun_induction sitesFrom f piece skip before after generalizing read with
  | case1 => exact absurd (List.append_eq_nil_iff.1 hreads.after_eq.symm).2 hahead
  | case2 skip before c after ih =>
    cases read with
    | nil => exact absurd hskip (Nat.not_succ_le_zero skip)
    | cons x read =>
      obtain ⟨-, hreads⟩ := Cursor.reads_cons_iff.1 hreads
      refine ih hreads (Nat.le_of_succ_le_succ hskip) ?_
      intro more e hmore hlt
      exact hfree (Cursor.reads_cons_iff.2 ⟨rfl, hmore⟩) (Nat.succ_lt_succ hlt)
  | case3 before c after hnone ih =>
    cases read with
    | nil =>
      rw [hreads.unique (Cursor.Reads.refl _)] at hmatch
      exact absurd (List.head?_eq_none_iff.1 hnone) hmatch
    | cons x read =>
      obtain ⟨-, hreads⟩ := Cursor.reads_cons_iff.1 hreads
      refine ih hreads (Nat.zero_le _) ?_
      intro more e hmore hlt
      exact hfree (Cursor.reads_cons_iff.2 ⟨rfl, hmore⟩) (Nat.succ_lt_succ hlt)
  | case4 before c after site hsite ih =>
    cases read with
    | nil =>
      rw [hreads.unique (Cursor.Reads.refl _)]
      exact ⟨site, List.mem_cons_self, List.mem_of_head? hsite⟩
    | cons x read =>
      have hover := hfree (Cursor.Reads.refl _) (Nat.succ_pos _) site (List.mem_of_head? hsite)
      have hcolumn : d.column = before.length + (read.length + 1) := hreads.column_eq
      obtain ⟨-, hreads⟩ := Cursor.reads_cons_iff.1 hreads
      have hlater := ih hreads (by omega) fun more e hmore hlt =>
        hfree (Cursor.reads_cons_iff.2 ⟨rfl, hmore⟩) (Nat.succ_lt_succ hlt)
      obtain ⟨s, hs, hsd⟩ := hlater
      exact ⟨s, List.mem_cons_of_mem _ hs, hsd⟩

/-- A match at a place is found, unless a match from further left reaches over the place. -/
theorem exists_mem_sites {d : Cursor} (hahead : d.after ≠ []) (hmatch : f.matchesAt piece d ≠ [])
    (hfree : ∀ e : Cursor, e.line = d.line → e.column < d.column →
      ∀ t ∈ f.matchesAt piece e, t.frameEnd.column ≤ d.column) :
    ∃ s ∈ f.sites piece d.line, s ∈ f.matchesAt piece d := by
  refine exists_mem_sitesFrom (Cursor.reads_start d) (Nat.zero_le _) hahead hmatch ?_
  intro more e hmore hlt
  have hcolumn : e.column = 0 + more.length := hmore.column_eq
  have hlength : d.before.reverse.length = d.column := List.length_reverse
  exact hfree e hmore.line_eq (by omega)

/-! ### Frames at the start of the line -/

/-- Does the frame match nowhere but at the start of the line? -/
def Anchored (f : Frame) : Prop := ∀ c : Cursor, c.before ≠ [] → f.lead c = []

theorem anchored_lineStart (l : List Matcher) (trail : Matcher) :
    Anchored ⟨Matcher.all (Matcher.lineStart :: l), trail⟩ := by
  intro c hbefore
  apply Matcher.all_cons_of_eq_nil
  rw [Matcher.lineStart, if_neg]
  rwa [List.isEmpty_iff]

theorem Anchored.sitesFrom_eq_nil (h : f.Anchored) (skip : ℕ) {before : List Char} (hbefore : before ≠ [])
    (after : List Char) : f.sitesFrom piece skip before after = [] := by
  apply List.eq_nil_iff_forall_not_mem.2
  intro s hs
  obtain ⟨read, d, hreads, -, hs⟩ := exists_place_of_mem_sitesFrom hs
  have hd : d.before ≠ [] := by
    rw [hreads.before_eq]
    exact List.append_ne_nil_of_right_ne_nil _ hbefore
  have hstart := (mem_matchesAt.1 hs).1
  rw [h d hd] at hstart
  cases hstart

theorem Anchored.sites_eq (h : f.Anchored) {line : List Char} (hline : line ≠ []) :
    f.sites piece line = (f.matchesAt piece (Cursor.start line)).head?.toList := by
  cases line with
  | nil => exact absurd rfl hline
  | cons c after =>
    rw [sites, sitesFrom, Cursor.start]
    split
    case h_1 hnone =>
      rw [hnone, h.sitesFrom_eq_nil 0 (List.cons_ne_nil c []) after]
      rfl
    case h_2 site hsite =>
      rw [hsite, h.sitesFrom_eq_nil _ (List.cons_ne_nil c []) after]
      rfl

end Frame

end CodeAtlas
