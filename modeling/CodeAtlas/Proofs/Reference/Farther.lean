import CodeAtlas.Proofs.Reference.ByDistance

/-!
# Looking farther only adds references

A search over more hops takes up the search over fewer of them where it ended: its levels begin with the same levels
(`Contribution.neighbourhood_farther`).  What an entity contributes depends on its distance and not on how far the
search goes, so a file keeps what it had and gets more at the end (`ReferenceFile.Gathers.farther`).

What is added comes from entities beyond the shorter search.  They are more than one hop away, so each of their usages
carries a note of the distance (`Contribution.notesDistance_of_mem_blockAt`).
-/

namespace CodeAtlas

/-- The pattern of a usage ends with a note of a distance. -/
def Usage.NotesDistance (k : ℕ) (u : Usage) : Prop :=
  ∃ found : String, u.pattern = found ++ (" (depth " ++ toString k ++ ")")

namespace Contribution

variable {extract : Extractor} {g : Graph} {selected e : Entity} {u : Usage}

theorem notesDistance_of_mem_blockAt {k : ℕ} (hk : 1 < k) (hu : u ∈ blockAt extract g selected k e) :
    u.NotesDistance k := by
  unfold blockAt at hu
  split at hu
  · simp only [if_pos hk] at hu
    obtain ⟨v, -, rfl⟩ := List.mem_map.1 hu
    exact ⟨v.pattern, by simp only [String.append_assoc]⟩
  · cases hu

/-- The search over more hops goes on beyond the search over fewer. -/
theorem neighbourhood_farther (selected : Entity) (g : Graph) {d d' : ℕ} (hle : d ≤ d') :
    ∃ beyond : List Entity,
      (neighbourhood (Index.around selected g) selected d').flatten =
        (neighbourhood (Index.around selected g) selected d).flatten ++ beyond ∧
      ∀ e ∈ beyond, ∃ k, d < k ∧ k ≤ d' ∧ (g.hopGraph selected).dist selected.id e.id = k := by
  have htake : (neighbourhood (Index.around selected g) selected d').take d =
      neighbourhood (Index.around selected g) selected d := by
    rw [neighbourhood, Walk.take_levels, Nat.min_eq_left hle]
    rfl
  refine ⟨((neighbourhood (Index.around selected g) selected d').drop d).flatten, ?_, ?_⟩
  · rw [← htake, ← List.flatten_append, List.take_append_drop]
  · intro e he
    obtain ⟨i, l, hl, hel⟩ := Walk.exists_level_of_mem_flatten he
    rw [List.getElem?_drop] at hl
    have hlength : (neighbourhood (Index.around selected g) selected d').length ≤ d' :=
      Walk.length_levels_le d' _ _
    obtain ⟨hi, -⟩ := List.getElem?_eq_some_iff.1 hl
    exact ⟨1 + (d + i), by omega, by omega, graded_neighbourhood selected g d' (d + i) l hl e hel⟩

end Contribution

namespace ReferenceFile

section Gathers

variable {root : Option String} {blocks : Entity → List Usage} {order beyond : List Entity}
  {files files' : List ReferenceFile}

/-- A file keeps what it had when more entities follow. -/
theorem Gathers.farther (h : Gathers root blocks order files) (h' : Gathers root blocks (order ++ beyond) files')
    {r : ReferenceFile} (hr : r ∈ files) :
    ∃ r' ∈ files', r'.file = r.file ∧ r'.fileName = r.fileName ∧ r'.relativePath = r.relativePath ∧
      r.referencing <+: r'.referencing ∧
      r'.usages = r.usages ++ (beyond.filter fun e => e.file = some r.file).flatMap blocks := by
  have hfile : r.file ∈ files'.map ReferenceFile.file := by
    obtain ⟨e, he, hef, hne⟩ := (h.mem_file r.file).1 (List.mem_map_of_mem hr)
    exact (h'.mem_file r.file).2 ⟨e, List.mem_append_left _ he, hef, hne⟩
  obtain ⟨r', hr', hrr'⟩ := List.mem_map.1 hfile
  obtain ⟨hname, hpath⟩ := h.paths r hr
  obtain ⟨hname', hpath'⟩ := h'.paths r' hr'
  refine ⟨r', hr', hrr', ?_, ?_, ?_, ?_⟩
  · rw [hname, hname', hrr']
  · rw [hpath, hpath', hrr']
  · rw [h.referencing r hr, h'.referencing r' hr', hrr', List.filter_append]
    exact List.prefix_append _ _
  · rw [h.usages r hr, h'.usages r' hr', hrr', List.filter_append, List.flatMap_append]

/-- All that a new file has comes from the entities that follow. -/
theorem Gathers.mem_beyond_of_new (h : Gathers root blocks order files)
    (h' : Gathers root blocks (order ++ beyond) files') {r : ReferenceFile} (hr : r ∈ files')
    (hnew : r.file ∉ files.map ReferenceFile.file) {u : Usage} (hu : u ∈ r.usages) :
    ∃ e ∈ beyond, u ∈ blocks e := by
  rw [h'.usages r hr] at hu
  obtain ⟨e, he, hue⟩ := List.mem_flatMap.1 hu
  obtain ⟨hmem, hef⟩ := List.mem_filter.1 he
  rcases List.mem_append.1 hmem with hold | hbeyond
  · exact absurd ((h.mem_file r.file).2 ⟨e, hold, of_decide_eq_true hef, List.ne_nil_of_mem hue⟩) hnew
  · exact ⟨e, hbeyond, hue⟩

end Gathers

/-- **Looking farther only adds.**  A file with references within `d` hops has them within `d'` hops, under the same
name and path: its usages and entities stay at the front of their lists, and the pattern of each further usage notes a
distance beyond `d`.  So do the patterns in files that have references within `d'` hops alone. -/
theorem analyze_farther (extract : Extractor) (root : Option String) (selected : Entity) (g : Graph) {d d' : ℕ}
    (hd : 1 ≤ d) (hle : d ≤ d') :
    (∀ r ∈ analyze extract root selected g d, ∃ r' ∈ analyze extract root selected g d',
      r'.file = r.file ∧ r'.fileName = r.fileName ∧ r'.relativePath = r.relativePath ∧
      r.referencing <+: r'.referencing ∧
      ∃ added, r'.usages = r.usages ++ added ∧ ∀ u ∈ added, ∃ k, d < k ∧ k ≤ d' ∧ u.NotesDistance k) ∧
    ∀ r' ∈ analyze extract root selected g d',
      r'.file ∉ (analyze extract root selected g d).map ReferenceFile.file →
        ∀ u ∈ r'.usages, ∃ k, d < k ∧ k ≤ d' ∧ u.NotesDistance k := by
  obtain ⟨beyond, horder, hbeyond⟩ := Contribution.neighbourhood_farther selected g hle
  have hgathers := gathers_analyze extract root selected g d
  have hgathers' := gathers_analyze extract root selected g d'
  rw [horder] at hgathers'
  have hnote : ∀ e ∈ beyond, ∀ u ∈ Contribution.block extract g selected e,
      ∃ k, d < k ∧ k ≤ d' ∧ u.NotesDistance k := by
    intro e he u hu
    obtain ⟨k, hdk, hkd', hdist⟩ := hbeyond e he
    rw [Contribution.block, hdist] at hu
    exact ⟨k, hdk, hkd', Contribution.notesDistance_of_mem_blockAt (by omega) hu⟩
  constructor
  · intro r hr
    obtain ⟨r', hr', hfile, hname, hpath, hreferencing, husages⟩ := hgathers.farther hgathers' hr
    refine ⟨r', hr', hfile, hname, hpath, hreferencing, _, husages, ?_⟩
    intro u hu
    obtain ⟨e, he, hue⟩ := List.mem_flatMap.1 hu
    exact hnote e (List.mem_filter.1 he).1 u hue
  · intro r' hr' hnew u hu
    obtain ⟨e, he, hue⟩ := hgathers.mem_beyond_of_new hgathers' hr' hnew hu
    exact hnote e he u hue

/-- Entities of one file, each next to the one before.  The last two use the first one by name. -/
def chain : Graph :=
  { nodes := [{ Entity.plain "b" "function" with file := some "src/main", code := some "0" },
      { Entity.plain "c" "function" with file := some "src/main", code := some "a()" },
      { Entity.plain "d" "function" with file := some "src/main", code := some "a()" }]
    edges := [Edge.plain "a" "b", Edge.plain "b" "c", Edge.plain "c" "d"] }

theorem analyze_farther_chain :
    let found := fun hops => analyze (Usage.find UsageRule.unlimited) none (Entity.plain "a" "function") chain hops
    (∀ r ∈ found 1, ∃ r' ∈ found 3,
        r'.file = r.file ∧ r'.fileName = r.fileName ∧ r'.relativePath = r.relativePath ∧
        r.referencing <+: r'.referencing ∧
        ∃ added, r'.usages = r.usages ++ added ∧ ∀ u ∈ added, ∃ k, 1 < k ∧ k ≤ 3 ∧ u.NotesDistance k) ∧
      (found 1).map totalUsages = [1] ∧ (found 3).map totalUsages = [3] := by
  intro found
  have h := analyze_farther (Usage.find UsageRule.unlimited) none (Entity.plain "a" "function") chain
    (show 1 ≤ 1 by decide) (show 1 ≤ 3 by decide)
  exact ⟨h.1, by decide +kernel, by decide +kernel⟩

end ReferenceFile

end CodeAtlas
