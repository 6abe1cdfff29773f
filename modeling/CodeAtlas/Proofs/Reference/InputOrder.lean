import CodeAtlas.Proofs.Graph.Reordering
import CodeAtlas.Proofs.Reference.ByDistance

/-!
# The order of the input does not show in the counts of references

Which entity is met first, and which edge a usage stands for that no text confirms, depends on the order in which a
graph lists its entities and edges.  How many usages a file has does not (`ReferenceFile.analyze_of_reordered`).

The entities within reach are the same, since hops do not depend on the order (`Graph.BreadthFirst.perm`).  What each
of them contributes has the same length, since there is an edge to stand for in one order if there is one in the other
(`Contribution.length_block_of_reordered`).  A count adds up these lengths over the entities of a file, and counts
and paths alone decide the order of the files (`ReferenceFile.Gathers.headings_eq`).
-/

namespace CodeAtlas

/-! ### The same entities, and as much from each of them -/

namespace Graph

variable {g g' : Graph} {selected : Entity} {hops : ℕ} {order order' : List Entity}

/-- Breadth-first orders of the same graph in two orders hold the same entities. -/
theorem BreadthFirst.perm (h : g.BreadthFirst selected hops order) (h' : g'.BreadthFirst selected hops order')
    (hsame : g.SameUpToOrder g') : order.Perm order' := by
  have hnodup : order.Nodup := (List.nodup_cons.1 h.nodup).2.of_map
  have hnodup' : order'.Nodup := (List.nodup_cons.1 h'.nodup).2.of_map
  refine (List.perm_ext_iff_of_nodup hnodup hnodup').2 fun e => ?_
  rw [h.mem_iff, h'.mem_iff, hsame.entity?_eq, hsame.hopGraph_eq]

end Graph

namespace Contribution

variable {g g' : Graph} (h : g.SameUpToOrder g') (extract : Extractor) (selected e : Entity)

include h

theorem joiningEdge?_isSome_of_reordered :
    (joiningEdge? g selected e).isSome = (joiningEdge? g' selected e).isSome := by
  rw [Bool.eq_iff_iff, joiningEdge?, joiningEdge?, List.find?_isSome, List.find?_isSome]
  simp only [(h.hopEdges_perm selected).mem_iff]

/-- An entity contributes as many usages in either order, though not the same ones. -/
theorem length_block_of_reordered :
    (block extract g selected e).length = (block extract g' selected e).length := by
  have hedge : (joiningEdge? g selected e).toList.length = (joiningEdge? g' selected e).toList.length := by
    rw [Option.length_toList, Option.length_toList, joiningEdge?_isSome_of_reordered h]
  rw [block, block, h.hopGraph_eq]
  generalize (g'.hopGraph selected).dist selected.id e.id = k
  unfold blockAt
  cases e.file with
  | none => rfl
  | some file =>
    cases e.sourceText with
    | none => rfl
    | some code =>
      by_cases hfound : extract code selected.name = [] ∧ k = 1
      · simp [hfound, hedge]
      · simp [hfound]

theorem block_ne_nil_iff_of_reordered :
    block extract g selected e ≠ [] ↔ block extract g' selected e ≠ [] := by
  rw [← List.length_pos_iff, ← List.length_pos_iff, length_block_of_reordered h]

end Contribution

/-! ### Counts by file -/

namespace ReferenceFile

/-- What a result says about a file, apart from the usages themselves: its path, its name, its path from the root of
the project and the number of usages. -/
def heading (r : ReferenceFile) : String × String × String × ℕ :=
  (r.file, r.fileName, r.relativePath, r.totalUsages)

/-- The number of usages that the entities of a file contribute. -/
def usageCount (blocks : Entity → List Usage) (order : List Entity) (file : String) : ℕ :=
  ((order.filter fun e => e.file = some file).map fun e => (blocks e).length).sum

/-- The order of files, in terms of their counts and paths. -/
def Ahead (count : String → ℕ) (a b : String) : Prop :=
  count b < count a ∨ count a = count b ∧ a < b

namespace Gathers

variable {root : Option String} {blocks blocks' : Entity → List Usage} {order order' : List Entity}
  {files files' : List ReferenceFile} (h : Gathers root blocks order files) {r s : ReferenceFile}

include h

theorem total_eq (hr : r ∈ files) : r.totalUsages = usageCount blocks order r.file := by
  rw [h.total r hr, h.usages r hr, List.length_flatMap, usageCount]

theorem before_iff (hr : r ∈ files) (hs : s ∈ files) :
    r.Before s ↔ Ahead (usageCount blocks order) r.file s.file := by
  rw [Before, Ahead, h.total_eq hr, h.total_eq hs]

theorem map_heading :
    files.map heading = (files.map ReferenceFile.file).map fun file =>
      (file, fileNameOf file, relativePathOf root file, usageCount blocks order file) := by
  rw [List.map_map]
  refine List.map_congr_left fun r hr => ?_
  obtain ⟨hname, hpath⟩ := h.paths r hr
  rw [heading, hname, hpath, h.total_eq hr]
  rfl

theorem pairwise_file : (files.map ReferenceFile.file).Pairwise (Ahead (usageCount blocks order)) := by
  rw [List.pairwise_map]
  refine h.sorted.imp_of_mem ?_
  intro r s hr hs hbefore
  exact (h.before_iff hr hs).1 hbefore

variable (h' : Gathers root blocks' order' files') (horder : order.Perm order')
  (hne : ∀ e, blocks e ≠ [] ↔ blocks' e ≠ [])

include h' horder hne

/-- The files agree, and so does their order if the counts do. -/
theorem files_eq (hcount : usageCount blocks order = usageCount blocks' order') :
    files.map ReferenceFile.file = files'.map ReferenceFile.file := by
  have hperm : (files.map ReferenceFile.file).Perm (files'.map ReferenceFile.file) := by
    refine (List.perm_ext_iff_of_nodup h.once h'.once).2 fun file => ?_
    rw [h.mem_file, h'.mem_file]
    simp only [horder.mem_iff, hne]
  refine List.Perm.eq_of_pairwise ?_ h.pairwise_file (hcount ▸ h'.pairwise_file) hperm
  intro a b ha hb hab hba
  obtain ⟨r, hr, rfl⟩ := List.mem_map.1 ha
  obtain ⟨s, hs, rfl⟩ := List.mem_map.1 (hperm.mem_iff.2 hb)
  exact absurd ((h.before_iff hs hr).2 hba) ((h.before_iff hr hs).2 hab).asymm

theorem headings_eq (hlength : ∀ e, (blocks e).length = (blocks' e).length) :
    files.map heading = files'.map heading := by
  have hblocks : (fun e => (blocks e).length) = fun e => (blocks' e).length := by
    funext e
    exact hlength e
  have hcount : usageCount blocks order = usageCount blocks' order' := by
    funext file
    rw [usageCount, usageCount, hblocks]
    exact ((horder.filter _).map _).sum_eq
  rw [h.map_heading, h'.map_heading, hcount, h.files_eq h' horder hne hcount]

theorem referencing_perm {r' : ReferenceFile} (hr : r ∈ files) (hr' : r' ∈ files')
    (hfile : r.file = r'.file) : r.referencing.Perm r'.referencing := by
  rw [h.referencing r hr, h'.referencing r' hr', hfile]
  simp only [hne]
  exact horder.filter _

end Gathers

/-- **Order does not show in the counts.**  Rearrange the edges of a graph, and if no id repeats, its entities too.
The same files have references, in the same order, with the same names and paths and as many usages each, and the
usages of a file are in the same entities. -/
theorem analyze_of_reordered (extract : Extractor) (root : Option String) (selected : Entity) {g g' : Graph}
    (hedges : g.edges.Perm g'.edges)
    (hnodes : g.nodes = g'.nodes ∨ g.nodes.Perm g'.nodes ∧ (g.nodes.map Entity.id).Nodup) (hops : ℕ) :
    (analyze extract root selected g hops).map heading = (analyze extract root selected g' hops).map heading ∧
    ∀ r ∈ analyze extract root selected g hops, ∀ r' ∈ analyze extract root selected g' hops,
      r.file = r'.file → r.referencing.Perm r'.referencing := by
  have hsame : g.SameUpToOrder g' := by
    rcases hnodes with heq | ⟨hperm, hids⟩
    · refine ⟨fun id => ?_, hedges⟩
      rw [Graph.entity?, Graph.entity?, heq]
    · exact Graph.sameUpToOrder_of_perm hperm hedges hids
  have horder := (Contribution.breadthFirst_neighbourhood selected g hops).perm
    (Contribution.breadthFirst_neighbourhood selected g' hops) hsame
  have hlength := Contribution.length_block_of_reordered hsame extract selected
  have hne := Contribution.block_ne_nil_iff_of_reordered hsame extract selected
  have hgathers := gathers_analyze extract root selected g hops
  have hgathers' := gathers_analyze extract root selected g' hops
  refine ⟨hgathers.headings_eq hgathers' horder hne hlength, ?_⟩
  intro r hr r' hr' hfile
  exact hgathers.referencing_perm hgathers' horder hne hr hr' hfile

/-- An entity of the one file of a small project, with some text. -/
def inMain (id : String) : Entity :=
  { Entity.plain id "function" with file := some "./main", code := some "0" }

/-- Two edges join `b` and `a`, and `b` and `c` can both be met first. -/
def twofold : Graph :=
  { nodes := [inMain "b", inMain "c"]
    edges := [Edge.plain "b" "a", { Edge.plain "a" "b" with relationship := some "imports" }, Edge.plain "c" "a"] }

/-- The same entities and edges the other way round. -/
def twofoldReversed : Graph :=
  { nodes := twofold.nodes.reverse, edges := twofold.edges.reverse }

/-- What is found differs between the two orders, though no count does. -/
theorem analyze_of_reordered_twofold :
    let found := fun g => analyze (Usage.find UsageRule.unlimited) none (Entity.plain "a" "function") g 1
    twofold.edges.Perm twofoldReversed.edges ∧ twofold.nodes.Perm twofoldReversed.nodes ∧
      (twofold.nodes.map Entity.id).Nodup ∧
      (found twofold).map heading = (found twofoldReversed).map heading ∧
      (∀ r ∈ found twofold, ∀ r' ∈ found twofoldReversed, r.file = r'.file →
        r.referencing.Perm r'.referencing) ∧
      found twofold ≠ found twofoldReversed := by
  intro found
  have hedges : twofold.edges.Perm twofoldReversed.edges := twofold.edges.reverse_perm.symm
  have hnodes : twofold.nodes.Perm twofoldReversed.nodes := twofold.nodes.reverse_perm.symm
  have hids : (twofold.nodes.map Entity.id).Nodup := by decide
  have h := analyze_of_reordered (Usage.find UsageRule.unlimited) none (Entity.plain "a" "function") hedges
    (.inr ⟨hnodes, hids⟩) 1
  exact ⟨hedges, hnodes, hids, h.1, h.2, by decide +kernel⟩

end ReferenceFile

end CodeAtlas
