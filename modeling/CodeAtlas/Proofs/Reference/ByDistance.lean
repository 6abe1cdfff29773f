import CodeAtlas.Proofs.Reference.BreadthFirst
import CodeAtlas.Proofs.Text.StableSort

/-!
# References by hop distance

What the search for references returns is determined by hop distances and the breadth-first order.  An
entity with a file and source text contributes a *block* of usages that depends on its distance alone:

* what the extractor finds in its text, if that is anything;
* else, one hop away, one usage that stands for the first edge between it and the selected entity;
* else nothing; and beyond one hop every usage carries a note of the distance.

`Contribution.all_eq` says that the search collects exactly the non-empty blocks, in breadth-first order;
`ReferenceFile.analyze_by_distance` that the files of the result gather them, each file once, those with
more usages first and equal ones by path.
-/

namespace CodeAtlas

namespace Contribution

/-- The first edge between an entity and the selected one. -/
def joiningEdge? (g : Graph) (selected e : Entity) : Option Edge :=
  (g.hopEdges selected).find? fun edge => edge.Joins e.id selected.id

/-- What an entity at distance `k` contributes. -/
def blockAt (extract : Extractor) (g : Graph) (selected : Entity) (k : ℕ) (e : Entity) : List Usage :=
  match e.file, e.sourceText with
  | some _, some code =>
    let found := extract code selected.name
    let usages :=
      if found = [] ∧ k = 1 then (joiningEdge? g selected e).toList.map (edgeUsage selected e code)
      else found
    if 1 < k then
      usages.map fun u => { u with pattern := u.pattern ++ " (depth " ++ toString k ++ ")" }
    else usages
  | _, _ => []

/-- What an entity contributes at its hop distance. -/
noncomputable def block (extract : Extractor) (g : Graph) (selected e : Entity) : List Usage :=
  blockAt extract g selected ((g.hopGraph selected).dist selected.id e.id) e

/-! ### The edge that a synthetic usage stands for -/

theorem find?_otherEnd (edges : List Edge) (a b : String) :
    (((edges.filterMap fun e => (e.otherEnd? a).map fun c => (e, c)).find? fun q => q.2 = b).map
      Prod.fst) = edges.find? fun e => e.Joins a b := by
  induction edges with
  | nil => rfl
  | cons e rest ih =>
    by_cases h : e.Joins a b
    · have hend := Edge.otherEnd?_eq_some_iff.2 h
      simp [hend, h]
    · rw [List.find?_cons_of_neg (by simpa using h), ← ih]
      cases hend : e.otherEnd? a with
      | none => simp [hend]
      | some c =>
        have hcb : c ≠ b := by
          intro hcb
          exact h (Edge.otherEnd?_eq_some_iff.1 (hcb ▸ hend))
        simp [hend, hcb]

theorem sharedEdge?_around (selected : Entity) (g : Graph) (e : Entity) :
    sharedEdge? (Index.around selected g) selected e = joiningEdge? g selected e := by
  have hids : sharedEdge? (Index.around selected g) selected e =
      ((((Index.around selected g).touching e.id).map fun p => (p.1, p.2.id)).find?
        fun q => q.2 = selected.id).map Prod.fst := by
    rw [List.find?_map, Option.map_map]
    rfl
  have h := find?_otherEnd (g.hopEdges selected) e.id selected.id
  rw [← Index.touching_around] at h
  exact hids.trans h

theorem joiningEdge?_isSome_iff {g : Graph} {selected e : Entity} (hne : e.id ≠ selected.id) :
    (joiningEdge? g selected e).isSome ↔ (g.hopGraph selected).Adj selected.id e.id := by
  rw [joiningEdge?, List.find?_isSome]
  constructor
  · intro h
    obtain ⟨edge, hedge, hj⟩ := h
    exact ⟨hne.symm, edge, hedge, (of_decide_eq_true hj).symm⟩
  · intro h
    obtain ⟨-, edge, hedge, hj⟩ := h
    exact ⟨edge, hedge, decide_eq_true hj.symm⟩

/-! ### One entity's contribution -/

/-- A contribution is a block that is not empty. -/
def ofBlock? (e : Entity) (usages : List Usage) : Option Contribution :=
  match e.file, usages with
  | some file, u :: rest => some { file, entity := e, usages := u :: rest }
  | _, _ => none

theorem usagesIn_around {extract : Extractor} {g : Graph} {selected e : Entity} {code : String} {k : ℕ}
    (hk : (g.hopGraph selected).edist selected.id e.id = k) (hpos : 1 ≤ k) :
    usagesIn (Index.around selected g) extract selected e code =
      if extract code selected.name = [] ∧ k = 1 then
        (joiningEdge? g selected e).toList.map (edgeUsage selected e code)
      else extract code selected.name := by
  have hne : e.id ≠ selected.id := by
    intro heq
    rw [heq, SimpleGraph.edist_self] at hk
    have : 0 = k := by exact_mod_cast hk
    omega
  rw [usagesIn, sharedEdge?_around]
  cases hfound : extract code selected.name with
  | cons u rest => simp
  | nil =>
    by_cases hone : k = 1
    · simp [hone]
    · -- farther away than one hop, no edge leads to the selected entity
      have hnone : joiningEdge? g selected e = none := by
        rw [← Option.not_isSome_iff_eq_none, joiningEdge?_isSome_iff hne,
          ← SimpleGraph.edist_eq_one_iff_adj, hk]
        exact_mod_cast hone
      simp [hone, hnone]

theorem of?_around {extract : Extractor} {g : Graph} {selected e : Entity} {k : ℕ}
    (hk : (g.hopGraph selected).edist selected.id e.id = k) (hpos : 1 ≤ k) :
    of? (Index.around selected g) extract selected k e =
      ofBlock? e (blockAt extract g selected k e) := by
  unfold of? blockAt ofBlock?
  cases e.file with
  | none => rfl
  | some file =>
    cases e.sourceText with
    | none => rfl
    | some code =>
      simp only
      rw [usagesIn_around hk hpos]
      generalize (if extract code selected.name = [] ∧ k = 1 then
        (joiningEdge? g selected e).toList.map (edgeUsage selected e code)
        else extract code selected.name) = usages
      cases usages with
      | nil => simp
      | cons u rest =>
        by_cases hfar : 1 < k
        · simp [hfar, noteDistance]
        · have hnote : noteDistance k = id := by
            funext v
            simp [noteDistance, hfar]
          simp [hfar, hnote]

/-! ### All contributions -/

/-- The contributions of blocks of usages, in the order of their entities. -/
def collect (blocks : Entity → List Usage) (order : List Entity) : List Contribution :=
  order.filterMap fun e => ofBlock? e (blocks e)

theorem all_eq (extract : Extractor) (selected : Entity) (g : Graph) (hops : ℕ) :
    all extract selected g hops = collect (block extract g selected)
      (neighbourhood (Index.around selected g) selected hops).flatten := by
  have hgraded := graded_neighbourhood selected g hops
  refine (hgraded.flatMap_zipIdx (of? (Index.around selected g) extract selected)).trans ?_
  apply List.filterMap_congr
  intro e he
  obtain ⟨i, l, hl, hel⟩ := Walk.exists_level_of_mem_flatten he
  have hdist : (g.hopGraph selected).dist selected.id e.id = 1 + i := hgraded i l hl e hel
  rw [block, hdist, Nat.add_comm]
  exact of?_around (dist_of_mem_level selected g hops hl e hel) (by omega)

/-! ### What one file gets -/

variable (blocks : Entity → List Usage) (order : List Entity) (file : String)

theorem ofBlock?_eq_some_iff {e : Entity} {usages : List Usage} {c : Contribution} :
    ofBlock? e usages = some c ↔
      e.file = some c.file ∧ usages ≠ [] ∧ c.entity = e ∧ c.usages = usages := by
  obtain ⟨cfile, entity, cusages⟩ := c
  unfold ofBlock?
  cases e.file with
  | none => simp
  | some f =>
    cases usages with
    | nil => simp
    | cons u rest =>
      simp only [Option.some.injEq, Contribution.mk.injEq, ne_eq, reduceCtorEq, not_false_eq_true,
        true_and]
      constructor
      · rintro ⟨rfl, rfl, rfl⟩
        exact ⟨rfl, rfl, rfl⟩
      · rintro ⟨rfl, rfl, rfl⟩
        exact ⟨rfl, rfl, rfl⟩

theorem mem_map_file_collect :
    file ∈ (collect blocks order).map Contribution.file ↔
      ∃ e ∈ order, e.file = some file ∧ blocks e ≠ [] := by
  rw [List.mem_map]
  constructor
  · intro h
    obtain ⟨c, hc, hfile⟩ := h
    obtain ⟨e, he, hof⟩ := List.mem_filterMap.1 hc
    obtain ⟨hef, hne, -, -⟩ := ofBlock?_eq_some_iff.1 hof
    exact ⟨e, he, hfile ▸ hef, hne⟩
  · intro h
    obtain ⟨e, he, hef, hne⟩ := h
    refine ⟨⟨file, e, blocks e⟩, List.mem_filterMap.2 ⟨e, he, ?_⟩, rfl⟩
    exact ofBlock?_eq_some_iff.2 ⟨hef, hne, rfl, rfl⟩

/-- The contributions to a file are those of its entities. -/
theorem filter_file_collect :
    ((collect blocks order).filter fun c => c.file = file) =
      (order.filter fun e => e.file = some file ∧ blocks e ≠ []).map fun e => ⟨file, e, blocks e⟩ := by
  rw [collect, List.filter_filterMap, ← List.filterMap_eq_map, List.filterMap_filter]
  apply List.filterMap_congr
  intro e _
  by_cases h : e.file = some file ∧ blocks e ≠ []
  · have hof : ofBlock? e (blocks e) = some ⟨file, e, blocks e⟩ :=
      ofBlock?_eq_some_iff.2 ⟨h.1, h.2, rfl, rfl⟩
    simp [hof, h]
  · have hof : (ofBlock? e (blocks e)).filter (fun c => c.file = file) = none := by
      rw [Option.filter_eq_none_iff]
      intro c hc hfile
      obtain ⟨hef, hne, -, -⟩ := ofBlock?_eq_some_iff.1 hc
      exact h ⟨of_decide_eq_true hfile ▸ hef, hne⟩
    simp [hof, h]

/-- Blocks that are empty do not matter to the usages in a file. -/
theorem flatMap_filter_blocks :
    (order.filter fun e => e.file = some file ∧ blocks e ≠ []).flatMap blocks =
      (order.filter fun e => e.file = some file).flatMap blocks := by
  induction order with
  | nil => rfl
  | cons e rest ih =>
    by_cases hfile : e.file = some file
    · by_cases hb : blocks e = []
      · simpa [hfile, hb] using ih
      · simpa [hfile, hb] using ih
    · simpa [hfile] using ih

end Contribution

/-! ### The files of the result -/

namespace ReferenceFile

/-- More usages come first, equally many in the order of paths. -/
def Before (a b : ReferenceFile) : Prop :=
  b.totalUsages < a.totalUsages ∨ a.totalUsages = b.totalUsages ∧ a.file < b.file

theorem Before.asymm {a b : ReferenceFile} (hab : a.Before b) : ¬ b.Before a := by
  intro hba
  rcases hab with hab | ⟨hab, hfile⟩
  · rcases hba with hba | ⟨hba, -⟩
    · omega
    · omega
  · rcases hba with hba | ⟨-, hfile'⟩
    · omega
    · exact String.lt_asymm hfile hfile'

/-- The files that blocks of usages amount to, where their entities come in some order. -/
structure Gathers (root : Option String) (blocks : Entity → List Usage) (order : List Entity)
    (files : List ReferenceFile) : Prop where
  /-- No file is listed twice. -/
  once : (files.map ReferenceFile.file).Nodup
  /-- The files are those with a block that is not empty. -/
  mem_file : ∀ file, file ∈ files.map ReferenceFile.file ↔
    ∃ e ∈ order, e.file = some file ∧ blocks e ≠ []
  paths : ∀ r ∈ files, r.fileName = fileNameOf r.file ∧ r.relativePath = relativePathOf root r.file
  /-- The blocks of a file follow one another. -/
  usages : ∀ r ∈ files, r.usages = (order.filter fun e => e.file = some r.file).flatMap blocks
  total : ∀ r ∈ files, r.totalUsages = r.usages.length
  referencing : ∀ r ∈ files,
    r.referencing = order.filter fun e => e.file = some r.file ∧ blocks e ≠ []
  sorted : files.Pairwise Before

variable {root : Option String} {blocks : Entity → List Usage} {order : List Entity}
  {files files' : List ReferenceFile}

theorem Gathers.eq_of_file_eq (h : Gathers root blocks order files)
    (h' : Gathers root blocks order files') {r r' : ReferenceFile} (hr : r ∈ files) (hr' : r' ∈ files')
    (hfile : r.file = r'.file) : r = r' := by
  have husages : r.usages = r'.usages := by
    rw [h.usages r hr, h'.usages r' hr', hfile]
  have htotal : r.totalUsages = r'.totalUsages := by
    rw [h.total r hr, h'.total r' hr', husages]
  have hreferencing : r.referencing = r'.referencing := by
    rw [h.referencing r hr, h'.referencing r' hr', hfile]
  have hname : r.fileName = r'.fileName := by
    rw [(h.paths r hr).1, (h'.paths r' hr').1, hfile]
  have hpath : r.relativePath = r'.relativePath := by
    rw [(h.paths r hr).2, (h'.paths r' hr').2, hfile]
  cases r
  cases r'
  simp_all only

theorem Gathers.subset (h : Gathers root blocks order files)
    (h' : Gathers root blocks order files') : files ⊆ files' := by
  intro r hr
  have hmem := (h'.mem_file r.file).2 ((h.mem_file r.file).1 (List.mem_map_of_mem hr))
  obtain ⟨r', hr', hfile⟩ := List.mem_map.1 hmem
  rwa [h.eq_of_file_eq h' hr hr' hfile.symm]

theorem Gathers.unique (h : Gathers root blocks order files)
    (h' : Gathers root blocks order files') : files = files' := by
  have hperm : files.Perm files' :=
    (List.perm_ext_iff_of_nodup h.once.of_map h'.once.of_map).2 fun _ =>
      ⟨fun hr => h.subset h' hr, fun hr => h'.subset h hr⟩
  refine List.Perm.eq_of_pairwise ?_ h.sorted h'.sorted hperm
  intro a b _ _ hab hba
  exact absurd hba hab.asymm

theorem map_file_gather (contributions : List Contribution) (names : List String) :
    (names.map (gather root contributions)).map ReferenceFile.file = names := by
  rw [List.map_map]
  exact List.map_id _

/-- The files are sorted by path before they are sorted by the number of usages, and the second sort is
stable. -/
theorem pairwise_ofContributions (root : Option String) (contributions : List Contribution) :
    (ofContributions root contributions).Pairwise Before := by
  have hpaths : ((Text.distinctSorted (contributions.map Contribution.file)).map
      (gather root contributions)).Pairwise fun a b => a.file < b.file := by
    rw [List.pairwise_map]
    exact Text.pairwise_distinctSorted _
  refine (Text.pairwise_mergeSort_stable ?_ ?_ hpaths).imp ?_
  · intro a b c hab hbc
    rw [decide_eq_true_eq] at hab hbc ⊢
    omega
  · intro a b
    rw [Bool.or_eq_true, decide_eq_true_eq, decide_eq_true_eq]
    omega
  · intro a b h
    obtain ⟨hle, hfile⟩ := h
    rw [decide_eq_true_eq] at hle hfile
    rcases Nat.lt_or_eq_of_le hle with hlt | heq
    · exact Or.inl hlt
    · exact Or.inr ⟨heq.symm, hfile heq.ge⟩

theorem perm_ofContributions (root : Option String) (contributions : List Contribution) :
    (ofContributions root contributions).Perm
      ((Text.distinctSorted (contributions.map Contribution.file)).map (gather root contributions)) :=
  List.mergeSort_perm _ _

theorem eq_gather_of_mem {contributions : List Contribution} {r : ReferenceFile}
    (hr : r ∈ ofContributions root contributions) : r = gather root contributions r.file := by
  obtain ⟨file, -, rfl⟩ := List.mem_map.1 ((perm_ofContributions root contributions).subset hr)
  rfl

theorem gathers_ofContributions (root : Option String) (blocks : Entity → List Usage)
    (order : List Entity) :
    Gathers root blocks order (ofContributions root (Contribution.collect blocks order)) := by
  have hfiles := (perm_ofContributions root (Contribution.collect blocks order)).map ReferenceFile.file
  rw [map_file_gather] at hfiles
  refine ⟨?_, ?_, ?_, ?_, ?_, ?_, pairwise_ofContributions root _⟩
  · exact hfiles.nodup_iff.2 ((Text.pairwise_distinctSorted _).imp String.ne_of_lt)
  · intro file
    rw [hfiles.mem_iff, Text.mem_distinctSorted, Contribution.mem_map_file_collect]
  · intro r hr
    rw [eq_gather_of_mem hr]
    exact ⟨rfl, rfl⟩
  · intro r hr
    rw [eq_gather_of_mem hr]
    simp only [gather]
    rw [Contribution.filter_file_collect, List.flatMap_map]
    exact Contribution.flatMap_filter_blocks blocks order r.file
  · intro r hr
    rw [eq_gather_of_mem hr]
    rfl
  · intro r hr
    rw [eq_gather_of_mem hr]
    simp only [gather]
    rw [Contribution.filter_file_collect, List.map_map]
    exact List.map_id _

theorem gathers_analyze (extract : Extractor) (root : Option String) (selected : Entity) (g : Graph)
    (hops : ℕ) :
    Gathers root (Contribution.block extract g selected)
      (Contribution.neighbourhood (Index.around selected g) selected hops).flatten
      (analyze extract root selected g hops) := by
  rw [analyze, Contribution.all_eq]
  exact gathers_ofContributions root _ _

/-- **References are determined by hop distance.**  There is one breadth-first order of the entities from
one to `hops` hops away.  Every entity one hop away has an edge that its synthetic usage can stand for.  The
result is the one list of files that gathers the blocks in that order, and no file names an entity twice or
names the selected one. -/
theorem analyze_by_distance (extract : Extractor) (root : Option String) (selected : Entity) (g : Graph)
    (hops : ℕ) :
    ∃ order : List Entity,
      (∀ other, g.BreadthFirst selected hops other ↔ other = order) ∧
      (∀ e ∈ order, (g.hopGraph selected).dist selected.id e.id = 1 →
        (Contribution.joiningEdge? g selected e).isSome) ∧
      (∀ files, Gathers root (Contribution.block extract g selected) order files ↔
        files = analyze extract root selected g hops) ∧
      ∀ r ∈ analyze extract root selected g hops, (selected.id :: r.referencing.map Entity.id).Nodup := by
  have horder := Contribution.breadthFirst_neighbourhood selected g hops
  generalize hlv : (Contribution.neighbourhood (Index.around selected g) selected hops).flatten = order
    at horder
  have hgathers : Gathers root (Contribution.block extract g selected) order
      (analyze extract root selected g hops) := by
    rw [analyze, Contribution.all_eq, hlv]
    exact gathers_ofContributions root _ order
  refine ⟨order, ?_, ?_, ?_, ?_⟩
  · intro other
    constructor
    · intro h
      exact h.unique horder
    · rintro rfl
      exact horder
  · intro e he hone
    have hadj := SimpleGraph.dist_eq_one_iff_adj.1 hone
    exact (Contribution.joiningEdge?_isSome_iff hadj.ne').2 hadj
  · intro files
    constructor
    · intro h
      exact h.unique hgathers
    · rintro rfl
      exact hgathers
  · intro r hr
    rw [hgathers.referencing r hr]
    exact horder.nodup.sublist ((List.filter_sublist.map Entity.id).cons_cons selected.id)

end ReferenceFile

end CodeAtlas
