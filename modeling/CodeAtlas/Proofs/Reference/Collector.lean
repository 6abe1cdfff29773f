import CodeAtlas.Proofs.Reference.ByDistance
import CodeAtlas.Proofs.Text.OrderedMap

/-!
# Collecting references one entity at a time

The files with references can be filled while the walk goes on.  Each entity that is met hands over what was found
in its text, also if that is nothing.  Its file is entered when it is first needed; usages go to the end of the
list, the count is taken anew, and the entity is listed unless it is listed already.

`ReferenceFile.analyze_eq_collected` says that this gives what the search for references returns.  Handing over
nothing changes nothing (`collect_filter`), so only contributions count.  The entry of a file holds what
its own contributions left there, one after the other (`Text.foldl_upsert`), and since no entity is met twice the
test whether it is listed never succeeds (`foldl_extend`).
-/

namespace CodeAtlas

namespace Contribution

/-- What an entity met at a distance hands over, if it has a file and a text. -/
def scan? (index : Index) (extract : Extractor) (selected : Entity) (hop : ℕ) (neighbour : Entity) :
    Option Contribution :=
  match neighbour.file, neighbour.sourceText with
  | some file, some code =>
    some
      { file
        entity := neighbour
        usages := (usagesIn index extract selected neighbour code).map (noteDistance hop) }
  | _, _ => none

/-- A contribution is handed over with usages in it. -/
theorem of?_eq_scan? (index : Index) (extract : Extractor) (selected : Entity) (hop : ℕ) (neighbour : Entity) :
    of? index extract selected hop neighbour =
      (scan? index extract selected hop neighbour).filter fun c => !c.usages.isEmpty := by
  unfold of? scan?
  cases neighbour.file with
  | none => rfl
  | some file =>
    cases neighbour.sourceText with
    | none => rfl
    | some code =>
      cases hfound : usagesIn index extract selected neighbour code with
      | nil => simp [hfound, Option.filter]
      | cons u rest => simp [hfound, Option.filter]

/-- All that is handed over along the walk, one distance after the other. -/
def handed (extract : Extractor) (selected : Entity) (g : Graph) (hops : ℕ) : List Contribution :=
  let index := Index.around selected g
  ((neighbourhood index selected hops).zipIdx 1).flatMap fun (level, hop) =>
    level.filterMap (scan? index extract selected hop)

theorem all_eq_filter_handed (extract : Extractor) (selected : Entity) (g : Graph) (hops : ℕ) :
    all extract selected g hops = (handed extract selected g hops).filter fun c => !c.usages.isEmpty := by
  rw [all, handed, List.filter_flatMap]
  refine List.flatMap_congr fun x _ => ?_
  rw [List.filter_filterMap]
  exact List.filterMap_congr fun e _ => of?_eq_scan? _ _ _ _ e

theorem map_entity_collect (blocks : Entity → List Usage) (order : List Entity) :
    (collect blocks order).map Contribution.entity = order.filter fun e => (ofBlock? e (blocks e)).isSome := by
  induction order with
  | nil => rfl
  | cons e order ih =>
    cases hblock : ofBlock? e (blocks e) with
    | none =>
      rw [List.filter_cons_of_neg (by simp [hblock]), ← ih, collect]
      simp [hblock, collect]
    | some c =>
      have hentity : c.entity = e := (ofBlock?_eq_some_iff.1 hblock).2.2.1
      rw [List.filter_cons_of_pos (by simp [hblock]), ← ih, collect]
      simp [hblock, hentity, collect]

/-- No entity contributes twice. -/
theorem nodup_all (extract : Extractor) (selected : Entity) (g : Graph) (hops : ℕ) :
    ((all extract selected g hops).map fun c => c.entity.id).Nodup := by
  have hnodup := (breadthFirst_neighbourhood selected g hops).nodup
  rw [List.nodup_cons] at hnodup
  have hmap : ((all extract selected g hops).map fun c => c.entity.id) =
      ((all extract selected g hops).map Contribution.entity).map Entity.id := by
    rw [List.map_map]
    rfl
  rw [hmap, all_eq, map_entity_collect]
  exact hnodup.2.sublist (List.filter_sublist.map Entity.id)

end Contribution

namespace ReferenceFile

/-! ### Filling the files -/

/-- A file in which nothing has been found yet. -/
def untouched (root : Option String) (file : String) : ReferenceFile :=
  { file
    fileName := fileNameOf file
    relativePath := relativePathOf root file
    usages := []
    totalUsages := 0
    referencing := [] }

/-- The file with one contribution more. -/
def extend (c : Contribution) (r : ReferenceFile) : ReferenceFile :=
  let usages := r.usages ++ c.usages
  { r with
    usages
    totalUsages := usages.length
    referencing :=
      if r.referencing.any fun e => e.id = c.entity.id then r.referencing else r.referencing ++ [c.entity] }

/-- Take in what an entity hands over, unless there is no usage in it. -/
def add (root : Option String) (files : List ReferenceFile) (c : Contribution) : List ReferenceFile :=
  if c.usages.isEmpty then files else Text.upsert ReferenceFile.file (untouched root c.file) (extend c) files

/-- The files in the order of their usages, the most first. -/
def finish (files : List ReferenceFile) : List ReferenceFile :=
  files.mergeSort fun a b => decide (b.totalUsages ≤ a.totalUsages)

/-- Meet an entity at a distance. -/
def visit (index : Index) (extract : Extractor) (root : Option String) (selected : Entity) (hop : ℕ)
    (files : List ReferenceFile) (neighbour : Entity) : List ReferenceFile :=
  match Contribution.scan? index extract selected hop neighbour with
  | none => files
  | some c => add root files c

/-- The files filled along the walk, one distance after the other. -/
def collected (extract : Extractor) (root : Option String) (selected : Entity) (g : Graph) (hops : ℕ) :
    List ReferenceFile :=
  let index := Index.around selected g
  finish (((Contribution.neighbourhood index selected hops).zipIdx 1).foldl
    (fun files (level, hop) => level.foldl (visit index extract root selected hop) files) [])

/-! ### What is filled in -/

theorem foldl_visit (index : Index) (extract : Extractor) (root : Option String) (selected : Entity) (hop : ℕ)
    (level : List Entity) (files : List ReferenceFile) :
    level.foldl (visit index extract root selected hop) files =
      (level.filterMap (Contribution.scan? index extract selected hop)).foldl (add root) files := by
  rw [List.foldl_filterMap]
  refine List.foldl_ext _ _ _ fun files e _ => ?_
  rw [visit]
  cases Contribution.scan? index extract selected hop e with
  | none => rfl
  | some c => rfl

/-- Only what has usages in it is taken in. -/
theorem collect_filter (root : Option String) (handed : List Contribution) (files : List ReferenceFile) :
    handed.foldl (add root) files = (handed.filter fun c => !c.usages.isEmpty).foldl (add root) files := by
  rw [List.foldl_filter]
  refine List.foldl_ext _ _ _ fun files c _ => ?_
  by_cases hc : c.usages.isEmpty = true
  · rw [hc, add, if_pos hc]
    rfl
  · rw [Bool.eq_false_iff.2 hc]
    rfl

/-- Contributions of different entities are listed one after the other. -/
theorem foldl_extend (contributions : List Contribution) (r : ReferenceFile)
    (hnodup : (r.referencing.map Entity.id ++ contributions.map fun c => c.entity.id).Nodup)
    (hcount : r.totalUsages = r.usages.length) :
    contributions.foldl (fun r c => extend c r) r =
      { r with
        usages := r.usages ++ contributions.flatMap Contribution.usages
        totalUsages := (r.usages ++ contributions.flatMap Contribution.usages).length
        referencing := r.referencing ++ contributions.map Contribution.entity } := by
  induction contributions generalizing r with
  | nil => simp [← hcount]
  | cons c contributions ih =>
    have hnew : (r.referencing.any fun e => e.id = c.entity.id) = false := by
      rw [List.any_eq_false]
      intro e he hid
      refine (List.nodup_append.1 hnodup).2.2 e.id (List.mem_map_of_mem he) c.entity.id ?_ (of_decide_eq_true hid)
      rw [List.map_cons]
      exact List.mem_cons_self
    have hstep : extend c r =
        { r with
          usages := r.usages ++ c.usages
          totalUsages := (r.usages ++ c.usages).length
          referencing := r.referencing ++ [c.entity] } := by
      rw [extend, hnew]
      rfl
    rw [List.foldl_cons, hstep, ih _ (by simpa using hnodup) rfl]
    simp

/-- The files with contributions, each with all of its own. -/
theorem foldl_add (root : Option String) {contributions : List Contribution}
    (husages : ∀ c ∈ contributions, c.usages ≠ [])
    (hnodup : (contributions.map fun c => c.entity.id).Nodup) :
    contributions.foldl (add root) [] =
      (Text.distinctSorted (contributions.map Contribution.file)).map (gather root contributions) := by
  have hupsert : contributions.foldl (add root) [] =
      contributions.foldl (fun files c =>
        Text.upsert ReferenceFile.file (untouched root c.file) (extend c) files) [] := by
    refine List.foldl_ext _ _ _ fun files c hc => ?_
    rw [add, if_neg (by simpa using husages c hc)]
  have hfresh : ∀ file, (untouched root file).file = file := fun _ => rfl
  have hextend : ∀ c r, (extend c r).file = r.file := fun _ _ => rfl
  rw [hupsert, Text.foldl_upsert hfresh hextend]
  refine List.map_congr_left fun file _ => ?_
  have hown : ((contributions.filter fun c => c.file = file).map fun c => c.entity.id).Nodup :=
    hnodup.sublist (List.filter_sublist.map _)
  rw [foldl_extend _ (untouched root file) hown rfl]
  simp [gather, untouched]

/-- **The files can be filled along the walk.** -/
theorem analyze_eq_collected (extract : Extractor) (root : Option String) (selected : Entity) (g : Graph)
    (hops : ℕ) : analyze extract root selected g hops = collected extract root selected g hops := by
  have husages : ∀ c ∈ Contribution.all extract selected g hops, c.usages ≠ [] := by
    intro c hc
    rw [Contribution.all_eq_filter_handed] at hc
    simpa using (List.mem_filter.1 hc).2
  calc analyze extract root selected g hops
      = finish ((Contribution.all extract selected g hops).foldl (add root) []) := by
        rw [foldl_add root husages (Contribution.nodup_all _ _ _ _)]
        rfl
    _ = finish ((Contribution.handed extract selected g hops).foldl (add root) []) := by
        rw [Contribution.all_eq_filter_handed, ← collect_filter]
    _ = collected extract root selected g hops := by
        rw [collected, Contribution.handed, List.foldl_flatMap]
        simp only [foldl_visit]

end ReferenceFile

end CodeAtlas
