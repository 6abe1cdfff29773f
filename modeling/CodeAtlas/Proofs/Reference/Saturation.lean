import CodeAtlas.Proofs.Hierarchy.HopDistance
import CodeAtlas.Proofs.Reference.BreadthFirst

/-!
# Looking farther than there is anything to see

The tree around an entity and the search for references to it walk over the same hops, each in its own way:
the tree claims entities in the order of labels and names, the search takes them in the order of edges.  Both
end when a level would be empty, and both do so after the same number of levels
(`Contribution.length_neighbourhood`): a level is empty exactly if no id lies at its distance.

So the depth that a tree reached says for both of them whether there is more to find.  If it is less than the
depth allowed, allowing more changes nothing (`Tree.build_saturated`).
-/

namespace CodeAtlas

/-- The search for references gets as far as the tree. -/
theorem Contribution.length_neighbourhood (selected : Entity) (g : Graph) (hops : ℕ) :
    (neighbourhood (Index.around selected g) selected hops).length =
      (Tree.build selected g hops).maxDepth :=
  Walk.length_levels_eq (spans_neighbours selected g) (Claim.spans_expand selected g) rfl
    (Claim.id_root selected) hops

variable {selected : Entity} {g : Graph} {d d' : ℕ}

theorem Claim.levels_saturated (h : (Tree.build selected g d).maxDepth < d) (hd : d ≤ d') :
    levels (Index.around selected g) selected d' = levels (Index.around selected g) selected d :=
  Walk.levels_of_length_lt hd h

theorem Contribution.neighbourhood_saturated (h : (Tree.build selected g d).maxDepth < d) (hd : d ≤ d') :
    neighbourhood (Index.around selected g) selected d' =
      neighbourhood (Index.around selected g) selected d := by
  rw [← length_neighbourhood] at h
  exact Walk.levels_of_length_lt hd h

namespace Tree

/-- **Tree and references saturate together.**  If a tree does not reach the depth allowed, then every greater
depth gives the same tree, and the search for references finds the same at every greater depth. -/
theorem build_saturated (selected : Entity) (g : Graph) {d d' : ℕ}
    (h : (build selected g d).maxDepth < d) (hd : d ≤ d') :
    build selected g d' = build selected g d ∧
      ∀ (extract : Extractor) (root : Option String),
        ReferenceFile.analyze extract root selected g d' =
          ReferenceFile.analyze extract root selected g d := by
  constructor
  · rw [build, build, Claim.levels_saturated h hd]
  · intro extract root
    rw [ReferenceFile.analyze, ReferenceFile.analyze, Contribution.all, Contribution.all,
      Contribution.neighbourhood_saturated h hd]

/-- Both come to an end after the second level, where one of two references is found. -/
theorem build_saturated_tangled :
    let extract := Usage.find UsageRule.unlimited
    (build (Entity.plain "a" "function") tangled 3).maxDepth = 2 ∧
      build (Entity.plain "a" "function") tangled 18446744073709551615 =
        build (Entity.plain "a" "function") tangled 3 ∧
      ReferenceFile.analyze extract none (Entity.plain "a" "function") tangled 18446744073709551615 =
        ReferenceFile.analyze extract none (Entity.plain "a" "function") tangled 3 ∧
      (ReferenceFile.analyze extract none (Entity.plain "a" "function") tangled 3).map
        ReferenceFile.totalUsages = [2] ∧
      (ReferenceFile.analyze extract none (Entity.plain "a" "function") tangled 1).map
        ReferenceFile.totalUsages = [1] := by
  intro extract
  have hdepth : (build (Entity.plain "a" "function") tangled 3).maxDepth = 2 := by
    rw [maxDepth_build]
    decide
  have h := build_saturated (Entity.plain "a" "function") tangled (d := 3) (by omega)
    (show 3 ≤ 18446744073709551615 by omega)
  exact ⟨hdepth, h.1, h.2 extract none, by decide +kernel, by decide +kernel⟩

end Tree

end CodeAtlas
