import CodeAtlas.Proofs.Hierarchy.Position
import CodeAtlas.Proofs.Wire.Readers

/-!
# Reading back what was written

Whatever is written is read back as it was, except for trees that are too high: their texts are refused.

* `Node.nesting_toValue_le_iff` — every level of nodes takes two containers, one for a node and one for the
  list that the nodes below it stand in;
* `decode_written` — graphs, options, counts, bridges, usages and references are read back from either of
  their texts.  So are trees whose text nests no deeper than `maxNesting`, which are those without a node
  sixty-three steps below the root; all others are refused as malformed.
-/

namespace CodeAtlas

open Json (Value Reader Reads decode maxNesting nestingOf within)

/-! ### Heights

Only trees can be high; everything else is at most three containers high.  The bounds are stated with a
summand to spare, as they are used below larger ones.
-/

section Heights

variable {n : ℕ}

theorem Entity.nesting_toValue_le (e : Entity) : e.toValue.nesting ≤ n + 1 := by
  rw [toValue, Value.nesting_object_le_iff]
  simp only [List.forall_mem_append, List.forall_mem_cons, Value.forall_mem_member?]
  simp

theorem Edge.nesting_toValue_le (e : Edge) : e.toValue.nesting ≤ n + 1 := by
  rw [toValue, Value.nesting_object_le_iff]
  simp only [List.forall_mem_append, List.forall_mem_cons, Value.forall_mem_member?]
  simp

theorem Graph.nesting_toValue_le (g : Graph) : g.toValue.nesting ≤ n + 3 := by
  have hnodes := Value.nesting_map_le (n := n + 1) g.nodes Entity.nesting_toValue_le
  have hedges := Value.nesting_map_le (n := n + 1) g.edges Edge.nesting_toValue_le
  rw [toValue, Value.nesting_object_le_iff]
  simp [hnodes, hedges]

theorem FilterOptions.nesting_toValue_le (o : FilterOptions) : o.toValue.nesting ≤ n + 2 := by
  rw [toValue, Value.nesting_object_le_iff]
  simp [Value.nesting_texts_le]

theorem FilterStats.nesting_toValue_le (s : FilterStats) : s.toValue.nesting ≤ n + 2 := by
  rw [toValue, Value.nesting_object_le_iff]
  simp [Value.nesting_texts_le]

theorem Bridge.nesting_toValue_le (b : Bridge) : b.toValue.nesting ≤ n + 2 := by
  rw [toValue, Value.nesting_object_le_iff]
  simp [Value.nesting_texts_le]

theorem Usage.nesting_toValue_le (u : Usage) : u.toValue.nesting ≤ n + 1 := by
  rw [toValue, Value.nesting_object_le_iff]
  simp only [List.forall_mem_append, List.forall_mem_cons, Value.forall_mem_member?]
  simp

theorem ReferenceFile.nesting_toValue_le (f : ReferenceFile) : f.toValue.nesting ≤ n + 3 := by
  have husages := Value.nesting_map_le (n := n + 1) f.usages Usage.nesting_toValue_le
  have hreferencing := Value.nesting_map_le (n := n + 1) f.referencing Entity.nesting_toValue_le
  rw [toValue, Value.nesting_object_le_iff]
  simp [husages, hreferencing]

end Heights

namespace Node

variable {n : Node} {k : ℕ}

theorem forall_below_iff {P : Node → Prop} :
    (∀ b c, n.below? b = some c → P c) ↔ (∀ c ∈ n.children, P c) ∧ ∀ p ∈ n.parents, P p := by
  constructor
  · intro h
    constructor
    · intro c hc
      obtain ⟨i, hi⟩ := List.mem_iff_getElem?.1 hc
      exact h (.child i) c hi
    · intro p hp
      obtain ⟨i, hi⟩ := List.mem_iff_getElem?.1 hp
      exact h (.parent i) p hi
  · intro h b c hc
    cases b with
    | child i => exact h.1 c (List.mem_of_getElem? hc)
    | parent i => exact h.2 c (List.mem_of_getElem? hc)

/-- A node is two containers higher than what stands below it. -/
theorem nesting_toValue_le_iff :
    n.toValue.nesting ≤ k + 2 ↔ ∀ b c, n.below? b = some c → c.toValue.nesting ≤ k := by
  have hlist : ∀ l : List Node, (Value.array (l.map toValue)).nesting ≤ k + 1 ↔
      ∀ c ∈ l, c.toValue.nesting ≤ k := by
    intro l
    rw [Value.nesting_array_le_iff, List.forall_mem_map]
  have hparents : (∀ m ∈ if n.parents.isEmpty then [] else [("parents", Value.array (n.parents.map toValue))],
      m.2.nesting ≤ k + 1) ↔ ∀ p ∈ n.parents, p.toValue.nesting ≤ k := by
    cases n.parents with
    | nil => simp
    | cons p ps =>
      rw [← hlist]
      simp
  rw [forall_below_iff, toValue_eq, Value.nesting_object_le_iff]
  simp only [List.forall_mem_append, List.forall_mem_cons, Value.forall_mem_member?, hparents, hlist]
  simp [Entity.nesting_toValue_le]

theorem nesting_toValue_pos (n : Node) : 0 < n.toValue.nesting := by
  rw [toValue_eq]
  exact Nat.succ_pos _

/-- The height of a node says how far the positions below it reach. -/
theorem nesting_toValue_le_iff_length (h : ℕ) :
    ∀ n : Node, n.toValue.nesting ≤ 2 * h ↔ ∀ p, (n.nodeAt? p).isSome = true → p.length < h := by
  induction h with
  | zero =>
    intro n
    have hpos := n.nesting_toValue_pos
    constructor
    · intro hle
      omega
    · intro hnone
      have hroot := hnone [] (by rw [nodeAt?_nil]; rfl)
      omega
  | succ h ih =>
    intro n
    rw [Nat.mul_succ, nesting_toValue_le_iff]
    constructor
    · intro hbelow p hp
      cases p with
      | nil => exact Nat.succ_pos h
      | cons b p =>
        rw [nodeAt?_cons] at hp
        cases hc : n.below? b with
        | none =>
          rw [hc] at hp
          cases hp
        | some c =>
          rw [hc] at hp
          exact Nat.succ_lt_succ ((ih c).1 (hbelow b c hc) p hp)
    · intro hlength b c hc
      rw [ih]
      intro p hp
      apply Nat.lt_of_succ_lt_succ
      apply hlength (b :: p)
      rw [nodeAt?_cons, hc]
      exact hp

end Node

/-- A text of a tree stays within the limit exactly if no node is sixty-three steps below the root. -/
theorem Tree.nestingOf_le_iff {t : Tree} {s : String} (hs : t.toValue.Written s) :
    nestingOf s ≤ maxNesting ↔ ∀ p, (t.root.nodeAt? p).isSome = true → p.length < 63 := by
  have hbridges : ∀ l : List Bridge, (Value.array (l.map Bridge.toValue)).nesting ≤ 126 := fun l =>
    Value.nesting_map_le l Bridge.nesting_toValue_le
  rw [hs.nestingOf_eq, ← Node.nesting_toValue_le_iff_length, toValue]
  show _ ≤ 126 + 1 ↔ _
  rw [Value.nesting_object_le_iff]
  simp only [List.forall_mem_append, List.forall_mem_cons, Value.forall_mem_member?]
  simp [hbridges, Value.nesting_texts_le, FilterStats.nesting_toValue_le]

/-! ### Samples -/

/-- An entity with the largest line number, and with a quote, a line break and a character outside the basic
plane in its name. -/
def Entity.quoted : Entity :=
  { id := "a", name := "\"\n𝔸", file := none, code := some "", category := "function"
    startLine := some 18446744073709551615, endLine := none }

theorem Entity.fits_quoted : quoted.Fits := by
  constructor <;> decide

/-- Counts, the first of which is the largest number that fits. -/
def FilterStats.full : FilterStats :=
  { nodesBefore := 18446744073709551615, nodesAfter := 0, edgesBefore := 1, edgesAfter := 0, bridges := 0
    hiddenCategories := ["", "\\"] }

theorem FilterStats.fits_full : full.Fits := by
  constructor <;> decide

def Usage.quoted : Usage :=
  { line := 18446744073709551615, column := 0, kind := .imported, context := "\t", fullContext := "/"
    scope := some "null", pattern := "\x7b" }

theorem Usage.fits_quoted : quoted.Fits := by
  constructor <;> decide

def ReferenceFile.quoted : ReferenceFile :=
  { file := "", fileName := "é", relativePath := "\x1f", usages := [.quoted, .quoted], totalUsages := 2
    referencing := [.quoted] }

theorem ReferenceFile.fits_quoted : quoted.Fits where
  usages := by simp [quoted, Usage.fits_quoted]
  totalUsages := by decide
  referencing := by simp [quoted, Entity.fits_quoted]

namespace Node

/-- A node of the least depth that has children and no parents. -/
def above (children : List Node) : Node :=
  { entity := .quoted, depth := -2147483648, relationship := none, expanded := true, children
    parents := [], parentId := some "" }

/-- A node with a chain of so many nodes below it. -/
def chain : ℕ → Node
  | 0 => above []
  | n + 1 => above [chain n]

theorem fits_above {children : List Node} (h : ∀ c ∈ children, c.Fits) : (above children).Fits := by
  refine .node Entity.fits_quoted rfl h ?_
  intro p hp
  cases hp

theorem fits_chain (n : ℕ) : (chain n).Fits := by
  induction n with
  | zero => exact fits_above (by simp)
  | succ n ih => exact fits_above (by simpa using ih)

/-- A position in a chain is no longer than the chain. -/
theorem length_le_of_chain {n : ℕ} {p : List Branch} (h : ((chain n).nodeAt? p).isSome = true) :
    p.length ≤ n := by
  induction n generalizing p with
  | zero =>
    cases p with
    | nil => exact le_refl 0
    | cons b p => cases b <;> simp [nodeAt?_cons, chain, above, below?] at h
  | succ n ih =>
    cases p with
    | nil => exact Nat.zero_le _
    | cons b p =>
      cases b with
      | parent i => simp [nodeAt?_cons, chain, above, below?] at h
      | child i =>
        cases i with
        | zero =>
          rw [nodeAt?_cons] at h
          exact Nat.succ_le_succ (ih h)
        | succ i => simp [nodeAt?_cons, chain, above, below?] at h

theorem nodeAt?_chain (n : ℕ) : (chain n).nodeAt? (List.replicate n (.child 0)) = some (above []) := by
  induction n with
  | zero => exact nodeAt?_nil _
  | succ n ih =>
    rw [List.replicate_succ, nodeAt?_cons]
    exact ih

end Node

/-- A tree that is a chain. -/
def Tree.chain (n : ℕ) : Tree :=
  { root := .chain n, totalNodes := n + 1, maxDepth := n, relationshipTypes := []
    filterStats := some .full, bridges := some [] }

theorem Tree.fits_chain {n : ℕ} (h : n + 1 < Number.bound64) : (chain n).Fits where
  root := Node.fits_chain n
  totalNodes := h
  maxDepth := Nat.lt_of_succ_lt h
  filterStats := by
    intro s hs
    rw [← Option.some.inj hs]
    exact FilterStats.fits_full

/-! ### Whole texts -/

/-- What is written is read back from either text, and trees that are too high are refused. -/
theorem decode_written :
    (∀ (g : Graph) (s : String), g.Fits → g.toValue.Written s → decode Graph.reader s = .ok g) ∧
    (∀ (o : FilterOptions) (s : String), o.toValue.Written s → decode FilterOptions.reader s = .ok o) ∧
    (∀ (c : FilterStats) (s : String), c.Fits → c.toValue.Written s → decode FilterStats.reader s = .ok c) ∧
    (∀ (b : Bridge) (s : String), b.toValue.Written s → decode Bridge.reader s = .ok b) ∧
    (∀ (u : Usage) (s : String), u.Fits → u.toValue.Written s → decode Usage.reader s = .ok u) ∧
    (∀ (f : ReferenceFile) (s : String), f.Fits → f.toValue.Written s →
      decode ReferenceFile.reader s = .ok f) ∧
    ∀ (t : Tree) (s : String), t.Fits → t.toValue.Written s →
      decode Tree.reader s =
        (if nestingOf s ≤ maxNesting then .ok t else .error (.fault .malformed)) ∧
      (nestingOf s ≤ maxNesting ↔ ∀ p, (t.root.nodeAt? p).isSome = true → p.length < 63) := by
  refine ⟨?_, ?_, ?_, ?_, ?_, ?_, ?_⟩
  · intro g s hg hs
    exact (hg.reads _).decode_eq_ok g.nesting_toValue_le hs
  · intro o s hs
    exact (o.reads _).decode_eq_ok o.nesting_toValue_le hs
  · intro c s hc hs
    exact (hc.reads _).decode_eq_ok c.nesting_toValue_le hs
  · intro b s hs
    exact (b.reads _).decode_eq_ok b.nesting_toValue_le hs
  · intro u s hu hs
    exact (hu.reads _).decode_eq_ok u.nesting_toValue_le hs
  · intro f s hf hs
    exact (hf.reads _).decode_eq_ok f.nesting_toValue_le hs
  · intro t s ht hs
    exact ⟨ht.reads.decode_eq hs, Tree.nestingOf_le_iff hs⟩

/-- Each sample is read back.  So is a chain of sixty-two nodes below the root, while one of sixty-three is
refused. -/
theorem decode_written_samples :
    decode Graph.reader (Graph.toValue { nodes := [.quoted], edges := [] }).spreadText =
      .ok { nodes := [.quoted], edges := [] } ∧
    decode FilterStats.reader FilterStats.full.toValue.compactText = .ok .full ∧
    decode Usage.reader Usage.quoted.toValue.compactText = .ok .quoted ∧
    decode ReferenceFile.reader ReferenceFile.quoted.toValue.spreadText = .ok .quoted ∧
    decode Tree.reader (Tree.chain 62).toValue.spreadText = .ok (.chain 62) ∧
    decode Tree.reader (Tree.chain 63).toValue.compactText = .error (.fault .malformed) := by
  obtain ⟨hgraph, -, hstats, -, husage, hfile, htree⟩ := decode_written
  have hnodes : Graph.Fits { nodes := [.quoted], edges := [] } := by
    simp [Graph.Fits, Entity.fits_quoted]
  refine ⟨hgraph _ _ hnodes (.inr rfl), hstats _ _ FilterStats.fits_full (.inl rfl),
    husage _ _ Usage.fits_quoted (.inl rfl), hfile _ _ ReferenceFile.fits_quoted (.inr rfl), ?_, ?_⟩
  · obtain ⟨hdecode, hle⟩ := htree (.chain 62) _ (Tree.fits_chain (by decide)) (.inr rfl)
    rw [hdecode, if_pos (hle.2 fun p hp => Nat.lt_succ_of_le (Node.length_le_of_chain hp))]
  · obtain ⟨hdecode, hle⟩ := htree (.chain 63) _ (Tree.fits_chain (by decide)) (.inl rfl)
    have hdeep : ¬nestingOf (Tree.chain 63).toValue.compactText ≤ maxNesting := by
      intro hlimit
      have hlength := hle.1 hlimit (List.replicate 63 (.child 0)) (by
        show ((Node.chain 63).nodeAt? _).isSome = true
        rw [Node.nodeAt?_chain]
        rfl)
      rw [List.length_replicate] at hlength
      exact Nat.lt_irrefl 63 hlength
    rw [hdecode, if_neg hdeep]

end CodeAtlas
