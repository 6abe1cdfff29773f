import CodeAtlas.Proofs.Json.ReadBack
import CodeAtlas.Wire.Tree
import CodeAtlas.Wire.Usage

/-!
# Readers of the wire format

Each reader gets out of a written value what was written, as long as containers are left.

* `Fits` — the numbers in a value are within the ranges of their types: natural numbers of 64 bits, and
  signed ones of 32 bits for the depth of a node;
* `Node.Fits.reads` — a reader of so many levels of nodes is enough for a text with two containers to a
  level.
-/

namespace CodeAtlas

open Json (Value Reader Field Fields Reads)

/-! ### Graphs -/

/-- The line numbers of an entity are in range. -/
structure Entity.Fits (e : Entity) : Prop where
  startLine : ∀ n ∈ e.startLine, n < Number.bound64
  endLine : ∀ n ∈ e.endLine, n < Number.bound64

theorem Entity.Fits.reads {e : Entity} (h : e.Fits) (left : ℕ) :
    Reads Entity.reader left e.toValue e := by
  apply Reads.map (a := (e.id, e.name, e.file, e.code, e.category, e.startLine, e.endLine, ()))
  simp only [toValue, List.append_assoc, List.cons_append, List.nil_append]
  refine Fields.Given.reads _ (fun l _ => ?_) rfl
  exact .member (.text _) <| .member (.text _) <|
    .optional rfl (fun s _ => .optional (.text s) nofun) <|
    .optional rfl (fun s _ => .optional (.text s) nofun) <| .member (.text _) <|
    .optional rfl (fun n hn => .optional (.natural (h.startLine n hn)) nofun) <|
    .lastOptional rfl (fun n hn => .optional (.natural (h.endLine n hn)) nofun)

theorem Edge.reads (e : Edge) (left : ℕ) : Reads Edge.reader left e.toValue e := by
  apply Reads.map (a := (e.source, e.target, e.relationship, ()))
  refine Fields.Given.reads _ (fun l _ => ?_) rfl
  exact .member (.text _) <| .member (.text _) <|
    .lastOptional rfl (fun s _ => .optional (.text s) nofun)

def Graph.Fits (g : Graph) : Prop := ∀ e ∈ g.nodes, e.Fits

theorem Graph.Fits.reads {g : Graph} (h : g.Fits) (left : ℕ) : Reads Graph.reader left g.toValue g := by
  apply Reads.map (a := (g.nodes, g.edges, ()))
  refine Fields.Given.reads _ (fun l _ => ?_) rfl
  exact .member (.list fun _ _ e he => (h e he).reads _) <|
    .member (.list fun _ _ e _ => e.reads _) .done

/-! ### Filters -/

/-- An increasing list is the list of its members in increasing order. -/
theorem CategorySet.ofList_members (s : CategorySet) : ofList s.members = s := by
  have hperm : (Text.distinctSorted s.members).Perm s.members := by
    apply (List.perm_ext_iff_of_nodup ((Text.pairwise_distinctSorted _).imp String.ne_of_lt)
      (s.increasing.imp String.ne_of_lt)).2
    intro category
    exact Text.mem_distinctSorted
  apply CategorySet.ext
  apply hperm.eq_of_pairwise ?_ (Text.pairwise_distinctSorted _) s.increasing
  intro a b _ _ hab hba
  exact absurd hab (String.lt_asymm hba)

theorem FilterOptions.reads (o : FilterOptions) (left : ℕ) :
    Reads FilterOptions.reader left o.toValue o := by
  have hlist : ofList o.categories.members o.skipHidden = o := by
    rw [ofList, CategorySet.ofList_members]
  have hfields : Reads FilterOptions.reader left o.toValue (ofList o.categories.members o.skipHidden) := by
    apply Reads.map (a := (o.categories.members, o.skipHidden, ()))
    refine Fields.Given.reads _ (fun l _ => ?_) rfl
    exact .member (.texts _) <| .member (.boolean _) .done
  rwa [hlist] at hfields

/-- The counts are in range. -/
structure FilterStats.Fits (s : FilterStats) : Prop where
  nodesBefore : s.nodesBefore < Number.bound64
  nodesAfter : s.nodesAfter < Number.bound64
  edgesBefore : s.edgesBefore < Number.bound64
  edgesAfter : s.edgesAfter < Number.bound64
  bridges : s.bridges < Number.bound64

theorem FilterStats.Fits.reads {s : FilterStats} (h : s.Fits) (left : ℕ) :
    Reads FilterStats.reader left s.toValue s := by
  apply Reads.map (a := (s.nodesBefore, s.nodesAfter, s.edgesBefore, s.edgesAfter, s.bridges,
    s.hiddenCategories, ()))
  refine Fields.Given.reads _ (fun l _ => ?_) rfl
  exact .member (.natural h.nodesBefore) <| .member (.natural h.nodesAfter) <|
    .member (.natural h.edgesBefore) <| .member (.natural h.edgesAfter) <|
    .member (.natural h.bridges) <| .member (.texts _) .done

theorem Bridge.reads (b : Bridge) (left : ℕ) : Reads Bridge.reader left b.toValue b := by
  apply Reads.map (a := (b.path, b.source, b.target, b.relationship, b.skipped, ()))
  refine Fields.Given.reads _ (fun l _ => ?_) rfl
  exact .member (.texts _) <| .member (.text _) <| .member (.text _) <| .member (.text _) <|
    .member (.texts _) .done

/-! ### Usages -/

theorem UsageKind.reads (k : UsageKind) (left : ℕ) : Reads UsageKind.reader left (.text k.name) k := by
  apply Reads.variant
  cases k <;> decide

/-- The line and the column are in range. -/
structure Usage.Fits (u : Usage) : Prop where
  line : u.line < Number.bound64
  column : u.column < Number.bound64

theorem Usage.Fits.reads {u : Usage} (h : u.Fits) (left : ℕ) : Reads Usage.reader left u.toValue u := by
  apply Reads.map (a := (u.line, u.column, u.kind, u.context, u.fullContext, u.scope, u.pattern, ()))
  simp only [toValue, List.cons_append, List.nil_append]
  refine Fields.Given.reads _ (fun l _ => ?_) rfl
  exact .member (.natural h.line) <| .member (.natural h.column) <| .member (u.kind.reads _) <|
    .member (.text _) <| .member (.text _) <|
    .optional rfl (fun s _ => .optional (.text s) nofun) <| .member (.text _) .done

structure ReferenceFile.Fits (f : ReferenceFile) : Prop where
  usages : ∀ u ∈ f.usages, u.Fits
  totalUsages : f.totalUsages < Number.bound64
  referencing : ∀ e ∈ f.referencing, e.Fits

theorem ReferenceFile.Fits.reads {f : ReferenceFile} (h : f.Fits) (left : ℕ) :
    Reads ReferenceFile.reader left f.toValue f := by
  apply Reads.map (a := (f.file, f.fileName, f.relativePath, f.usages, f.totalUsages, f.referencing, ()))
  refine Fields.Given.reads _ (fun l _ => ?_) rfl
  exact .member (.text _) <| .member (.text _) <| .member (.text _) <|
    .member (.list fun _ _ u hu => (h.usages u hu).reads _) <| .member (.natural h.totalUsages) <|
    .member (.list fun _ _ e he => (h.referencing e he).reads _) .done

/-! ### Trees -/

/-- The numbers of a node and of all nodes below it are in range. -/
inductive Node.Fits : Node → Prop where
  | node {n : Node} (entity : n.entity.Fits) (depth : Number.fitsSigned Number.bound31 n.depth = true)
      (children : ∀ c ∈ n.children, c.Fits) (parents : ∀ p ∈ n.parents, p.Fits) : n.Fits

theorem Node.toValues_eq_map (l : List Node) : toValues l = l.map toValue := by
  induction l with
  | nil => rfl
  | cons n rest ih => rw [toValues, ih, List.map_cons]

theorem Node.toValue_eq (n : Node) :
    n.toValue = .object (
      ("entity", n.entity.toValue) :: ("depth", .number n.depth) ::
      (Value.member? "relationship" .text n.relationship ++
      ("is_expanded", .bool n.expanded) :: ("children", .array (n.children.map toValue)) ::
      ((if n.parents.isEmpty then [] else [("parents", .array (n.parents.map toValue))]) ++
      Value.member? "parent_id" .text n.parentId))) := by
  cases n
  rw [toValue, toValues_eq_map, toValues_eq_map]
  simp only [List.append_assoc, List.cons_append, List.nil_append]

/-- A node takes a container, and so does the list that its children or parents stand in. -/
theorem Node.Fits.reads {n : Node} (h : n.Fits) {levels left : ℕ} (hleft : left ≤ 2 * levels) :
    Reads (readerUpTo levels) left n.toValue n := by
  induction levels generalizing n left with
  | zero =>
    obtain rfl : left = 0 := by omega
    rw [toValue_eq]
    rfl
  | succ levels ih =>
    obtain ⟨hentity, hdepth, hchildren, hparents⟩ := h
    obtain ⟨entity, depth, relationship, expanded, children, parents, parentId⟩ := n
    apply Reads.map (a := (entity, depth, relationship, expanded, children, parents, parentId, ()))
    rw [toValue_eq]
    refine Fields.Given.reads _ (fun l hl => ?_) rfl
    exact .member (hentity.reads l) <| .member (.signed hdepth) <|
      .optional rfl (fun s _ => .optional (.text s) nofun) <| .member (.boolean _) <|
      .member (.list fun k hk c hc => ih (hchildren c hc) (by omega)) <|
      .unlessEmpty rfl (.list fun k hk p hp => ih (hparents p hp) (by omega)) <|
      .lastOptional rfl (fun s _ => .optional (.text s) nofun)

/-- The numbers in a tree are in range. -/
structure Tree.Fits (t : Tree) : Prop where
  root : t.root.Fits
  totalNodes : t.totalNodes < Number.bound64
  maxDepth : t.maxDepth < Number.bound64
  filterStats : ∀ s ∈ t.filterStats, s.Fits

theorem Tree.Fits.reads {t : Tree} (h : t.Fits) : Reads Tree.reader Json.maxNesting t.toValue t := by
  apply Reads.map (a := (t.root, t.totalNodes, t.maxDepth, t.relationshipTypes, t.filterStats,
    t.bridges, ()))
  simp only [toValue, List.cons_append, List.nil_append]
  refine Fields.Given.reads _ (fun l hl => ?_) rfl
  have hroot : l ≤ 2 * 64 := by
    have hmax : Json.maxNesting = 127 := rfl
    omega
  exact .member (h.root.reads hroot) <| .member (.natural h.totalNodes) <|
    .member (.natural h.maxDepth) <| .member (.texts _) <|
    .optional rfl (fun s hs => .optional ((h.filterStats s hs).reads l) nofun) <|
    .lastOptional rfl (fun l _ => .optional (.list fun _ _ b _ => b.reads _) nofun)

end CodeAtlas
