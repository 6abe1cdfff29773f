import CodeAtlas.Proofs.Json.Grammar
import CodeAtlas.Proofs.Json.ReadBack
import Mathlib.Data.List.Induction

/-!
# Records whose members stand in any order

What a record is made of depends on its members only through the values that each field is given.

* `valuesUnder ms names` — the values that the members give under one of the names;
* `Fields.Drafts left given fields draft` — each field of the draft is given once, or not yet;
* `Fields.Drafts.exists_before` — what one member adds to a draft;
* `Fields.Drafts.putAll_eq` — what all members give, whatever their order and whatever other members stand among
  them;
* `Fields.Told left given fields b` — what is given, and what need not be, are the finished fields `b`.
-/

namespace CodeAtlas.Json

/-- The values that members give under one of the names, in the order of the text. -/
def valuesUnder (members : List (RawText × Document)) (names : List String) : List Document :=
  (members.filter fun m => m.1.text?.any (· ∈ names)).map Prod.snd

theorem valuesUnder_append (ms more : List (RawText × Document)) (names : List String) :
    valuesUnder (ms ++ more) names = valuesUnder ms names ++ valuesUnder more names := by
  rw [valuesUnder, List.filter_append, List.map_append]
  rfl

theorem valuesUnder_singleton {key : RawText} {name : String} (hkey : key.text? = some name) (d : Document)
    (names : List String) : valuesUnder [(key, d)] names = if name ∈ names then [d] else [] := by
  by_cases hname : name ∈ names
  · simp [valuesUnder, hkey, hname]
  · simp [valuesUnder, hkey, hname]

namespace Field

variable {α : Type}

/-- All names under which the field may be given, its own name first. -/
def spellings (f : Field α) : List String := f.name :: f.aliases

theorem answersTo_iff {f : Field α} {name : String} : f.answersTo name = true ↔ name ∈ f.spellings := by
  simp [answersTo, spellings]

theorem answersTo_of_notMem {f : Field α} {name : String} (h : name ∉ f.spellings) : f.answersTo name = false := by
  rwa [← answersTo_iff, Bool.not_eq_true] at h

/-- The documents give the field once, or not at all. -/
def Gets (left : ℕ) (f : Field α) (ds : List Document) : Option α → Prop
  | none => ds = []
  | some a => ∃ d, ds = [d] ∧ f.reader left d = .ok a

end Field

namespace Fields

variable {δ β : Type} {left : ℕ} {given : List String → List Document}

/-- The names of each field, in the order of the fields. -/
def table {δ β : Type} : Fields δ β → List (List String)
  | .done => []
  | .field f rest => f.spellings :: rest.table

/-- The fields of the draft are those that were given. -/
def Drafts (left : ℕ) (given : List String → List Document) {δ β : Type} : Fields δ β → δ → Prop
  | .done, _ => True
  | .field f rest, (o, draft) => f.Gets left (given f.spellings) o ∧ rest.Drafts left given draft

/-- What is given, and what need not be, are the finished fields. -/
def Told (left : ℕ) (given : List String → List Document) {δ β : Type} : Fields δ β → β → Prop
  | .done, _ => True
  | .field f rest, (a, b) =>
    (∃ o, f.Gets left (given f.spellings) o ∧ (o <|> f.absent) = some a) ∧ rest.Told left given b

/-- The first field that has to be given and is not. -/
def missing? (given : List String → List Document) {δ β : Type} : Fields δ β → Option String
  | .done => none
  | .field f rest =>
    if (given f.spellings).isEmpty && f.absent.isNone then some f.name else rest.missing? given

/-! ### Drafts -/

theorem Told.exists_draft {fields : Fields δ β} {b : β} (h : fields.Told left given b) :
    ∃ draft, fields.Drafts left given draft ∧ fields.finish draft = .ok b := by
  induction fields with
  | done => exact ⟨(), trivial, rfl⟩
  | field f rest ih =>
    obtain ⟨a, b⟩ := b
    obtain ⟨⟨o, hgets, ha⟩, hrest⟩ := h
    obtain ⟨draft, hdraft, hfinish⟩ := ih hrest
    refine ⟨(o, draft), ⟨hgets, hdraft⟩, ?_⟩
    rw [finish, ha]
    simp only [hfinish]
    rfl

namespace Drafts

variable {fields : Fields δ β} {draft : δ}

theorem eq_blank (h : fields.Drafts left (fun _ => []) draft) : draft = fields.blank := by
  induction fields with
  | done => rfl
  | field f rest ih =>
    obtain ⟨o, draft⟩ := draft
    obtain ⟨hgets, hrest⟩ := h
    cases o with
    | none => rw [ih hrest, blank]
    | some a =>
      obtain ⟨d, hd, -⟩ := hgets
      cases hd

/-- Of members that give each field at most once, the first ones do so too. -/
theorem exists_of_isPrefix {more : List String → List Document} (hstarts : ∀ names, given names <+: more names)
    (h : fields.Drafts left more draft) : ∃ first, fields.Drafts left given first := by
  induction fields with
  | done => exact ⟨(), trivial⟩
  | field f rest ih =>
    obtain ⟨o, draft⟩ := draft
    obtain ⟨hgets, hrest⟩ := h
    obtain ⟨first, hfirst⟩ := ih hrest
    have hhead := hstarts f.spellings
    have hnone : given f.spellings = [] → ∃ first, (Fields.field f rest).Drafts left given first :=
      fun hempty => ⟨(none, first), hempty, hfirst⟩
    cases o with
    | none =>
      rw [show more f.spellings = [] from hgets, List.prefix_nil] at hhead
      exact hnone hhead
    | some a =>
      obtain ⟨d, hd, ha⟩ := hgets
      rw [hd, List.prefix_cons_iff] at hhead
      rcases hhead with hempty | ⟨t, ht, hnil⟩
      · exact hnone hempty
      · rw [List.prefix_nil.1 hnil] at ht
        exact ⟨(some a, first), ⟨d, ht, ha⟩, hfirst⟩

/-- A draft to which a member belongs is what the member makes of the draft before it.  A member that belongs to
no field changes nothing. -/
theorem exists_before (hnodup : fields.table.flatten.Nodup) {after : List String → List Document} {name : String}
    {d : Document} (hafter : ∀ names, after names = given names ++ if name ∈ names then [d] else [])
    (h : fields.Drafts left after draft) :
    ∃ before, fields.Drafts left given before ∧
      fields.put? left name d before = (if name ∈ fields.table.flatten then some (.ok draft) else none) ∧
      (name ∉ fields.table.flatten → before = draft) := by
  induction fields with
  | done => exact ⟨draft, trivial, rfl, fun _ => rfl⟩
  | field f rest ih =>
    obtain ⟨o, draft⟩ := draft
    obtain ⟨hgets, hrest⟩ := h
    rw [table, List.flatten_cons, List.nodup_append] at hnodup
    obtain ⟨before, hbefore, hput, hsame⟩ := ih hnodup.2.1 hrest
    have hfield := hafter f.spellings
    by_cases hname : name ∈ f.spellings
    · -- the member belongs to this field, and so to no other one
      have hother : name ∉ rest.table.flatten := fun hmem => hnodup.2.2 name hname name hmem rfl
      rw [if_pos hname] at hfield
      cases o with
      | none =>
        rw [show after f.spellings = [] from hgets] at hfield
        simp at hfield
      | some a =>
        obtain ⟨e, he, ha⟩ := hgets
        rw [he, List.singleton_eq_append_iff] at hfield
        obtain ⟨hempty, hd⟩ | ⟨-, hd⟩ := hfield
        case inr => cases hd
        obtain rfl := List.singleton_inj.1 hd
        refine ⟨(none, before), ⟨hempty, hbefore⟩, ?_, ?_⟩
        · rw [put?, if_pos (Field.answersTo_iff.2 hname), if_pos (by simp [table, hname]), ha, hsame hother]
          rfl
        · exact fun hmem => absurd (by simp [table, hname]) hmem
    · rw [if_neg hname, List.append_nil] at hfield
      rw [hfield] at hgets
      have htable : name ∈ (Fields.field f rest).table.flatten ↔ name ∈ rest.table.flatten := by
        simp [table, hname]
      refine ⟨(o, before), ⟨hgets, hbefore⟩, ?_, ?_⟩
      · rw [put?_field (Field.answersTo_of_notMem hname), hput]
        simp only [htable]
        split <;> rfl
      · intro hmem
        rw [hsame (by rwa [htable] at hmem)]

/-- A field that was given is not given again, under none of its names. -/
theorem put?_duplicate (hnodup : fields.table.flatten.Nodup) (h : fields.Drafts left given draft)
    {canonical : String} {aliases : List String} (hfield : canonical :: aliases ∈ fields.table) {name : String}
    (hname : name ∈ canonical :: aliases) (hgiven : given (canonical :: aliases) ≠ []) (d : Document) :
    fields.put? left name d draft = some (Reader.reject (.duplicateField canonical)) := by
  induction fields with
  | done => cases hfield
  | field f rest ih =>
    obtain ⟨o, draft⟩ := draft
    obtain ⟨hgets, hrest⟩ := h
    rw [table, List.flatten_cons, List.nodup_append] at hnodup
    rcases List.mem_cons.1 hfield with hthis | hother
    · rw [hthis] at hname hgiven
      obtain rfl : canonical = f.name := (List.cons.inj hthis).1
      cases o with
      | none => exact absurd hgets hgiven
      | some a => rw [put?, if_pos (Field.answersTo_iff.2 hname)]
    · have hnot : name ∉ f.spellings := fun hmem =>
        hnodup.2.2 name hmem name (List.mem_flatten.2 ⟨_, hother, hname⟩) rfl
      rw [put?_field (Field.answersTo_of_notMem hnot), ih hnodup.2.1 hrest hother]
      rfl

theorem finish_missing (h : fields.Drafts left given draft) {name : String}
    (hmissing : fields.missing? given = some name) :
    fields.finish draft = Reader.reject (.missingField name) := by
  induction fields with
  | done => cases hmissing
  | field f rest ih =>
    obtain ⟨o, draft⟩ := draft
    obtain ⟨hgets, hrest⟩ := h
    rw [missing?] at hmissing
    split at hmissing
    · rename_i hthis
      obtain rfl := Option.some.inj hmissing
      simp only [Bool.and_eq_true, List.isEmpty_iff, Option.isNone_iff_eq_none] at hthis
      cases o with
      | none => rw [finish, hthis.2]; rfl
      | some a =>
        obtain ⟨d, hd, -⟩ := hgets
        rw [hd] at hthis
        cases hthis.1
    · rename_i hthis
      obtain ⟨a, ha⟩ : ∃ a, (o <|> f.absent) = some a := by
        cases o with
        | some a => exact ⟨a, rfl⟩
        | none =>
          rw [show given f.spellings = [] from hgets] at hthis
          exact Option.ne_none_iff_exists'.1 (by simpa using hthis)
      rw [finish, ha]
      simp only [ih hrest hmissing]
      rfl

end Drafts

/-! ### Objects -/

/-- Members whose names are texts and whose values are well-formed. -/
def Passable (members : List (RawText × Document)) : Prop :=
  ∀ m ∈ members, m.1.text?.isSome = true ∧ m.2.skipFault? = none

theorem putAll_append (fields : Fields δ β) (draft : δ) (ms more : List (RawText × Document)) :
    fields.putAll left draft (ms ++ more) =
      fields.putAll left draft ms >>= fun draft => fields.putAll left draft more := by
  induction ms generalizing draft with
  | nil => rfl
  | cons m ms ih =>
    obtain ⟨key, d⟩ := m
    rw [List.cons_append, putAll, putAll]
    cases Reader.readText key with
    | error e => rfl
    | ok name =>
      simp only [bind, Except.bind] at ih ⊢
      cases fields.put? left name d draft with
      | none =>
        cases d.skipFault? with
        | none => exact ih draft
        | some fault => rfl
      | some result =>
        cases result with
        | error e => rfl
        | ok next => exact ih next

/-- A member of which the name is a text is taken in by the field it is for. -/
theorem putAll_member {key : RawText} {name : String} (hkey : key.text? = some name) {fields : Fields δ β}
    {draft : δ} {d : Document} {result : Except DecodeError δ}
    (hput : fields.put? left name d draft = some result) (more : List (RawText × Document)) :
    fields.putAll left draft ((key, d) :: more) = result >>= fun next => fields.putAll left next more := by
  rw [putAll, Reader.readText, hkey]
  simp only [bind, Except.bind, hput]

theorem putAll_skipped {key : RawText} {name : String} (hkey : key.text? = some name) {fields : Fields δ β}
    {draft : δ} {d : Document} (hput : fields.put? left name d draft = none) (hd : d.skipFault? = none)
    (more : List (RawText × Document)) :
    fields.putAll left draft ((key, d) :: more) = fields.putAll left draft more := by
  rw [putAll, Reader.readText, hkey]
  simp only [bind, Except.bind, hput, hd, Reader.orFault]

section Objects

variable {fields : Fields δ β} {ms : List (RawText × Document)}

/-- The members make the draft that they are said to give, whatever their order. -/
theorem Drafts.putAll_eq (hnodup : fields.table.flatten.Nodup) (hms : Passable ms) {draft : δ}
    (h : fields.Drafts left (valuesUnder ms) draft) : fields.putAll left fields.blank ms = .ok draft := by
  -- the last member is taken off, since it is the one that is taken in last
  induction ms using List.reverseRecOn generalizing draft with
  | nil => rw [h.eq_blank, putAll]
  | append_singleton ms m ih =>
    obtain ⟨key, d⟩ := m
    obtain ⟨hkey, hd⟩ := hms (key, d) (by simp)
    obtain ⟨name, hname⟩ := Option.isSome_iff_exists.1 hkey
    have hafter : ∀ names, valuesUnder (ms ++ [(key, d)]) names =
        valuesUnder ms names ++ if name ∈ names then [d] else [] := by
      intro names
      rw [valuesUnder_append, valuesUnder_singleton hname]
    obtain ⟨before, hbefore, hput, hsame⟩ := h.exists_before hnodup hafter
    rw [putAll_append, ih (fun m hm => hms m (List.mem_append_left _ hm)) hbefore]
    show fields.putAll left before [(key, d)] = _
    by_cases hmem : name ∈ fields.table.flatten
    · rw [if_pos hmem] at hput
      rw [putAll_member hname hput]
      rfl
    · rw [if_neg hmem] at hput
      rw [putAll_skipped hname hput hd, hsame hmem, putAll]

theorem Told.reader_object {b : β} (hnodup : fields.table.flatten.Nodup) (hms : Passable ms)
    (h : fields.Told left (valuesUnder ms) b) (record : String) :
    fields.reader record (left + 1) (.object ms .closed) = .ok b := by
  obtain ⟨draft, hdraft, hfinish⟩ := h.exists_draft
  rw [reader, hdraft.putAll_eq hnodup hms]
  exact hfinish

theorem Drafts.reader_missing (hnodup : fields.table.flatten.Nodup) (hms : Passable ms) {draft : δ}
    (h : fields.Drafts left (valuesUnder ms) draft) {name : String}
    (hmissing : fields.missing? (valuesUnder ms) = some name) (record : String) :
    fields.reader record (left + 1) (.object ms .closed) = Reader.reject (.missingField name) := by
  rw [reader, h.putAll_eq hnodup hms]
  exact h.finish_missing hmissing

/-- The second member for a field is refused at its name, whatever comes behind that. -/
theorem Drafts.reader_duplicate (hnodup : fields.table.flatten.Nodup) (hms : Passable ms) {draft : δ}
    (h : fields.Drafts left (valuesUnder ms) draft) {canonical : String} {aliases : List String}
    (hfield : canonical :: aliases ∈ fields.table) {key : RawText} {name : String} (hkey : key.text? = some name)
    (hname : name ∈ canonical :: aliases) (hgiven : valuesUnder ms (canonical :: aliases) ≠ []) (d : Document)
    (more : List (RawText × Document)) (ending : Ending) (record : String) :
    fields.reader record (left + 1) (.object (ms ++ (key, d) :: more) ending) =
      Reader.reject (.duplicateField canonical) := by
  have hput := h.put?_duplicate hnodup hfield hname hgiven d
  have hputs : fields.putAll left fields.blank (ms ++ (key, d) :: more) =
      Reader.reject (.duplicateField canonical) := by
    rw [putAll_append, h.putAll_eq hnodup hms]
    exact putAll_member hkey hput more
  rw [reader, hputs]
  rfl

end Objects

/-! ### Arrays -/

/-- The items of an array as what is given at each of so many places. -/
def atPlaces (count : ℕ) (items : List Document) : List (List Document) :=
  (List.range count).map fun i => items[i]?.toList

theorem atPlaces_succ (count : ℕ) (items : List Document) :
    atPlaces (count + 1) items = items.head?.toList :: atPlaces count items.tail := by
  rw [atPlaces, List.range_succ_eq_map, List.map_cons, List.map_map, ← List.head?_eq_getElem?]
  simp only [atPlaces, Function.comp_def, List.getElem?_tail]

/-- The items are read one after the other; where they end, the fields need not be given. -/
theorem Told.ofItems_eq {fields : Fields δ β} {b : β} (h : fields.Told left given b) {items : List Document}
    (hitems : fields.table.map given = atPlaces fields.count items) (hlength : items.length ≤ fields.count)
    (record : String) (total seen : ℕ) : fields.ofItems left record total .closed seen items = .ok b := by
  induction fields generalizing items seen with
  | done =>
    obtain rfl : items = [] := List.length_eq_zero_iff.1 (Nat.le_zero.1 hlength)
    rfl
  | field f rest ih =>
    obtain ⟨a, b⟩ := b
    obtain ⟨⟨o, hgets, ha⟩, hrest⟩ := h
    rw [table, count, atPlaces_succ, List.map_cons] at hitems
    obtain ⟨hfirst, hothers⟩ := List.cons.inj hitems
    rw [hfirst] at hgets
    cases items with
    | nil =>
      cases o with
      | none =>
        have hmore := ih hrest hothers (Nat.zero_le _) (seen + 1)
        have habsent : f.absent = some a := ha
        rw [List.tail_nil] at hmore
        rw [ofItems, habsent]
        simp only [hmore]
        rfl
      | some a =>
        obtain ⟨d, hd, -⟩ := hgets
        cases hd
    | cons d items =>
      cases o with
      | none => cases hgets
      | some a' =>
        obtain ⟨e, he, hread⟩ := hgets
        obtain rfl : d = e := List.singleton_inj.1 he
        obtain rfl : a' = a := Option.some.inj ha
        have hmore := ih hrest hothers (Nat.le_of_succ_le_succ hlength) (seen + 1)
        rw [List.tail_cons] at hmore
        rw [ofItems, hread, hmore]
        rfl

end Fields

end CodeAtlas.Json
