import CodeAtlas.Json.Record
import CodeAtlas.Proofs.Json.Documents
import CodeAtlas.Proofs.Json.Nesting

/-!
# Reading what was written

* `Reads r left v a` — the reader, with `left` containers still to be opened, gets `a` out of the document
  of `v` if the value is no higher than that, and otherwise refuses it as malformed;
* `Reads.list`, `Fields.Given.reads` — how the readers of lists and records inherit this from those of
  their parts;
* `Fields.Given left fields ms b` — the members `ms`, written in the order of the fields, give the finished
  fields `b`.  Each field has its own member or is left out with a value for that case;
* `Reads.decode_eq` — what a reader makes of a value, it makes of both texts of the value.
-/

namespace CodeAtlas.Json

/-! ### Results that need containers -/

/-- The result if no more containers are needed than are left; otherwise the text is malformed. -/
def within {α : Type} (left needed : ℕ) (a : α) : Except DecodeError α :=
  if needed ≤ left then .ok a else .error (.fault .malformed)

section Within

variable {α β : Type} {left m n : ℕ} {a : α} {b : β}

theorem map_within (f : α → β) : (within left n a).map f = within left n (f a) := by
  unfold within
  split <;> rfl

/-- Of two steps, each has to stay within what is left. -/
theorem within_bind {g : α → Except DecodeError β} (h : g a = within left n b) :
    (within left m a >>= g) = within left (max m n) b := by
  by_cases hm : m ≤ left
  · have hmax : max m n ≤ left ↔ n ≤ left := by omega
    rw [within, if_pos hm, within]
    simp only [hmax]
    exact h
  · rw [within, if_neg hm, within, if_neg (by omega)]
    rfl

/-- A container takes one of those that are left. -/
theorem within_succ : within (left + 1) (n + 1) a = within left n a := by
  simp only [within, Nat.add_le_add_iff_right]

end Within

/-! ### Readers -/

/-- Reading a value gives the result if the value is no higher than the number of containers that may still
be opened, and otherwise the value is refused as malformed. -/
def Reads {α : Type} (r : Reader α) (left : ℕ) (v : Value) (a : α) : Prop :=
  r left v.document = within left v.nesting a

theorem readText_ofText (s : String) : Reader.readText (.ofText s) = .ok s := by
  rw [Reader.readText, RawText.text?_ofText]

namespace Reads

variable {α β : Type} {r : Reader α} {left : ℕ} {v : Value} {a : α}

theorem text (s : String) : Reads Reader.text left (.text s) s :=
  readText_ofText s

theorem natural {n : ℕ} (h : n < Number.bound64) : Reads Reader.natural left (Value.natural n) n := by
  show (Reader.readQuantity (.ofInt n) >>= _) = _
  rw [Reader.readQuantity, Numeral.quantity?_ofInt h]
  rfl

theorem signed {n : Int} (h : Number.fitsSigned Number.bound31 n = true) :
    Reads Reader.signed left (.number n) n := by
  simp only [Number.fitsSigned, Bool.and_eq_true, decide_eq_true_eq] at h
  show (Reader.readQuantity (.ofInt n) >>= _) = _
  have hbounds : Number.bound31 ≤ Number.bound63 ∧ Number.bound31 ≤ Number.bound64 := by decide
  obtain ⟨m, rfl | rfl⟩ := n.eq_nat_or_neg
  · rw [Reader.readQuantity, Numeral.quantity?_ofInt (by omega)]
    show (if m < Number.bound31 then _ else _) = _
    rw [if_pos (by omega)]
    rfl
  · cases m with
    | zero => rfl
    | succ m =>
      rw [Reader.readQuantity, Numeral.quantity?_ofInt_neg (by omega) (by omega)]
      show (if m + 1 ≤ Number.bound31 then _ else _) = _
      rw [if_pos (by omega)]
      rfl

theorem boolean (b : Bool) : Reads Reader.boolean left (.bool b) b := rfl

/-- A variant without a value is read by its name. -/
theorem variant {variants : List (String × α)} {name : String} (h : variants.lookup name = some a) :
    Reads (Reader.variant variants) left (.text name) a := by
  show (Reader.readText (.ofText name) >>= _) = _
  rw [readText_ofText]
  show Reader.lookUp variants name = _
  rw [Reader.lookUp, h]
  rfl

theorem map (f : α → β) (h : Reads r left v a) : Reads (r.map f) left v (f a) := by
  rw [Reads, Reader.map, h, map_within]

theorem optional (h : Reads r left v a) (hv : v ≠ .null) :
    Reads (Reader.optional r) left v (some a) := by
  have hmap : Reader.optional r left v.document = (r left v.document).map some := by
    cases v with
    | null => exact absurd rfl hv
    | _ => rfl
  rw [Reads, hmap, h, map_within]

/-- The items of an array are read one after the other; the first one that is too high ends it. -/
theorem readItems {as : List α} {write : α → Value} (h : ∀ a ∈ as, Reads r left (write a) a) :
    Reader.readItems (r left) (Value.documents (as.map write)) =
      within left (Value.itemsNesting (as.map write)) as := by
  induction as with
  | nil => rfl
  | cons a as ih =>
    have ha : Reads r left (write a) a := h a List.mem_cons_self
    have has := ih fun b hb => h b (List.mem_cons_of_mem a hb)
    rw [List.map_cons, Value.documents, Reader.readItems, ha, has, Value.itemsNesting]
    exact within_bind (map_within (a :: ·))

/-- The array takes one container, so that one less is left for its items. -/
theorem list {as : List α} {write : α → Value} (h : ∀ l < left, ∀ a ∈ as, Reads r l (write a) a) :
    Reads (Reader.list r) left (.array (as.map write)) as := by
  cases left with
  | zero => rfl
  | succ l =>
    show (Reader.readItems (r l) (Value.documents (as.map write)) >>= fun as => Except.ok as) = _
    rw [readItems (h l (Nat.lt_succ_self l)), Value.nesting, within_succ]
    exact map_within id

theorem texts (l : List String) : Reads (Reader.list Reader.text) left (Value.texts l) l :=
  list fun _ _ s _ => text s

/-- Nothing follows the value in its texts, so that the reader decides what is made of them. -/
theorem decode_eq (h : Reads r maxNesting v a) {s : String} (hs : v.Written s) :
    decode r s = within maxNesting (nestingOf s) a := by
  rw [decode, hs.parse_eq, hs.nestingOf_eq]
  show (r maxNesting v.document >>= fun a => Except.ok a) = _
  rw [h]
  exact map_within id

theorem decode_eq_ok (h : Reads r maxNesting v a) (hv : v.nesting ≤ maxNesting) {s : String}
    (hs : v.Written s) : decode r s = .ok a := by
  rw [h.decode_eq hs, hs.nestingOf_eq, within, if_pos hv]

end Reads

/-! ### Records -/

namespace Fields

variable {α δ β : Type} {left : ℕ}

/-- The names of the fields, without their other names. -/
def names {δ β : Type} : Fields δ β → List String
  | .done => []
  | .field f rest => f.name :: rest.names

/-- No field answers to the name of a later one. -/
def apart {δ β : Type} : Fields δ β → Bool
  | .done => true
  | .field f rest => rest.names.all (fun name => !f.answersTo name) && rest.apart

/-- Members that give the fields, in their order. -/
inductive Given (left : ℕ) : {δ β : Type} → Fields δ β → List (String × Value) → β → Prop where
  | done : Given left .done [] ()
  | member {α δ β : Type} {f : Field α} {rest : Fields δ β} {v : Value} {a : α}
      {ms : List (String × Value)} {b : β} (value : Reads f.reader left v a)
      (more : Given left rest ms b) : Given left (.field f rest) ((f.name, v) :: ms) (a, b)
  | omitted {α δ β : Type} {f : Field α} {rest : Fields δ β} {a : α} {ms : List (String × Value)} {b : β}
      (absent : f.absent = some a) (more : Given left rest ms b) : Given left (.field f rest) ms (a, b)

theorem putAll_cons (fields : Fields δ β) (draft : δ) (k : String) (v : Value)
    (ms : List (String × Value)) :
    fields.putAll left draft (Value.memberDocuments ((k, v) :: ms)) =
      match fields.put? left k v.document draft with
      | some result => result >>= fun d => fields.putAll left d (Value.memberDocuments ms)
      | none => Reader.orFault () v.document.skipFault? >>= fun _ =>
        fields.putAll left draft (Value.memberDocuments ms) := by
  rw [Value.memberDocuments, putAll, readText_ofText]
  rfl

/-- A member that the first field does not answer to is for one of the others, or for none. -/
theorem put?_field {f : Field α} {rest : Fields δ β} {name : String} (h : f.answersTo name = false)
    (d : Document) (given : Option α) (draft : δ) :
    (Fields.field f rest).put? left name d (given, draft) =
      (rest.put? left name d draft).map (Except.map fun d => (given, d)) := by
  show (if f.answersTo name = true then _ else _) = _
  rw [h]
  rfl

/-- Members that the first field does not answer to are for the others. -/
theorem putAll_field {f : Field α} {rest : Fields δ β} {given : Option α} {draft : δ}
    {ms : List (String × Value)} (h : ∀ m ∈ ms, f.answersTo m.1 = false) :
    (Fields.field f rest).putAll left (given, draft) (Value.memberDocuments ms) =
      (rest.putAll left draft (Value.memberDocuments ms)).map fun d => (given, d) := by
  induction ms generalizing draft with
  | nil => rfl
  | cons m ms ih =>
    obtain ⟨k, v⟩ := m
    have hk : f.answersTo k = false := h (k, v) List.mem_cons_self
    have hms : ∀ m ∈ ms, f.answersTo m.1 = false := fun m hm => h m (List.mem_cons_of_mem _ hm)
    rw [putAll_cons, putAll_cons, put?_field hk]
    cases rest.put? left k v.document draft with
    | none =>
      cases v.document.skipFault? with
      | none => exact ih hms
      | some fault => rfl
    | some result =>
      cases result with
      | error e => rfl
      | ok d => exact ih hms

/-- A field is finished with what was given, or with its value for when nothing was given. -/
theorem finish_field {f : Field α} {rest : Fields δ β} {given : Option α} {a : α}
    (h : (given <|> f.absent) = some a) (x : Except DecodeError δ) :
    ((x.map fun d => (given, d)) >>= (Fields.field f rest).finish) =
      (x >>= rest.finish).map fun b => (a, b) := by
  cases x with
  | error e => rfl
  | ok d =>
    show (Fields.field f rest).finish (given, d) = (rest.finish d).map fun b => (a, b)
    rw [finish, h]

namespace Given

variable {fields : Fields δ β} {ms : List (String × Value)} {b : β}

/-- An optional field is left out if it has no value. -/
theorem optional {f : Field (Option α)} {write : α → Value} {o : Option α} (habsent : f.absent = some none)
    (h : ∀ a ∈ o, Reads f.reader left (write a) (some a)) (more : Given left fields ms b) :
    Given left (.field f fields) (Value.member? f.name write o ++ ms) (o, b) := by
  cases o with
  | none => exact omitted habsent more
  | some a => exact member (h a rfl) more

theorem lastOptional {f : Field (Option α)} {write : α → Value} {o : Option α}
    (habsent : f.absent = some none) (h : ∀ a ∈ o, Reads f.reader left (write a) (some a)) :
    Given left (.field f .done) (Value.member? f.name write o) (o, ()) := by
  have hlast := optional habsent h .done
  rwa [List.append_nil] at hlast

/-- A list may be left out if it is empty. -/
theorem unlessEmpty {f : Field (List α)} {v : Value} {as : List α} (habsent : f.absent = some [])
    (h : Reads f.reader left v as) (more : Given left fields ms b) :
    Given left (.field f fields) ((if as.isEmpty then [] else [(f.name, v)]) ++ ms) (as, b) := by
  cases as with
  | nil => exact omitted habsent more
  | cons a as => exact member h more

/-- Every member has the name of a field. -/
theorem name_mem (h : Given left fields ms b) : ∀ m ∈ ms, m.1 ∈ fields.names := by
  induction h with
  | done => simp
  | member _ _ ih =>
    intro m hm
    rcases List.mem_cons.1 hm with rfl | hm
    · exact List.mem_cons_self
    · exact List.mem_cons_of_mem _ (ih m hm)
  | omitted _ _ ih => exact fun m hm => List.mem_cons_of_mem _ (ih m hm)

/-- The first field answers to none of the members of the others. -/
theorem answersTo_eq_false {f : Field α} (h : Given left fields ms b)
    (hapart : (Fields.field f fields).apart = true) : ∀ m ∈ ms, f.answersTo m.1 = false := by
  intro m hm
  rw [apart, Bool.and_eq_true, List.all_eq_true] at hapart
  simpa using hapart.1 m.1 (h.name_mem m hm)

/-- Taking in the members one after the other gives the fields. -/
theorem putAll_finish (h : Given left fields ms b) (hapart : fields.apart = true) :
    (fields.putAll left fields.blank (Value.memberDocuments ms) >>= fields.finish) =
      within left (Value.membersNesting ms) b := by
  induction h with
  | done => rfl
  | @member α δ β f rest v a ms b hv hms ih =>
    have hother := hms.answersTo_eq_false hapart
    rw [apart, Bool.and_eq_true] at hapart
    have hput : (Fields.field f rest).put? left f.name v.document (none, rest.blank) =
        some ((f.reader left v.document).map fun a => (some a, rest.blank)) := by
      rw [put?, if_pos (by simp [Field.answersTo])]
    rw [blank, putAll_cons, hput, hv, map_within, bind_assoc, Value.membersNesting]
    apply within_bind
    rw [putAll_field hother, finish_field rfl, ih hapart.2, map_within]
  | @omitted α δ β f rest a ms b habsent hms ih =>
    have hother := hms.answersTo_eq_false hapart
    have hgiven : (none <|> f.absent) = some a := habsent
    rw [apart, Bool.and_eq_true] at hapart
    rw [blank, putAll_field hother, finish_field hgiven, ih hapart.2, map_within]

/-- The object takes one container, so that one less is left for its members. -/
theorem reads (name : String) (h : ∀ l < left, Given l fields ms b) (hapart : fields.apart = true) :
    Reads (fields.reader name) left (.object ms) b := by
  cases left with
  | zero => rfl
  | succ l =>
    show (fields.putAll l fields.blank (Value.memberDocuments ms) >>= fields.finish) = _
    rw [putAll_finish (h l (Nat.lt_succ_self l)) hapart, Value.nesting, within_succ]

end Given

end Fields

end CodeAtlas.Json
