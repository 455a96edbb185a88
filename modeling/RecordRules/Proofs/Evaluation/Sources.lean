/-
The two ways to read a source.

A source that names a subfield leads through an array of the record, and what it gives are the
elements of that array with the subfield of each.  But the operand of a rule and the key of its
binding are read on the record and one element at a time.  The second reading finds in an element
what the first gave for it, so a rule does to the target of an element what that element asks for.
-/
import RecordRules.Evaluation.Evaluator
import RecordRules.Proofs.Basic

namespace RecordRules

/-! ## The array that a subfield leads to -/

/-- A field declares a subfield, and no field before it does. -/
structure Field.DeclaresFirst (f : Field) (fields : List Field) (subfield : String) : Prop where
  declares : (f.subfield? subfield).isSome = true
  first : ∃ before after, fields = before ++ f :: after ∧
    ∀ g ∈ before, g.subfield? subfield = none

namespace Field

variable {fields : List Field} {subfield : String}

theorem declaresFirst_iff {f : Field} : f.DeclaresFirst fields subfield ↔
    fields.find? (fun g => (g.subfield? subfield).isSome) = some f := by
  simp only [List.find?_eq_some_iff_append, Bool.not_eq_true', Option.isSome_eq_false_iff,
    Option.isNone_iff_eq_none]
  exact ⟨fun h => ⟨h.declares, h.first⟩, fun h => ⟨h.1, h.2⟩⟩

theorem find?_subfield_eq_none_iff :
    fields.find? (fun g => (g.subfield? subfield).isSome) = none ↔
      ∀ f ∈ fields, f.subfield? subfield = none := by
  simp only [List.find?_eq_none, Option.isSome_iff_ne_none, Decidable.not_not]

theorem declaresFirst_or (fields : List Field) (subfield : String) :
    (∃ f : Field, f.DeclaresFirst fields subfield) ∨ ∀ f ∈ fields, f.subfield? subfield = none := by
  cases h : fields.find? fun g => (g.subfield? subfield).isSome with
  | some f => exact Or.inl ⟨f, declaresFirst_iff.mpr h⟩
  | none => exact Or.inr (find?_subfield_eq_none_iff.mp h)

end Field

namespace Record

/-- The elements in a field: those of its array, and none where null or nothing is. -/
inductive HoldsElements (r : Record) (name : String) : List Json → Prop where
  | absent (absent : r.get? name = none) : HoldsElements r name []
  | null (null : r.get? name = some .null) : HoldsElements r name []
  | array {elements : List Json} (array : r.get? name = some (.array elements)) :
      HoldsElements r name elements

/-- A field holds a value that is neither null nor an array. -/
def HoldsOther (r : Record) (name : String) : Prop :=
  ∃ v, r.get? name = some v ∧ v ≠ .null ∧ ∀ elements, v ≠ .array elements

theorem holdsElements_or_holdsOther (r : Record) (name : String) :
    (∃ elements, r.HoldsElements name elements) ∨ r.HoldsOther name := by
  cases h : r.get? name with
  | none => exact Or.inl ⟨[], .absent h⟩
  | some v =>
    cases v with
    | null => exact Or.inl ⟨[], .null h⟩
    | array elements => exact Or.inl ⟨elements, .array h⟩
    | _ => exact Or.inr ⟨_, h, nofun, nofun⟩

variable {r : Record} {fields : List Field} {subfield name : String} {f : Field}

theorem items_of_holdsElements {elements : List Json} (hf : f.DeclaresFirst fields subfield)
    (h : r.HoldsElements f.name elements) :
    r.items subfield fields = .ok (f.name, itemsOf subfield 0 elements) := by
  unfold items
  rw [Field.declaresFirst_iff.mp hf]
  cases h with
  | absent h | null h =>
    simp only [h]
    rfl
  | array h => simp only [h]

theorem items_of_holdsOther (hf : f.DeclaresFirst fields subfield) (h : r.HoldsOther f.name) :
    r.items subfield fields = .error (.notAnArray f.name) := by
  obtain ⟨v, hv, hnull, harray⟩ := h
  unfold items
  rw [Field.declaresFirst_iff.mp hf]
  simp only [hv]

theorem items_of_undeclared (h : ∀ f ∈ fields, f.subfield? subfield = none) :
    r.items subfield fields = .error (.noArrayField subfield) := by
  unfold items
  rw [Field.find?_subfield_eq_none_iff.mpr h]

theorem items_cases (r : Record) (subfield : String) (fields : List Field) :
    (∃ (f : Field) (elements : List Json), f.DeclaresFirst fields subfield ∧
        r.HoldsElements f.name elements ∧
        r.items subfield fields = .ok (f.name, itemsOf subfield 0 elements)) ∨
      (∃ f : Field, f.DeclaresFirst fields subfield ∧ r.HoldsOther f.name ∧
        r.items subfield fields = .error (.notAnArray f.name)) ∨
      (∀ f ∈ fields, f.subfield? subfield = none) ∧
        r.items subfield fields = .error (.noArrayField subfield) := by
  rcases Field.declaresFirst_or fields subfield with ⟨f, hf⟩ | hnone
  · rcases r.holdsElements_or_holdsOther f.name with ⟨elements, helements⟩ | hother
    · exact Or.inl ⟨f, elements, hf, helements, items_of_holdsElements hf helements⟩
    · exact Or.inr (Or.inl ⟨f, hf, hother, items_of_holdsOther hf hother⟩)
  · exact Or.inr (Or.inr ⟨hnone, items_of_undeclared hnone⟩)

/-- A subfield leads through the array of the first field that declares it. -/
theorem items_ok_iff {items : List Item} : r.items subfield fields = .ok (name, items) ↔
    ∃ (f : Field) (elements : List Json), f.DeclaresFirst fields subfield ∧ f.name = name ∧
      r.HoldsElements name elements ∧ items = itemsOf subfield 0 elements := by
  constructor
  · intro h
    rcases r.items_cases subfield fields with
      ⟨f, elements, hf, helements, heq⟩ | ⟨f, _, _, heq⟩ | ⟨_, heq⟩
    · cases h.symm.trans heq
      exact ⟨f, elements, hf, rfl, helements, rfl⟩
    · cases h.symm.trans heq
    · cases h.symm.trans heq
  · rintro ⟨f, elements, hf, rfl, helements, rfl⟩
    exact items_of_holdsElements hf helements

/-- It leads nowhere if no field declares it, or if something else than an array is there. -/
theorem items_error_iff {e : AddressError} : r.items subfield fields = .error e ↔
    (e = .noArrayField subfield ∧ ∀ f ∈ fields, f.subfield? subfield = none) ∨
      ∃ f : Field, e = .notAnArray f.name ∧ f.DeclaresFirst fields subfield ∧
        r.HoldsOther f.name := by
  constructor
  · intro h
    rcases r.items_cases subfield fields with
      ⟨f, elements, _, _, heq⟩ | ⟨f, hf, hother, heq⟩ | ⟨hnone, heq⟩
    · cases h.symm.trans heq
    · cases h.symm.trans heq
      exact Or.inr ⟨f, rfl, hf, hother⟩
    · cases h.symm.trans heq
      exact Or.inl ⟨rfl, hnone⟩
  · rintro (⟨rfl, hnone⟩ | ⟨f, rfl, hf, hother⟩)
    · exact items_of_undeclared hnone
    · exact items_of_holdsOther hf hother

/-! ## The elements one by one -/

theorem itemsOf_eq_mapIdx (subfield : String) (start : Nat) (elements : List Json) :
    itemsOf subfield start elements =
      elements.mapIdx fun i e => ⟨start + i, e, e.get? subfield⟩ := by
  induction elements generalizing start with
  | nil => rfl
  | cons e rest ih =>
    rw [itemsOf, ih, List.mapIdx_cons]
    congr 2
    funext i e
    rw [Nat.add_assoc, Nat.add_comm 1 i]

theorem length_itemsOf (subfield : String) (start : Nat) (elements : List Json) :
    (itemsOf subfield start elements).length = elements.length := by
  rw [itemsOf_eq_mapIdx, List.length_mapIdx]

theorem getElem?_itemsOf (subfield : String) (start : Nat) (elements : List Json) (i : Nat) :
    (itemsOf subfield start elements)[i]? =
      elements[i]?.map fun e => ⟨start + i, e, e.get? subfield⟩ := by
  rw [itemsOf_eq_mapIdx, List.getElem?_mapIdx]

theorem of_getElem?_itemsOf {start i : Nat} {elements : List Json} {item : Item}
    (h : (itemsOf subfield start elements)[i]? = some item) :
    item.index = start + i ∧ elements[i]? = some item.element ∧
      item.value = r.readFrom? (some item.element) (.item subfield) := by
  rw [getElem?_itemsOf, Option.map_eq_some_iff] at h
  obtain ⟨e, he, rfl⟩ := h
  exact ⟨rfl, he, rfl⟩

theorem map_index_itemsOf (subfield : String) (start : Nat) (elements : List Json) :
    (itemsOf subfield start elements).map Item.index = List.range' start elements.length := by
  induction elements generalizing start with
  | nil => rfl
  | cons e rest ih =>
    rw [List.length_cons, List.range'_succ, ← ih (start + 1)]
    rfl

theorem indices_items {items : List Item} (h : r.items subfield fields = .ok (name, items)) :
    items.map Item.index = List.range items.length := by
  obtain ⟨_, elements, _, _, _, rfl⟩ := items_ok_iff.mp h
  rw [map_index_itemsOf, length_itemsOf, List.range_eq_range']

theorem resolve_item_error_iff {e : AddressError} :
    r.resolve fields (.item subfield) = .error e ↔ r.items subfield fields = .error e := by
  refine ⟨map_error, fun h => ?_⟩
  rw [resolve, h]
  rfl

end Record

/-! ## The two readings -/

/-- The two ways to read a source agree.  If it leads through an array, that of the first field that
declares the subfield, then there is an item for each element, in order, with what is read in the
element.  If it gives one value, that is read at any element and without one.  And it fails only if
no field declares the subfield, or if the field that does holds something else than an array. -/
theorem sources_read_alike (r : Record) (fields : List Field) (source : Source) :
    (∀ name items, r.resolve fields source = .ok (.items name items) →
      ∃ (subfield : String) (f : Field) (elements : List Json), source = .item subfield ∧
        f.DeclaresFirst fields subfield ∧ f.name = name ∧ r.HoldsElements name elements ∧
        items.length = elements.length ∧
        ∀ (i : Nat) (item : Item), items[i]? = some item →
          item.index = i ∧ elements[i]? = some item.element ∧
            item.value = r.readFrom? (some item.element) source) ∧
    (∀ value, r.resolve fields source = .ok (.single value) →
      ∀ element, value = r.readFrom? element source) ∧
    ∀ e, r.resolve fields source = .error e ↔
      ∃ subfield, source = .item subfield ∧
        ((e = .noArrayField subfield ∧ ∀ f ∈ fields, f.subfield? subfield = none) ∨
          ∃ f : Field, e = .notAnArray f.name ∧ f.DeclaresFirst fields subfield ∧
            r.HoldsOther f.name) := by
  cases source with
  | field name =>
    refine ⟨nofun, ?_, fun e => ⟨nofun, ?_⟩⟩
    · rintro value ⟨⟩ element
      rfl
    · rintro ⟨_, ⟨⟩, _⟩
  | item subfield =>
    refine ⟨fun name items h => ?_, fun value h => ?_, fun e => ?_⟩
    · obtain ⟨⟨_, _⟩, hitems, heq⟩ := map_ok h
      cases heq
      obtain ⟨f, elements, hf, rfl, helements, rfl⟩ := Record.items_ok_iff.mp hitems
      refine ⟨subfield, f, elements, rfl, hf, rfl, helements, Record.length_itemsOf .., ?_⟩
      intro i item hi
      obtain ⟨hindex, helement, hvalue⟩ := Record.of_getElem?_itemsOf hi
      exact ⟨hindex.trans (Nat.zero_add i), helement, hvalue⟩
    · obtain ⟨_, _, h⟩ := map_ok h
      cases h
    · rw [Record.resolve_item_error_iff, Record.items_error_iff]
      constructor
      · exact fun h => ⟨subfield, rfl, h⟩
      · rintro ⟨_, ⟨⟩, h⟩
        exact h

namespace Sample

def bills : ModuleId := ⟨"bills", by decide +kernel⟩

def notes : Field :=
  { id := ⟨"billNotes", by decide +kernel⟩, name := "notes", module := bills
    dataType := ⟨"billNote", by decide +kernel⟩, isLabel := false, subfields := none
    createdAt := 0, updatedAt := 0 }

/-- The entries of a bill, each of which may have an amount. -/
def entries : Field :=
  { notes with
    id := ⟨"billEntries", by decide +kernel⟩, name := "entries"
    subfields := some [.ofName "amount" notes.dataType] }

def entry : Json := .object [("amount", .ofInt 3)]

/-- A bill with an entry that is no object. -/
def bill : Record :=
  ⟨⟨"bill", by decide +kernel⟩, bills, .object [("entries", .array [entry, .string "free"])], 0, 0⟩

end Sample

/-- The amount of the first entry is read either way, and a text has none.  The bill is read for its
own identifier at any of the entries, and no field declares a price. -/
theorem sources_read_alike_on_sample :
    (∃ first second : Item, Sample.bill.resolve [Sample.notes, Sample.entries] (.item "amount") =
        .ok (.items "entries" [first, second]) ∧
      first.value = Sample.bill.readFrom? (some Sample.entry) (.item "amount") ∧
      second.value = Sample.bill.readFrom? (some (.string "free")) (.item "amount")) ∧
    some (Json.string "bill") = Sample.bill.readFrom? (some Sample.entry) (.field "id") ∧
    Sample.bill.resolve [Sample.notes, Sample.entries] (.item "price") =
      .error (.noArrayField "price") := by
  obtain ⟨hitems, _, _⟩ :=
    sources_read_alike Sample.bill [Sample.notes, Sample.entries] (.item "amount")
  obtain ⟨_, hsingle, _⟩ :=
    sources_read_alike Sample.bill [Sample.notes, Sample.entries] (.field "id")
  obtain ⟨_, _, herror⟩ :=
    sources_read_alike Sample.bill [Sample.notes, Sample.entries] (.item "price")
  obtain ⟨_, _, _, _, _, _, _, _, halike⟩ := hitems "entries" _ rfl
  refine ⟨⟨_, _, rfl, (halike 0 _ rfl).2.2, (halike 1 _ rfl).2.2⟩, hsingle _ rfl _, ?_⟩
  exact (herror _).mpr ⟨"price", rfl, Or.inl ⟨rfl, by decide +kernel⟩⟩

/-! ## The applications of a rule -/

theorem parseSource_some {text : Option String} {s : Source} (h : parseSource text = .ok (some s)) :
    ∃ t, text = some t ∧ Source.parse t = .ok s := by
  unfold parseSource at h
  split at h
  · cases h
  · next t =>
    split at h
    · next hparse =>
      cases h
      exact ⟨t, rfl, hparse⟩
    · cases h

theorem parseSource_of_parse {t : String} {s : Source} (h : Source.parse t = .ok s) :
    parseSource (some t) = .ok (some s) := by
  rw [parseSource, h]

theorem fanOut?_none_eq_some_iff {key : Option Source} {subfield : String} :
    fanOut? none key = some subfield ↔ key = some (.item subfield) := by
  cases key with
  | none => exact ⟨nofun, nofun⟩
  | some key =>
    cases key with
    | field name => exact ⟨nofun, nofun⟩
    | item name => simp [fanOut?]

namespace Scope

variable {c : Scope} {source : Option Source} {applications : List Application}

theorem applications_of_whole {key : Option Source}
    (hsource : parseSource c.rule.source = .ok source)
    (hkey : parseSource c.binding.keySource? = .ok key)
    (hfan : fanOut? source key = none) :
    c.applications =
      .ok (source, [⟨none, c.rule.operand c.trigger.record source none⟩]) := by
  unfold Scope.applications
  rw [hsource, hkey]
  simp only [bind, Except.bind, hfan]
  rfl

theorem applications_of_items {key : Option Source} {subfield name : String} {items : List Item}
    (hsource : parseSource c.rule.source = .ok source)
    (hkey : parseSource c.binding.keySource? = .ok key) (hfan : fanOut? source key = some subfield)
    (hitems : c.trigger.record.items subfield c.fields = .ok (name, items)) :
    c.applications = .ok (source, items.map fun item =>
      ⟨some item, c.rule.operand c.trigger.record source (some item.element)⟩) := by
  unfold Scope.applications
  rw [hsource, hkey]
  simp only [bind, Except.bind, hfan, hitems]
  rfl

/-- A rule is applied once, or to each element of the array that it goes through. -/
theorem applications_cases (h : c.applications = .ok (source, applications)) :
    ∃ key, parseSource c.rule.source = .ok source ∧
      parseSource c.binding.keySource? = .ok key ∧
      ((fanOut? source key = none ∧
          applications = [⟨none, c.rule.operand c.trigger.record source none⟩]) ∨
        ∃ subfield name items, fanOut? source key = some subfield ∧
          c.trigger.record.items subfield c.fields = .ok (name, items) ∧
          applications = items.map fun item =>
            ⟨some item, c.rule.operand c.trigger.record source (some item.element)⟩) := by
  unfold Scope.applications at h
  obtain ⟨source', hsource, h⟩ := bind_ok h
  obtain ⟨key, hkey, h⟩ := bind_ok h
  split at h
  · next hfan =>
    cases h
    exact ⟨key, hsource, hkey, Or.inl ⟨hfan, rfl⟩⟩
  · next subfield hfan =>
    split at h
    · cases h
    · next name items hitems =>
      cases h
      exact ⟨key, hsource, hkey, Or.inr ⟨subfield, name, items, hfan, hitems, rfl⟩⟩

/-- A rule has no applications if a source does not read or there is no array to go through. -/
theorem applications_error {miss : Miss} (h : c.applications = .error miss) :
    parseSource c.rule.source = .error miss ∨ parseSource c.binding.keySource? = .error miss ∨
      ∃ subfield e, c.trigger.record.items subfield c.fields = .error e ∧
        miss = .fail (.address e) := by
  unfold Scope.applications at h
  rcases bind_error h with h | ⟨source, _, h⟩
  · exact Or.inl h
  · rcases bind_error h with h | ⟨key, _, h⟩
    · exact Or.inr (Or.inl h)
    · split at h
      · cases h
      · next subfield _ =>
        split at h
        · next e hitems =>
          cases h
          exact Or.inr (Or.inr ⟨subfield, e, hitems, rfl⟩)
        · cases h

end Scope

end RecordRules
