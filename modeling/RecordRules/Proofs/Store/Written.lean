/-
What was written to a store of rows.

A store of rows gives no error when it writes, so it is compared here with the records as they were
handed to it: `TableStore.Written t m` says that `m` holds the records that were last written to
`t`.  The rows then hold the texts of these records, whatever the store read in between, and a row
reads as the record that was written exactly if the data of that record survive.
-/
import RecordRules.Proofs.Json.RoundTrip
import RecordRules.Proofs.Store.Mirror

namespace RecordRules

namespace Row

theorem toRecord_ofRecord_iff {r : Record} :
    (ofRecord r).toRecord = .ok r ↔ r.data.IsNormal ∧ r.data.Survives := by
  rw [← Json.parse?_text_eq_some_iff]
  exact ⟨fun h => (toRecord_ok h).2.2.1, toRecord_ofRecord⟩

/-- A row that holds a record is not refused for its identifiers. -/
theorem toRecord_ofRecord_cases (r : Record) :
    (∃ r', (ofRecord r).toRecord = .ok r') ∨ (ofRecord r).toRecord = .error .unreadable := by
  cases hdata : Json.parse? (ofRecord r).data with
  | some data => exact Or.inl ⟨_, toRecord_of_isOf (isOf_iff.mpr ⟨rfl, rfl⟩) hdata⟩
  | none =>
    refine Or.inr ?_
    unfold toRecord
    rw [hdata, show (ofRecord r).id = r.id.text from rfl,
      show (ofRecord r).module = r.module.text from rfl, Ident.ofString?_text, Ident.ofString?_text]

theorem toRecord_of_too_deep {r : Record} (h : Json.maxNesting < r.data.nesting) :
    (ofRecord r).toRecord = .error .unreadable := by
  rcases toRecord_ofRecord_cases r with ⟨r', hr'⟩ | herror
  · have hparse := (toRecord_ok hr').2.2.1
    have hnesting := Json.nesting_le_of_parse? hparse
    omega
  · exact herror

theorem mapM_toRecord_of_unreadable {rs : List Record} {r : Record} (hr : r ∈ rs)
    (h : (ofRecord r).toRecord = .error .unreadable) :
    (rs.map ofRecord).mapM toRecord = .error .unreadable := by
  induction rs with
  | nil => cases hr
  | cons first rest ih =>
    rw [List.map_cons, List.mapM_cons]
    rcases toRecord_ofRecord_cases first with ⟨r', hfirst⟩ | hfirst
    · rcases List.mem_cons.mp hr with rfl | hr
      · rw [h] at hfirst
        cases hfirst
      · rw [hfirst, ih hr]
        rfl
    · rw [hfirst]
      rfl

end Row

namespace TableStore

/-- The records that were last written to a store which was empty at first. -/
inductive Written : TableStore → MemoryStore → Prop where
  | empty : Written .empty .empty
  | insert {t t' : TableStore} {m : MemoryStore} {r : Record} (before : Written t m)
      (insert : RecordStore.insert t r = .ok t') :
      Written t' ⟨insertBefore Record.before r m.records⟩
  | replaceData {t t' : TableStore} {m : MemoryStore} {module : ModuleId} {id : RecordId}
      {data : Json} {now : Int} {r : Record} (before : Written t m)
      (replace : RecordStore.replaceData t module id data now = .ok (r, t')) :
      Written t' (m.replace r)
  | mutateField {t t' : TableStore} {m : MemoryStore} {module : ModuleId} {id : RecordId}
      {field : String} {change : Mutation} {now : Int} {w : FieldWrite} (before : Written t m)
      (mutate : RecordStore.mutateField t module id field change now = .ok (w, t'))
      (changed : w.changed = true) : Written t' (m.replace w.record)
  | delete {t t' : TableStore} {m : MemoryStore} {module : ModuleId} {id : RecordId} {r : Record}
      (before : Written t m) (delete : RecordStore.delete t module id = .ok (some r, t')) :
      Written t' (m.delete module id).2
  | purge {t : TableStore} {m : MemoryStore} (module : ModuleId) (before : Written t m) :
      Written (RecordStore.purge t module).2 (RecordStore.purge m module).2

/-! ## The rows hold the texts of what was written -/

/-- A record that is loaded was written at its place, at the time that its row tells. -/
theorem Mirrors.find?_of_get {t : TableStore} {m : MemoryStore} (h : t.Mirrors m)
    {module : ModuleId} {id : RecordId} {r : Record}
    (hr : RecordStore.get t module id = .ok (some r)) :
    ∃ written, m.find? module id = some written ∧ r.createdAt = written.createdAt := by
  obtain ⟨row, hrow, hread⟩ := row?_of_get hr
  rw [h.row?, Option.map_eq_some_iff] at hrow
  obtain ⟨written, hwritten, rfl⟩ := hrow
  exact ⟨written, hwritten, (Row.toRecord_ok hread).2.2.2.1.symm⟩

/-- A record that was read is written over the one that it was read from. -/
theorem Mirrors.replace_of_get {t : TableStore} {m : MemoryStore} (h : t.Mirrors m) (hm : m.Keyed)
    {module : ModuleId} {id : RecordId} {old new : Record}
    (hold : RecordStore.get t module id = .ok (some old)) (hmodule : new.module = old.module)
    (hid : new.id = old.id) (hcreated : new.createdAt = old.createdAt) :
    (t.replace new).Mirrors (m.replace new) := by
  obtain ⟨written, hwritten, hwhen⟩ := h.find?_of_get hold
  obtain ⟨rfl, rfl⟩ := key_of_get hold
  refine h.replace hm (r := written) ?_ (hcreated.trans hwhen)
  rw [hmodule, hid]
  exact hwritten

theorem Written.mirrors {t : TableStore} {m : MemoryStore} (h : Written t m) :
    t.Mirrors m ∧ m.Keyed := by
  induction h with
  | empty => exact ⟨rfl, MemoryStore.keyed_empty⟩
  | @insert t t' m r _ hinsert ih =>
    obtain ⟨hmirrors, hkeyed⟩ := ih
    obtain ⟨hnone, rfl⟩ := insert_ok hinsert
    rw [hmirrors.row?, Option.map_eq_none_iff] at hnone
    exact ⟨hmirrors.insert r, hkeyed.insert hnone⟩
  | replaceData _ hreplace ih =>
    obtain ⟨hmirrors, hkeyed⟩ := ih
    obtain ⟨old, hold, rfl, rfl⟩ := replaceData_ok hreplace
    exact ⟨hmirrors.replace_of_get hkeyed hold rfl rfl rfl, hkeyed.replace _⟩
  | mutateField _ hmutate hchanged ih =>
    obtain ⟨hmirrors, hkeyed⟩ := ih
    obtain ⟨old, hold, hw, rfl⟩ := mutateField_ok hmutate
    obtain ⟨hid, hmodule, hcreated, _⟩ := Record.mutate_keeps hw
    rw [if_pos hchanged]
    exact ⟨hmirrors.replace_of_get hkeyed hold hmodule hid hcreated, hkeyed.replace _⟩
  | @delete t t' m module id r _ hdelete ih =>
    obtain ⟨hmirrors, hkeyed⟩ := ih
    rw [(delete_ok hdelete).2]
    exact ⟨hmirrors.delete module id, hkeyed.filter _⟩
  | purge module _ ih =>
    obtain ⟨hmirrors, hkeyed⟩ := ih
    exact ⟨hmirrors.purge module, hkeyed.filter _⟩

/-! ## Reading what was written -/

section

variable {t : TableStore} {m : MemoryStore}

/-- There is a row exactly where a record was written and not deleted. -/
theorem Mirrors.get_eq_none_iff (h : t.Mirrors m) (module : ModuleId) (id : RecordId) :
    RecordStore.get t module id = .ok none ↔ m.find? module id = none := by
  cases hrow : t.row? module id with
  | none =>
    rw [get_of_row?_none hrow]
    rw [h.row?, Option.map_eq_none_iff] at hrow
    exact ⟨fun _ => hrow, fun _ => rfl⟩
  | some row =>
    have hsome : m.find? module id ≠ none := by
      intro hnone
      rw [h.row?, hnone] at hrow
      cases hrow
    rw [get_of_row? hrow]
    refine ⟨fun hget => ?_, fun hnone => absurd hnone hsome⟩
    cases hread : row.toRecord with
    | error e =>
      rw [hread] at hget
      cases hget
    | ok r =>
      rw [hread] at hget
      cases hget

theorem Written.get_eq_none_iff (h : Written t m) (module : ModuleId) (id : RecordId) :
    RecordStore.get t module id = .ok none ↔ m.find? module id = none :=
  h.mirrors.1.get_eq_none_iff module id

theorem Written.get_of_mem (h : Written t m) {r : Record} (hr : r ∈ m.records) :
    RecordStore.get t r.module r.id = (Row.ofRecord r).toRecord.map some := by
  obtain ⟨hmirrors, hkeyed⟩ := h.mirrors
  refine get_of_row? ?_
  rw [hmirrors.row?, hkeyed.find?_of_mem hr]
  rfl

/-- A record reads as it was last written exactly if its data are in normal form and survive. -/
theorem Written.get_eq_iff (h : Written t m) {r : Record} (hr : r ∈ m.records) :
    RecordStore.get t r.module r.id = .ok (some r) ↔ r.data.IsNormal ∧ r.data.Survives := by
  rw [h.get_of_mem hr, ← Row.toRecord_ofRecord_iff]
  cases (Row.ofRecord r).toRecord with
  | error e => exact ⟨nofun, nofun⟩
  | ok r' => simp [Except.map]

/-- The records of a module are listed as they were last written exactly if each of them reads. -/
theorem Written.list_eq_iff (h : Written t m) {module : ModuleId} :
    RecordStore.list t module = .ok (m.list module) ↔
      ∀ r ∈ m.list module, r.data.IsNormal ∧ r.data.Survives := by
  show (t.rowsOf module).mapM Row.toRecord = _ ↔ _
  rw [h.mirrors.1.rowsOf, Row.mapM_toRecord_iff]
  exact forall₂_congr fun r _ => Row.toRecord_ofRecord_iff

/-- A row whose data lie too deep is written and not read again, and neither is its module. -/
theorem Written.get_of_too_deep (h : Written t m) {r : Record} (hr : r ∈ m.records)
    (hdeep : Json.maxNesting < r.data.nesting) :
    RecordStore.get t r.module r.id = .error .unreadable := by
  rw [h.get_of_mem hr, Row.toRecord_of_too_deep hdeep]
  rfl

theorem Written.list_of_too_deep (h : Written t m) {r : Record} (hr : r ∈ m.records)
    (hdeep : Json.maxNesting < r.data.nesting) :
    RecordStore.list t r.module = .error .unreadable := by
  have hmem : r ∈ m.list r.module := List.mem_filter.mpr ⟨hr, decide_eq_true rfl⟩
  show (t.rowsOf r.module).mapM Row.toRecord = _
  rw [h.mirrors.1.rowsOf]
  exact Row.mapM_toRecord_of_unreadable hmem (Row.toRecord_of_too_deep hdeep)

end

end TableStore
end RecordRules
