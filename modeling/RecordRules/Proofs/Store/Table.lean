/-
The laws of the store that holds rows of text.

The text of a row is read on every access, so a record reads back as it was written only if the
text of its data does.
-/
import RecordRules.Proofs.Store.Laws
import RecordRules.Store.Table

namespace RecordRules

/-! ## Rows -/

namespace Row

theorem isOf_iff {module : ModuleId} {id : RecordId} {row : Row} :
    row.isOf module id = true ↔ row.module = module.text ∧ row.id = id.text := by
  simp [isOf]

theorem toRecord_ok {row : Row} {r : Record} (h : row.toRecord = .ok r) :
    row.id = r.id.text ∧ row.module = r.module.text ∧ Json.parse? row.data = some r.data ∧
      row.createdAt = r.createdAt ∧ row.updatedAt = r.updatedAt := by
  unfold toRecord at h
  split at h
  · next id module data hid hmodule hdata =>
    cases h
    exact ⟨(Ident.text_of_ofString? hid).symm, (Ident.text_of_ofString? hmodule).symm, hdata,
      rfl, rfl⟩
  all_goals cases h

theorem toRecord_of_isOf {row : Row} {module : ModuleId} {id : RecordId} {data : Json}
    (hrow : row.isOf module id = true) (hdata : Json.parse? row.data = some data) :
    row.toRecord = .ok ⟨id, module, data, row.createdAt, row.updatedAt⟩ := by
  obtain ⟨hmodule, hid⟩ := isOf_iff.mp hrow
  unfold toRecord
  rw [hmodule, hid, Ident.ofString?_text, Ident.ofString?_text, hdata]

end Row

namespace TableStore

/-! ## Finding a row after a change -/

theorem row?_isOf {s : TableStore} {module : ModuleId} {id : RecordId} {row : Row}
    (h : s.row? module id = some row) : row.isOf module id = true :=
  List.find?_some h

theorem row?_replace_self {s : TableStore} {new : Record} {row : Row}
    (h : s.row? new.module new.id = some row) :
    (s.replace new).row? new.module new.id =
      some { row with data := new.data.text, updatedAt := new.updatedAt } := by
  have hrow := row?_isOf h
  unfold row? at h
  unfold row? replace
  -- Neither column that a row is looked for by is written.
  have hlook : (Row.isOf new.module new.id ∘ fun row : Row =>
      if row.isOf new.module new.id then
        { row with data := new.data.text, updatedAt := new.updatedAt }
      else row) = Row.isOf new.module new.id := by
    funext row
    rw [Function.comp_apply]
    split
    · next hof => rw [hof]; exact hof
    · rfl
  rw [List.find?_map, hlook, h, Option.map_some, if_pos hrow]

theorem isOf_of_ne {module other : ModuleId} {id otherId : RecordId} {row : Row}
    (h : (other, otherId) ≠ (module, id)) (hrow : row.isOf other otherId = true) :
    row.isOf module id = false := by
  rw [Bool.eq_false_iff]
  intro hof
  obtain ⟨hmodule, hid⟩ := Row.isOf_iff.mp hof
  obtain ⟨hother, hotherId⟩ := Row.isOf_iff.mp hrow
  refine h (Prod.ext (Ident.ext_text ?_) (Ident.ext_text ?_))
  · exact hother.symm.trans hmodule
  · exact hotherId.symm.trans hid

theorem row?_replace_of_ne {s : TableStore} {other : ModuleId} {otherId : RecordId} {new : Record}
    (h : (other, otherId) ≠ (new.module, new.id)) :
    (s.replace new).row? other otherId = s.row? other otherId := by
  unfold row? replace
  dsimp only
  induction s.rows with
  | nil => rfl
  | cons row rest ih =>
    rw [List.map_cons, List.find?_cons, List.find?_cons, ih]
    by_cases hrow : row.isOf new.module new.id = true
    · have hother : row.isOf other otherId = false := by
        rw [Bool.eq_false_iff]
        intro hof
        rw [isOf_of_ne h hof] at hrow
        cases hrow
      have hrewritten : Row.isOf other otherId
          { row with data := new.data.text, updatedAt := new.updatedAt } = false := hother
      rw [if_pos hrow, hother, hrewritten]
    · rw [if_neg hrow]

theorem row?_delete_self (s : TableStore) (module : ModuleId) (id : RecordId) :
    (TableStore.mk (s.rows.filter fun row => !row.isOf module id)).row? module id = none := by
  unfold row?
  rw [List.find?_filter, List.find?_eq_none]
  intro row _
  simp

theorem row?_delete_of_ne (s : TableStore) {module other : ModuleId} {id otherId : RecordId}
    (h : (other, otherId) ≠ (module, id)) :
    (TableStore.mk (s.rows.filter fun row => !row.isOf module id)).row? other otherId =
      s.row? other otherId := by
  unfold row?
  rw [List.find?_filter]
  congr 1
  funext row
  by_cases hrow : row.isOf other otherId = true
  · simp [hrow, isOf_of_ne h hrow]
  · simp [hrow]

/-! ## Reading and writing -/

theorem get_of_row? {s : TableStore} {module : ModuleId} {id : RecordId} {row : Row}
    (h : s.row? module id = some row) :
    RecordStore.get s module id = row.toRecord.map some := by
  show s.get module id = _
  unfold TableStore.get
  rw [h]

theorem get_of_row?_none {s : TableStore} {module : ModuleId} {id : RecordId}
    (h : s.row? module id = none) : RecordStore.get s module id = .ok none := by
  show s.get module id = _
  unfold TableStore.get
  rw [h]

theorem row?_of_get {s : TableStore} {module : ModuleId} {id : RecordId} {r : Record}
    (h : RecordStore.get s module id = .ok (some r)) :
    ∃ row, s.row? module id = some row ∧ row.toRecord = .ok r := by
  cases hrow : s.row? module id with
  | none =>
    rw [get_of_row?_none hrow] at h
    cases h
  | some row =>
    rw [get_of_row? hrow] at h
    refine ⟨row, rfl, ?_⟩
    cases hread : row.toRecord with
    | error e =>
      rw [hread] at h
      cases h
    | ok r' =>
      rw [hread] at h
      cases h
      rfl

theorem get_congr {s s' : TableStore} {module : ModuleId} {id : RecordId}
    (h : s'.row? module id = s.row? module id) :
    RecordStore.get s' module id = RecordStore.get s module id := by
  show s'.get module id = s.get module id
  unfold TableStore.get
  rw [h]

theorem key_of_get {s : TableStore} {module : ModuleId} {id : RecordId} {r : Record}
    (h : RecordStore.get s module id = .ok (some r)) : r.module = module ∧ r.id = id := by
  obtain ⟨row, hrow, hread⟩ := row?_of_get h
  obtain ⟨hid, hmodule, _⟩ := Row.toRecord_ok hread
  obtain ⟨hmodule', hid'⟩ := Row.isOf_iff.mp (row?_isOf hrow)
  exact ⟨Ident.ext_text (hmodule.symm.trans hmodule'), Ident.ext_text (hid.symm.trans hid')⟩

/-- A field write that goes through changes the record it reads, and the store if the record does
change. -/
theorem mutateField_ok {s s' : TableStore} {module : ModuleId} {id : RecordId} {field : String}
    {m : Mutation} {now : Int} {w : FieldWrite}
    (h : RecordStore.mutateField s module id field m now = .ok (w, s')) :
    ∃ r, RecordStore.get s module id = .ok (some r) ∧ r.mutate field m now = .ok w ∧
      s' = if w.changed then s.replace w.record else s := by
  change s.mutateField module id field m now = _ at h
  unfold TableStore.mutateField TableStore.load at h
  show ∃ r, s.get module id = .ok (some r) ∧ _
  cases hget : s.get module id with
  | error e =>
    rw [hget] at h
    cases h
  | ok found =>
    rw [hget] at h
    cases found with
    | none => cases h
    | some r =>
      refine ⟨r, rfl, ?_⟩
      cases hw : r.mutate field m now with
      | error e =>
        simp only [bind, Except.bind, pure, Except.pure, hw] at h
        cases h
      | ok write =>
        simp only [bind, Except.bind, pure, Except.pure, hw] at h
        cases h
        exact ⟨rfl, rfl⟩

theorem row?_mutateField {s s' : TableStore} {module : ModuleId} {id : RecordId} {field : String}
    {m : Mutation} {now : Int} {w : FieldWrite}
    (h : RecordStore.mutateField s module id field m now = .ok (w, s')) (hc : w.changed = true) :
    ∃ row, s'.row? module id = some row ∧ row.data = w.record.data.text ∧
      row.createdAt = w.record.createdAt ∧ row.updatedAt = w.record.updatedAt := by
  obtain ⟨r, hr, hw, rfl⟩ := mutateField_ok h
  obtain ⟨hid, hmodule, hcreated, _⟩ := Record.mutate_keeps hw
  have hkey := key_of_get hr
  obtain ⟨row, hrow, hread⟩ := row?_of_get hr
  have hfound : s.row? w.record.module w.record.id = some row := by
    rw [hid, hmodule, hkey.1, hkey.2]
    exact hrow
  have hnew := row?_replace_self hfound
  rw [hid, hmodule, hkey.1, hkey.2] at hnew
  rw [if_pos hc]
  refine ⟨_, hnew, rfl, ?_, rfl⟩
  rw [hcreated]
  exact (Row.toRecord_ok hread).2.2.2.1

/-- What is read of a record that a field write changed: the text of the data that it left, at the
times that it left. -/
theorem of_get_changed {s s' : TableStore} {module : ModuleId} {id : RecordId} {field : String}
    {m : Mutation} {now : Int} {w : FieldWrite} {r : Record}
    (h : RecordStore.mutateField s module id field m now = .ok (w, s')) (hc : w.changed = true)
    (hr : RecordStore.get s' module id = .ok (some r)) :
    Json.parse? w.record.data.text = some r.data ∧ r.createdAt = w.record.createdAt ∧
      r.updatedAt = w.record.updatedAt := by
  obtain ⟨row, hrow, htext, hcreated, hupdated⟩ := row?_mutateField h hc
  obtain ⟨row', hrow', hread⟩ := row?_of_get hr
  cases hrow.symm.trans hrow'
  obtain ⟨_, _, hparse, hcreated', hupdated'⟩ := Row.toRecord_ok hread
  rw [htext] at hparse
  exact ⟨hparse, hcreated'.symm.trans hcreated, hupdated'.symm.trans hupdated⟩

theorem get_of_unchanged {s s' : TableStore} {module : ModuleId} {id : RecordId} {field : String}
    {m : Mutation} {now : Int} {w : FieldWrite}
    (h : RecordStore.mutateField s module id field m now = .ok (w, s')) (hc : ¬w.changed = true) :
    RecordStore.get s' module id = .ok (some w.record) := by
  obtain ⟨r, hr, hw, rfl⟩ := mutateField_ok h
  rw [if_neg hc]
  rcases Record.mutate_cases hw with ⟨_, hrec⟩ | ⟨hc', _⟩
  · rw [hrec]
    exact hr
  · exact absurd hc' hc

/-- The record that is read after a field write, if the text of its data reads. -/
theorem get_mutateField {s s' : TableStore} {module : ModuleId} {id : RecordId} {field : String}
    {m : Mutation} {now : Int} {w : FieldWrite} {data : Json}
    (h : RecordStore.mutateField s module id field m now = .ok (w, s')) (hc : w.changed = true)
    (hdata : Json.parse? w.record.data.text = some data) :
    RecordStore.get s' module id = .ok (some { w.record with data }) := by
  obtain ⟨r, hr, hw, _⟩ := mutateField_ok h
  have hkeep := Record.mutate_keeps hw
  have hkey := key_of_get hr
  obtain ⟨row, hrow, htext, hcreated, hupdated⟩ := row?_mutateField h hc
  rw [get_of_row? hrow, Row.toRecord_of_isOf (row?_isOf hrow) (by rw [htext]; exact hdata)]
  rw [hcreated, hupdated, ← hkey.1, ← hkey.2, ← hkeep.1, ← hkeep.2.1]
  rfl

/-- Data read back if their text reads as the same data. -/
theorem readsBack {data : Json} (hdata : Json.parse? data.text = some data) :
    RecordStore.ReadsBack TableStore data := by
  intro s s' module id field m now w h hd
  by_cases hc : w.changed = true
  · subst hd
    exact get_mutateField h hc hdata
  · exact get_of_unchanged h hc

/-! ## Replacing data -/

/-- A row is put in only where there is none. -/
theorem insert_ok {t t' : TableStore} {r : Record} (h : RecordStore.insert t r = .ok t') :
    t.row? r.module r.id = none ∧ t' = ⟨insertBefore Row.before (Row.ofRecord r) t.rows⟩ := by
  change t.insert r = _ at h
  unfold TableStore.insert insertRow? at h
  split at h
  · cases h
  · by_cases htaken : (t.rows.any fun row => row.module == (Row.ofRecord r).module &&
        row.id == (Row.ofRecord r).id) = true
    · rw [if_pos htaken] at h
      cases h
    · rw [if_neg htaken] at h
      cases h
      refine ⟨?_, rfl⟩
      rw [List.any_eq_true] at htaken
      exact List.find?_eq_none.mpr fun row hrow hof => htaken ⟨row, hrow, hof⟩

theorem replaceData_ok {t t' : TableStore} {module : ModuleId} {id : RecordId} {data : Json}
    {now : Int} {r : Record} (h : RecordStore.replaceData t module id data now = .ok (r, t')) :
    ∃ old, RecordStore.get t module id = .ok (some old) ∧ r = old.withData data now ∧
      t' = t.replace r := by
  change t.replaceData module id data now = _ at h
  unfold TableStore.replaceData TableStore.load at h
  show ∃ old, t.get module id = .ok (some old) ∧ _
  split at h
  · cases h
  · cases hget : t.get module id with
    | error e =>
      rw [hget] at h
      cases h
    | ok found =>
      rw [hget] at h
      cases found with
      | none => cases h
      | some old =>
        cases h
        exact ⟨old, rfl, rfl, rfl⟩

/-! ## Deleting -/

/-- A deletion gives back the record that it reads. -/
theorem delete_ok {s s' : TableStore} {module : ModuleId} {id : RecordId} {found : Option Record}
    (h : RecordStore.delete s module id = .ok (found, s')) :
    RecordStore.get s module id = .ok found ∧
      s' = match found with
        | none => s
        | some _ => ⟨s.rows.filter fun row => !row.isOf module id⟩ := by
  change s.delete module id = _ at h
  unfold TableStore.delete at h
  show s.get module id = .ok found ∧ _
  cases hget : s.get module id with
  | error e =>
    rw [hget] at h
    cases h
  | ok r? =>
    rw [hget] at h
    cases r? with
    | none => cases h; exact ⟨rfl, rfl⟩
    | some r => cases h; exact ⟨rfl, rfl⟩

/-! ## The laws -/

/-- The place of a row, if its identifiers read. -/
def place? (row : Row) : Option (ModuleId × RecordId) := do
  return (← Ident.ofString? row.module, ← Ident.ofString? row.id)

theorem exists_of_holds {s : TableStore} {module : ModuleId} {id : RecordId}
    (h : RecordStore.get s module id ≠ .ok none) :
    ∃ row ∈ s.rows, row.isOf module id = true := by
  cases hrow : s.row? module id with
  | none => exact absurd (get_of_row?_none hrow) h
  | some row => exact ⟨row, List.mem_of_find?_eq_some hrow, row?_isOf hrow⟩

theorem place?_of_isOf {row : Row} {module : ModuleId} {id : RecordId}
    (h : row.isOf module id = true) : place? row = some (module, id) := by
  obtain ⟨hmodule, hid⟩ := Row.isOf_iff.mp h
  unfold place?
  rw [hmodule, hid, Ident.ofString?_text, Ident.ofString?_text]
  rfl

instance : LawfulRecordStore TableStore where
  key_of_get := key_of_get
  mutate_of_mutateField h := by
    obtain ⟨r, hr, hw, _⟩ := mutateField_ok h
    exact ⟨r, hr, hw⟩
  eq_of_unchanged h hc := by
    obtain ⟨_, _, _, rfl⟩ := mutateField_ok h
    simp [hc]
  times_of_mutateField {s s' module id field m now w r} h hr := by
    by_cases hc : w.changed = true
    · exact (of_get_changed h hc hr).2
    · rw [get_of_unchanged h hc] at hr
      cases hr
      exact ⟨rfl, rfl⟩
  get_mutateField_ne_none {s s' module id field m now w} h := by
    by_cases hc : w.changed = true
    · obtain ⟨row, hrow, _⟩ := row?_mutateField h hc
      rw [get_of_row? hrow]
      cases row.toRecord with
      | error e => exact nofun
      | ok r => exact nofun
    · rw [get_of_unchanged h hc]
      simp
  get_mutateField_of_ne h hne := by
    obtain ⟨r, hr, hw, rfl⟩ := mutateField_ok h
    have hkeep := Record.mutate_keeps hw
    have hkey := key_of_get hr
    split
    · refine get_congr (row?_replace_of_ne ?_)
      rw [hkeep.1, hkeep.2.1, hkey.1, hkey.2]
      exact hne
    · rfl
  get_of_delete h := (delete_ok h).1
  eq_of_delete_none h := (delete_ok h).2
  get_delete_self {s s' module id found} h := by
    obtain ⟨hget, hs⟩ := delete_ok h
    cases found with
    | none =>
      rw [hs]
      exact hget
    | some r =>
      rw [hs]
      exact get_of_row?_none (row?_delete_self s module id)
  get_delete_of_ne {s s' module other id otherId found} h hne := by
    obtain ⟨_, hs⟩ := delete_ok h
    cases found with
    | none => rw [hs]
    | some r =>
      rw [hs]
      exact get_congr (row?_delete_of_ne s hne)
  finite_held s := by
    refine (finite_and_ncard_le_of_mem (s.rows.filterMap place?) ?_).1
    rintro ⟨module, id⟩ hk
    obtain ⟨row, hrow, hof⟩ := exists_of_holds hk
    exact List.mem_filterMap.mpr ⟨row, hrow, place?_of_isOf hof⟩
  held_le_count s module := by
    have hids : ∀ id ∈ {id | RecordStore.get s module id ≠ .ok none},
        id ∈ (s.rowsOf module).filterMap fun row => Ident.ofString? row.id := by
      intro id hk
      obtain ⟨row, hrow, hof⟩ := exists_of_holds hk
      obtain ⟨hmodule, hid⟩ := Row.isOf_iff.mp hof
      refine List.mem_filterMap.mpr ⟨row, List.mem_filter.mpr ⟨hrow, by simpa using hmodule⟩, ?_⟩
      rw [hid]
      exact Ident.ofString?_text id
    exact (finite_and_ncard_le_of_mem _ hids).2.trans (List.length_filterMap_le _ _)

instance : LawfulReplacement TableStore where
  withData_of_replaceData h := by
    obtain ⟨r, hr, hnew, _⟩ := replaceData_ok h
    exact ⟨r, hr, hnew⟩

end TableStore
end RecordRules
