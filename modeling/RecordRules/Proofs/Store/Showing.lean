/-
Stores that show what was written.

A store shows the records that were last written to it, each at its place, with its times and with
an object as its data.  The data may read a little differently from what was written, so what is
shown is a view of the written records: the records themselves for a store that keeps them, what
their texts read as for a store that keeps rows.
-/
import RecordRules.Proofs.Assoc
import RecordRules.Proofs.Basic
import RecordRules.Proofs.Json.Float
import RecordRules.Proofs.Store.Interchange
import RecordRules.Proofs.Store.Written

namespace RecordRules

/-! ## Records in the order of their age -/

namespace Record

theorem before_iff {a b : Record} :
    a.before b = true ↔ Older (a.createdAt, a.id.text) (b.createdAt, b.id.text) := by
  simp [before, Older]

theorem before_trans {a b c : Record} (hab : a.before b = true) (hbc : b.before c = true) :
    a.before c = true :=
  before_iff.mpr ((before_iff.mp hab).trans (before_iff.mp hbc))

theorem not_before_of_before {a b : Record} (h : a.before b = true) : b.before a = false :=
  Bool.eq_false_iff.mpr fun h' => (before_iff.mp h).asymm (before_iff.mp h')

theorem before_total {a b : Record} (h : a.id ≠ b.id) :
    a.before b = true ∨ b.before a = true := by
  rw [before_iff, before_iff]
  exact older_total fun htext => h (Ident.ext_text htext)

/-- A field is written only to an object, which it leaves one. -/
theorem isObject_mutate {r : Record} {name : String} {m : Mutation} {now : Int} {w : FieldWrite}
    (h : r.mutate name m now = .ok w) : w.record.data.isObject = true := by
  have hobject : r.data.isObject = true := (of_guard_ok h).1
  rcases mutate_cases h with ⟨_, hrecord⟩ | ⟨_, hrecord⟩
  · rwa [hrecord]
  · rw [hrecord]
    exact (Json.isObject_set _ _ _).trans hobject

end Record

/-! ## What is written to a store -/

namespace MemoryStore

/-- What holds of the records that calls have written: no place holds two, the list is in order of
age, and all data are objects. -/
structure InShape (m : MemoryStore) : Prop where
  keyed : m.Keyed
  ordered : m.records.Pairwise fun a b => b.before a = false
  objects : ∀ r ∈ m.records, r.data.isObject = true

theorem inShape_empty : empty.InShape := ⟨keyed_empty, .nil, nofun⟩

namespace InShape

variable {m : MemoryStore}

theorem insert (h : m.InShape) {r : Record} (hnew : m.find? r.module r.id = none)
    (hr : r.data.isObject = true) : InShape ⟨insertBefore Record.before r m.records⟩ where
  keyed := h.keyed.insert hnew
  ordered :=
    pairwise_not_after_insertBefore Record.before_trans Record.not_before_of_before h.ordered
  objects r' hr' := by
    rcases mem_insertBefore.mp hr' with rfl | hr'
    · exact hr
    · exact h.objects r' hr'

theorem filter (h : m.InShape) (keep : Record → Bool) : InShape ⟨m.records.filter keep⟩ where
  keyed := h.keyed.filter keep
  ordered := h.ordered.filter keep
  objects r hr := h.objects r (List.mem_filter.mp hr).1

/-- A record that is rewritten keeps its place in the order. -/
theorem replace (h : m.InShape) {old new : Record} (hold : m.find? new.module new.id = some old)
    (hcreated : new.createdAt = old.createdAt) (hnew : new.data.isObject = true) :
    (m.replace new).InShape where
  keyed := h.keyed.replace new
  ordered := by
    -- The order looks at nothing but what a rewritten record keeps.
    have hage :
        ∀ r ∈ m.records, ∀ r', r' = (if r.module = new.module ∧ r.id = new.id then new else r) →
          r'.createdAt = r.createdAt ∧ r'.id = r.id := by
      rintro r hr _ rfl
      split
      · next hplace =>
        have hfound := h.keyed.find?_of_mem hr
        rw [hplace.1, hplace.2, hold] at hfound
        cases hfound
        exact ⟨hcreated, hplace.2.symm⟩
      · exact ⟨rfl, rfl⟩
    refine List.pairwise_map.mpr (h.ordered.imp_of_mem fun {a b} ha hb hab => ?_)
    obtain ⟨hcreatedA, hidA⟩ := hage a ha _ rfl
    obtain ⟨hcreatedB, hidB⟩ := hage b hb _ rfl
    unfold Record.before at hab ⊢
    rw [hcreatedA, hidA, hcreatedB, hidB]
    exact hab
  objects r hr := by
    obtain ⟨r', hr', rfl⟩ := List.mem_map.mp hr
    split
    · exact hnew
    · exact h.objects r' hr'

/-- The records of a module are listed from the oldest on. -/
theorem list_ordered (h : m.InShape) (module : ModuleId) :
    (m.list module).Pairwise fun a b => a.before b = true := by
  have hplaces : (m.list module).Pairwise fun a b => a.place ≠ b.place :=
    (List.pairwise_map.mp h.keyed).filter _
  refine (hplaces.and (h.ordered.filter _)).imp_of_mem fun {a b} ha hb hab => ?_
  have hmoduleA := of_decide_eq_true (List.mem_filter.mp ha).2
  have hmoduleB := of_decide_eq_true (List.mem_filter.mp hb).2
  have hid : a.id ≠ b.id := fun hid => hab.1 (Prod.ext (hmoduleA.trans hmoduleB.symm) hid)
  rcases Record.before_total hid with hbefore | hafter
  · exact hbefore
  · rw [hab.2] at hafter
    cases hafter

end InShape
end MemoryStore

/-! ## Stores that show what was written -/

/-- A store that shows the records that were last written to it, as long as it can be read. -/
class ShowingStore (σ : Type) [RecordStore σ] where
  Shows : σ → MemoryStore → Prop
  /-- All that is stored can be read. -/
  Readable : σ → Prop
  /-- A record that was written, as it is read. -/
  view : Record → Record
  view_keeps (r : Record) :
    (view r).place = r.place ∧ (view r).createdAt = r.createdAt ∧ (view r).updatedAt = r.updatedAt
  isObject_view {s : σ} {m : MemoryStore} {r : Record} :
    Shows s m → Readable s → r ∈ m.records → (view r).data.isObject = r.data.isObject
  get_eq {s : σ} {m : MemoryStore} (h : Shows s m) (hread : Readable s) (module : ModuleId)
    (id : RecordId) : RecordStore.get s module id = .ok ((m.find? module id).map view)
  list_eq {s : σ} {m : MemoryStore} (h : Shows s m) (hread : Readable s) (module : ModuleId) :
    RecordStore.list s module = .ok ((m.list module).map view)
  count_eq {s : σ} {m : MemoryStore} (h : Shows s m) (module : ModuleId) :
    RecordStore.count s module = (m.list module).length
  insert_ok {s t : σ} {m : MemoryStore} {r : Record} :
    Shows s m → RecordStore.insert s r = .ok t →
      m.find? r.module r.id = none ∧ r.data.isObject = true ∧
        Shows t ⟨insertBefore Record.before r m.records⟩
  replaceData_ok {s t : σ} {m : MemoryStore} {module : ModuleId} {id : RecordId} {data : Json}
      {now : Int} {new : Record} :
    Shows s m → m.Keyed → RecordStore.replaceData s module id data now = .ok (new, t) →
      data.isObject = true ∧ Shows t (m.replace new)
  mutateField_ok {s t : σ} {m : MemoryStore} {module : ModuleId} {id : RecordId} {field : String}
      {change : Mutation} {now : Int} {w : FieldWrite} :
    Shows s m → m.Keyed → RecordStore.mutateField s module id field change now = .ok (w, t) →
      w.changed = true → Shows t (m.replace w.record)
  delete_ok {s : σ} {m : MemoryStore} {module : ModuleId} {id : RecordId} {found : Option Record} :
    Shows s m → RecordStore.get s module id = .ok found →
      ∃ t, RecordStore.delete s module id = .ok (found, t) ∧ Shows t (m.delete module id).2
  purge_ok {s : σ} {m : MemoryStore} (h : Shows s m) (module : ModuleId) :
    Shows (RecordStore.purge s module).2 (m.purge module).2

namespace MemoryStore

instance : ShowingStore MemoryStore where
  Shows s m := s = m
  Readable _ := True
  view r := r
  view_keeps _ := ⟨rfl, rfl, rfl⟩
  isObject_view _ _ _ := rfl
  get_eq h _ module id := by
    subst h
    exact congrArg Except.ok Option.map_id'.symm
  list_eq h _ module := by
    subst h
    exact congrArg Except.ok (List.map_id' _).symm
  count_eq h module := by
    subst h
    rfl
  insert_ok h hinsert := by
    subst h
    obtain ⟨hnone, rfl⟩ := MemoryStore.insert_ok hinsert
    exact ⟨hnone, (of_guard_ok hinsert).1, rfl⟩
  replaceData_ok h _ hreplace := by
    subst h
    obtain ⟨r, hr, rfl, rfl⟩ := MemoryStore.replaceData_ok hreplace
    exact ⟨(of_guard_ok hreplace).1, rfl⟩
  mutateField_ok h _ hmutate hchanged := by
    subst h
    obtain ⟨r, hr, hw, rfl⟩ := MemoryStore.mutateField_ok hmutate
    exact if_pos hchanged
  delete_ok h hfound := by
    subst h
    cases hfound
    exact ⟨_, rfl, rfl⟩
  purge_ok h module := congrArg (fun m => (m.purge module).2) h

end MemoryStore

/-! ## Rows that are not too deep -/

/-- The rows hold texts of data that lie no deeper than they are read. -/
def TableStore.Shallow (t : TableStore) : Prop :=
  ∀ row ∈ t.rows, ∃ v : Json, row.data = v.text ∧ v.nesting ≤ Json.maxNesting

/-- The record as it is read from its row. -/
def Record.reread (r : Record) : Record :=
  { r with data := (Json.parse? r.data.text).getD .null }

namespace TableStore

variable {t : TableStore} {m : MemoryStore}

theorem Mirrors.toRecord (h : t.Mirrors m) (hshallow : t.Shallow) {r : Record}
    (hr : r ∈ m.records) :
    (Row.ofRecord r).toRecord = .ok r.reread ∧ r.reread.data.isObject = r.data.isObject := by
  have hrow : Row.ofRecord r ∈ t.rows := h ▸ List.mem_map_of_mem hr
  obtain ⟨v, htext, hnesting⟩ := hshallow _ hrow
  obtain ⟨w, hw⟩ := Json.exists_parse?_text hnesting
  rw [← htext] at hw
  have hreread : r.reread = { r with data := w } := by
    unfold Record.reread
    rw [show Json.parse? r.data.text = some w from hw]
    rfl
  rw [hreread]
  exact ⟨Row.toRecord_of_isOf (Row.isOf_iff.mpr ⟨rfl, rfl⟩) hw, Json.isObject_of_parse?_text hw⟩

instance : ShowingStore TableStore where
  Shows := Mirrors
  Readable := Shallow
  view := Record.reread
  view_keeps _ := ⟨rfl, rfl, rfl⟩
  isObject_view h hread hr := (h.toRecord hread hr).2
  get_eq h hread := h.get_map fun _ hr => (h.toRecord hread hr).1
  list_eq h hread := h.list_map fun _ hr => (h.toRecord hread hr).1
  count_eq h module := h.count module
  insert_ok {t t' m r} h hinsert := by
    obtain ⟨hnone, rfl⟩ := TableStore.insert_ok hinsert
    rw [h.row?, Option.map_eq_none_iff] at hnone
    exact ⟨hnone, (of_guard_ok hinsert).1, h.insert r⟩
  replaceData_ok h hkeyed hreplace := by
    obtain ⟨old, hold, rfl, rfl⟩ := TableStore.replaceData_ok hreplace
    exact ⟨(of_guard_ok hreplace).1, h.replace_of_get hkeyed hold rfl rfl rfl⟩
  mutateField_ok h hkeyed hmutate hchanged := by
    obtain ⟨old, hold, hw, rfl⟩ := TableStore.mutateField_ok hmutate
    obtain ⟨hid, hmodule, hcreated, _⟩ := Record.mutate_keeps hw
    rw [if_pos hchanged]
    exact h.replace_of_get hkeyed hold hmodule hid hcreated
  delete_ok {t m module id found} h hfound := by
    show ∃ t', t.delete module id = _ ∧ _
    unfold TableStore.delete
    rw [show t.get module id = .ok found from hfound]
    cases found with
    | some r => exact ⟨_, rfl, h.delete module id⟩
    | none =>
      have hnone := (h.get_eq_none_iff module id).mp hfound
      have hsame := LawfulRecordStore.eq_of_delete_none
        ((MemoryStore.delete_eq m module id).trans (by rw [hnone]))
      refine ⟨t, rfl, ?_⟩
      rw [hsame]
      exact h
  purge_ok h module := h.purge module

end TableStore

namespace ShowingStore

variable {σ : Type} [RecordStore σ] [ShowingStore σ] {s : σ} {m : MemoryStore} {module : ModuleId}
  {id : RecordId}

theorem before_view (a b : Record) : (view σ a).before (view σ b) = a.before b := by
  obtain ⟨hplaceA, hcreatedA, _⟩ := view_keeps (σ := σ) a
  obtain ⟨hplaceB, hcreatedB, _⟩ := view_keeps (σ := σ) b
  unfold Record.before
  rw [hcreatedA, hcreatedB, show (view σ a).id = a.id from (Prod.mk.inj hplaceA).2,
    show (view σ b).id = b.id from (Prod.mk.inj hplaceB).2]

theorem place_view {r : Record} (h : m.find? module id = some r) :
    (view σ r).place = (module, id) := by
  obtain ⟨hmodule, hid⟩ := MemoryStore.key_of_find? h
  exact (view_keeps r).1.trans (Prod.ext hmodule hid)

/-- What is read at a place was written there. -/
theorem exists_of_get (h : Shows s m) (hread : Readable s) {r : Record}
    (hr : RecordStore.get s module id = .ok (some r)) :
    ∃ old, m.find? module id = some old ∧ r = view σ old := by
  rw [get_eq h hread] at hr
  obtain ⟨old, hold, rfl⟩ := Option.map_eq_some_iff.mp (Except.ok.inj hr)
  exact ⟨old, hold, rfl⟩

end ShowingStore

end RecordRules
