/-
Rows that hold records.

A store of rows mirrors a store of records if its rows hold these records in their order, each with
the text of its data.  Every change that is made to both alike keeps it so, because a row is found
by the place of its record and no place holds two.
-/
import RecordRules.Proofs.Store.Memory
import RecordRules.Proofs.Store.Table

namespace RecordRules

/-! ## Rows of records -/

namespace Row

/-- The text of the data of a record reads as the data. -/
theorem toRecord_ofRecord {r : Record} (h : Json.parse? r.data.text = some r.data) :
    (ofRecord r).toRecord = .ok r :=
  toRecord_of_isOf (isOf_iff.mpr ⟨rfl, rfl⟩) h

theorem isOf_ofRecord (module : ModuleId) (id : RecordId) (r : Record) :
    (ofRecord r).isOf module id = decide (r.module = module ∧ r.id = id) := by
  rw [Bool.eq_iff_iff, isOf_iff, decide_eq_true_iff]
  constructor
  · rintro ⟨hmodule, hid⟩
    exact ⟨Ident.ext_text hmodule, Ident.ext_text hid⟩
  · rintro ⟨rfl, rfl⟩
    exact ⟨rfl, rfl⟩

theorem before_ofRecord (a b : Record) : (ofRecord a).before (ofRecord b) = a.before b := rfl

theorem insertBefore_ofRecord (r : Record) (rs : List Record) :
    insertBefore before (ofRecord r) (rs.map ofRecord) =
      (insertBefore Record.before r rs).map ofRecord := by
  induction rs with
  | nil => rfl
  | cons first rest ih =>
    rw [List.map_cons, insertBefore, insertBefore, before_ofRecord, ih]
    by_cases h : r.before first = true
    · rw [if_pos h, if_pos h]
      rfl
    · rw [if_neg h, if_neg h]
      rfl

theorem mapM_toRecord_map {f : Record → Record} {rs : List Record}
    (h : ∀ r ∈ rs, (ofRecord r).toRecord = .ok (f r)) :
    (rs.map ofRecord).mapM toRecord = .ok (rs.map f) := by
  induction rs with
  | nil => rfl
  | cons r rest ih =>
    obtain ⟨hr, hrest⟩ := List.forall_mem_cons.mp h
    rw [List.map_cons, List.mapM_cons, hr, ih hrest]
    rfl

/-- Rows are read as the records that they hold exactly if each of them is. -/
theorem mapM_toRecord_iff {rs : List Record} :
    (rs.map ofRecord).mapM toRecord = .ok rs ↔ ∀ r ∈ rs, (ofRecord r).toRecord = .ok r := by
  induction rs with
  | nil => exact ⟨fun _ => nofun, fun _ => rfl⟩
  | cons r rest ih =>
    rw [List.map_cons, List.mapM_cons, List.forall_mem_cons, ← ih]
    cases (ofRecord r).toRecord with
    | error e => exact ⟨nofun, nofun⟩
    | ok r' =>
      cases (rest.map ofRecord).mapM toRecord with
      | error e => exact ⟨nofun, nofun⟩
      | ok rest' => simp [bind, Except.bind, pure, Except.pure]

end Row

/-! ## Places -/

/-- Where a record stands. -/
def Record.place (r : Record) : ModuleId × RecordId := (r.module, r.id)

theorem insertBefore_perm {α : Type} (before : α → α → Bool) (x : α) (l : List α) :
    (insertBefore before x l).Perm (x :: l) := by
  induction l with
  | nil => exact .refl _
  | cons y rest ih =>
    unfold insertBefore
    split
    · exact .refl _
    · exact (ih.cons y).trans (.swap x y rest)

namespace MemoryStore

/-- No place holds two records. -/
def Keyed (m : MemoryStore) : Prop := (m.records.map Record.place).Nodup

theorem keyed_empty : empty.Keyed := List.nodup_nil

theorem find?_eq_none_iff {m : MemoryStore} {module : ModuleId} {id : RecordId} :
    m.find? module id = none ↔ (module, id) ∉ m.records.map Record.place := by
  unfold find?
  rw [List.find?_eq_none, List.mem_map]
  simp only [decide_eq_true_eq, Record.place, Prod.mk.injEq]
  constructor
  · rintro h ⟨r, hr, hplace⟩
    exact h r hr hplace
  · exact fun h r hr hplace => h ⟨r, hr, hplace⟩

theorem mem_of_find? {m : MemoryStore} {module : ModuleId} {id : RecordId} {r : Record}
    (h : m.find? module id = some r) : r ∈ m.records := List.mem_of_find?_eq_some h

namespace Keyed

variable {m : MemoryStore}

theorem find?_of_mem (h : m.Keyed) {r : Record} (hr : r ∈ m.records) :
    m.find? r.module r.id = some r := by
  cases hfound : m.find? r.module r.id with
  | none => exact absurd (List.mem_map_of_mem hr) (find?_eq_none_iff.mp hfound)
  | some r' =>
    obtain ⟨hmodule, hid⟩ := key_of_find? hfound
    have hplace : r'.place = r.place := Prod.ext hmodule hid
    rw [List.inj_on_of_nodup_map h (mem_of_find? hfound) hr hplace]

theorem insert (h : m.Keyed) {r : Record} (hnew : m.find? r.module r.id = none) :
    Keyed ⟨insertBefore Record.before r m.records⟩ := by
  have hperm := (insertBefore_perm Record.before r m.records).map Record.place
  exact hperm.nodup_iff.mpr (List.nodup_cons.mpr ⟨find?_eq_none_iff.mp hnew, h⟩)

theorem replace (h : m.Keyed) (new : Record) : (m.replace new).Keyed := by
  have hplaces : (m.replace new).records.map Record.place = m.records.map Record.place := by
    show (m.records.map _).map _ = _
    rw [List.map_map]
    refine List.map_congr_left fun r _ => ?_
    by_cases hplace : r.module = new.module ∧ r.id = new.id
    · rw [Function.comp_apply, if_pos hplace]
      exact Prod.ext hplace.1.symm hplace.2.symm
    · rw [Function.comp_apply, if_neg hplace]
  unfold Keyed
  rw [hplaces]
  exact h

theorem filter (h : m.Keyed) (keep : Record → Bool) : Keyed ⟨m.records.filter keep⟩ :=
  List.Nodup.sublist (List.filter_sublist.map _) h

end Keyed
end MemoryStore

/-! ## Stores that hold the same records -/

/-- The rows hold the records of the other store, each with the text of its data. -/
def TableStore.Mirrors (t : TableStore) (m : MemoryStore) : Prop :=
  t.rows = m.records.map Row.ofRecord

namespace TableStore.Mirrors

variable {t : TableStore} {m : MemoryStore}

theorem row? (h : t.Mirrors m) (module : ModuleId) (id : RecordId) :
    t.row? module id = (m.find? module id).map Row.ofRecord := by
  unfold TableStore.row? MemoryStore.find?
  rw [h, List.find?_map]
  congr 2
  funext r
  exact Row.isOf_ofRecord module id r

theorem filter (h : t.Mirrors m) {keep : Row → Bool} {keep' : Record → Bool}
    (hkeep : ∀ r, keep (Row.ofRecord r) = keep' r) :
    Mirrors ⟨t.rows.filter keep⟩ ⟨m.records.filter keep'⟩ := by
  unfold Mirrors
  rw [h, List.filter_map]
  have hsame : keep ∘ Row.ofRecord = keep' := funext hkeep
  rw [hsame]

theorem rowsOf (h : t.Mirrors m) (module : ModuleId) :
    t.rowsOf module = (m.list module).map Row.ofRecord := by
  refine h.filter fun r => ?_
  rw [Bool.eq_iff_iff, beq_iff_eq, decide_eq_true_iff]
  exact ⟨Ident.ext_text, congrArg Ident.text⟩

theorem get_map (h : t.Mirrors m) {f : Record → Record}
    (hread : ∀ r ∈ m.records, (Row.ofRecord r).toRecord = .ok (f r)) (module : ModuleId)
    (id : RecordId) : RecordStore.get t module id = .ok ((m.find? module id).map f) := by
  cases hfound : m.find? module id with
  | none => exact get_of_row?_none (by rw [h.row?, hfound]; rfl)
  | some r =>
    have hrow : t.row? module id = some (Row.ofRecord r) := by
      rw [h.row?, hfound]
      rfl
    rw [get_of_row? hrow, hread r (MemoryStore.mem_of_find? hfound)]
    rfl

theorem list_map (h : t.Mirrors m) {f : Record → Record}
    (hread : ∀ r ∈ m.records, (Row.ofRecord r).toRecord = .ok (f r)) (module : ModuleId) :
    RecordStore.list t module = .ok ((m.list module).map f) := by
  show (t.rowsOf module).mapM Row.toRecord = _
  rw [h.rowsOf]
  exact Row.mapM_toRecord_map fun r hr => hread r (List.mem_filter.mp hr).1

theorem insert (h : t.Mirrors m) (r : Record) :
    Mirrors ⟨insertBefore Row.before (Row.ofRecord r) t.rows⟩
      ⟨insertBefore Record.before r m.records⟩ := by
  unfold Mirrors
  rw [h, Row.insertBefore_ofRecord]

/-- Only the data and the time of the last change of a row are written, and these are all in which
the new record differs from the old one. -/
theorem replace (h : t.Mirrors m) (hm : m.Keyed) {r new : Record}
    (hr : m.find? new.module new.id = some r) (hcreated : new.createdAt = r.createdAt) :
    (t.replace new).Mirrors (m.replace new) := by
  unfold Mirrors TableStore.replace MemoryStore.replace
  rw [h, List.map_map, List.map_map]
  refine List.map_congr_left fun r' hr' => ?_
  rw [Function.comp_apply, Function.comp_apply, Row.isOf_ofRecord]
  by_cases hplace : r'.module = new.module ∧ r'.id = new.id
  · have hfound := hm.find?_of_mem hr'
    rw [hplace.1, hplace.2, hr] at hfound
    cases hfound
    rw [decide_eq_true hplace, if_pos rfl, if_pos hplace]
    unfold Row.ofRecord
    rw [hplace.1, hplace.2, hcreated]
  · rw [decide_eq_false hplace, if_neg Bool.false_ne_true, if_neg hplace]

theorem delete (h : t.Mirrors m) (module : ModuleId) (id : RecordId) :
    Mirrors ⟨t.rows.filter fun row => !row.isOf module id⟩ (m.delete module id).2 := by
  refine h.filter fun r => ?_
  rw [Row.isOf_ofRecord, ← decide_not]

theorem purge (h : t.Mirrors m) (module : ModuleId) :
    (RecordStore.purge t module).2.Mirrors (RecordStore.purge m module).2 := by
  refine h.filter fun r => ?_
  rw [Bool.eq_iff_iff, bne_iff_ne, decide_eq_true_iff]
  exact ⟨fun hne heq => hne (congrArg Ident.text heq), fun hne heq => hne (Ident.ext_text heq)⟩

end TableStore.Mirrors
end RecordRules
