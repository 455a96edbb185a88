/-
The laws of the store that holds records as they are.
-/
import RecordRules.Proofs.Store.Laws
import RecordRules.Store.Memory

namespace RecordRules
namespace MemoryStore

/-! ## Finding a record after a change -/

theorem key_of_find? {s : MemoryStore} {module : ModuleId} {id : RecordId} {r : Record}
    (h : s.find? module id = some r) : r.module = module ∧ r.id = id := by
  have hr := List.find?_some h
  simpa using hr

theorem find?_replace_self {s : MemoryStore} {module : ModuleId} {id : RecordId} {r new : Record}
    (h : s.find? module id = some r) (hmodule : new.module = module) (hid : new.id = id) :
    (s.replace new).find? module id = some new := by
  subst hmodule hid
  unfold find? at h
  unfold find? replace
  -- A record is looked for in the new list as it was in the old one.
  have hlook : ((fun r : Record => decide (r.module = new.module ∧ r.id = new.id)) ∘
      fun r => if r.module = new.module ∧ r.id = new.id then new else r) =
        fun r => decide (r.module = new.module ∧ r.id = new.id) := by
    funext r
    by_cases hr : r.module = new.module ∧ r.id = new.id
    · simp [hr]
    · rw [Function.comp_apply, if_neg hr]
  rw [List.find?_map, hlook, h]
  have hkey := List.find?_some h
  simp_all

theorem find?_replace_of_ne {s : MemoryStore} {other : ModuleId} {otherId : RecordId} {new : Record}
    (h : (other, otherId) ≠ (new.module, new.id)) :
    (s.replace new).find? other otherId = s.find? other otherId := by
  unfold find? replace
  dsimp only
  induction s.records with
  | nil => rfl
  | cons r rest ih =>
    rw [List.map_cons, List.find?_cons, List.find?_cons, ih]
    by_cases hr : r.module = new.module ∧ r.id = new.id
    · have hnew : ¬(new.module = other ∧ new.id = otherId) := by
        rintro ⟨rfl, rfl⟩
        exact h rfl
      have hold : ¬(r.module = other ∧ r.id = otherId) := by
        rw [hr.1, hr.2]
        exact hnew
      simp [hr, hnew]
    · rw [if_neg hr]

theorem find?_delete_self (s : MemoryStore) (module : ModuleId) (id : RecordId) :
    (s.delete module id).2.find? module id = none := by
  unfold find? delete
  rw [List.find?_filter, List.find?_eq_none]
  intro r _
  simp only [decide_eq_true_eq]
  rintro ⟨hne, heq⟩
  exact hne heq

theorem find?_delete_of_ne (s : MemoryStore) {module other : ModuleId} {id otherId : RecordId}
    (h : (other, otherId) ≠ (module, id)) :
    (s.delete module id).2.find? other otherId = s.find? other otherId := by
  unfold find? delete
  rw [List.find?_filter]
  congr 1
  funext r
  have hne : r.module = other ∧ r.id = otherId → ¬(r.module = module ∧ r.id = id) := by
    rintro ⟨rfl, rfl⟩ ⟨rfl, rfl⟩
    exact h rfl
  simp only [decide_eq_true_eq]
  rw [decide_eq_decide]
  exact ⟨fun hr => hr.2, fun hr => ⟨hne hr, hr⟩⟩

/-! ## Writing a field -/

/-- A field write that goes through changes the record it finds, and the store if the record does
change. -/
theorem mutateField_ok {s s' : MemoryStore} {module : ModuleId} {id : RecordId} {field : String}
    {m : Mutation} {now : Int} {w : FieldWrite}
    (h : RecordStore.mutateField s module id field m now = .ok (w, s')) :
    ∃ r, s.find? module id = some r ∧ r.mutate field m now = .ok w ∧
      s' = if w.changed then s.replace w.record else s := by
  change mutateField s module id field m now = .ok (w, s') at h
  unfold mutateField at h
  split at h
  · cases h
  · next r hr =>
    split at h
    · cases h
    · next write hw =>
      cases h
      exact ⟨r, hr, hw, rfl⟩

theorem mutateField_of_find? {s : MemoryStore} {module : ModuleId} {id : RecordId}
    {field : String} {m : Mutation} {now : Int} {r : Record} {w : FieldWrite}
    (hfind : s.find? module id = some r) (hw : r.mutate field m now = .ok w) :
    RecordStore.mutateField s module id field m now =
      .ok (w, if w.changed then s.replace w.record else s) := by
  show s.mutateField module id field m now = _
  unfold mutateField
  rw [hfind]
  dsimp only
  rw [hw]

/-- The record that is found after a field write is the one that was written. -/
theorem get_mutateField {s s' : MemoryStore} {module : ModuleId} {id : RecordId} {field : String}
    {m : Mutation} {now : Int} {w : FieldWrite}
    (h : RecordStore.mutateField s module id field m now = .ok (w, s')) :
    s'.find? module id = some w.record := by
  obtain ⟨r, hr, hw, rfl⟩ := mutateField_ok h
  have hkeep := Record.mutate_keeps hw
  have hkey := key_of_find? hr
  by_cases hc : w.changed = true
  · rw [if_pos hc]
    exact find?_replace_self hr (hkeep.2.1.trans hkey.1) (hkeep.1.trans hkey.2)
  · rw [if_neg hc]
    rcases Record.mutate_cases hw with ⟨_, hrec⟩ | ⟨hc', _⟩
    · rw [hrec]
      exact hr
    · exact absurd hc' hc

theorem readsBack (data : Json) : RecordStore.ReadsBack MemoryStore data := by
  intro s s' module id field m now w h _
  exact congrArg Except.ok (get_mutateField h)

/-! ## The laws -/

theorem get_eq (s : MemoryStore) (module : ModuleId) (id : RecordId) :
    RecordStore.get s module id = .ok (s.find? module id) := rfl

theorem delete_eq (s : MemoryStore) (module : ModuleId) (id : RecordId) :
    RecordStore.delete s module id = .ok (s.find? module id, (s.delete module id).2) := rfl

theorem exists_of_holds {s : MemoryStore} {module : ModuleId} {id : RecordId}
    (h : RecordStore.get s module id ≠ .ok none) :
    ∃ r ∈ s.records, r.module = module ∧ r.id = id := by
  rw [get_eq] at h
  have hsome : s.find? module id ≠ none := fun hnone => h (by rw [hnone])
  obtain ⟨r, hr⟩ := Option.ne_none_iff_exists'.mp hsome
  exact ⟨r, List.mem_of_find?_eq_some hr, key_of_find? hr⟩

instance : LawfulRecordStore MemoryStore where
  key_of_get h := key_of_find? (Except.ok.inj h)
  mutate_of_mutateField h := by
    obtain ⟨r, hr, hw, _⟩ := mutateField_ok h
    exact ⟨r, congrArg Except.ok hr, hw⟩
  eq_of_unchanged h hc := by
    obtain ⟨_, _, _, rfl⟩ := mutateField_ok h
    simp [hc]
  times_of_mutateField h hr := by
    have hw := get_mutateField h
    rw [get_eq, hw] at hr
    cases hr
    exact ⟨rfl, rfl⟩
  get_mutateField_ne_none h := by
    rw [get_eq, get_mutateField h]
    simp
  get_mutateField_of_ne h hne := by
    obtain ⟨r, hr, hw, rfl⟩ := mutateField_ok h
    have hkeep := Record.mutate_keeps hw
    have hkey := key_of_find? hr
    split
    · refine congrArg Except.ok (find?_replace_of_ne ?_)
      rw [hkeep.1, hkeep.2.1, hkey.1, hkey.2]
      exact hne
    · rfl
  get_of_delete h := by
    rw [delete_eq] at h
    cases h
    rfl
  eq_of_delete_none {s s' module id} h := by
    rw [delete_eq] at h
    obtain ⟨hfound, rfl⟩ := Prod.mk.inj (Except.ok.inj h)
    have hkeep : ∀ r ∈ s.records, ¬(r.module = module ∧ r.id = id) := by
      intro r hr
      have := List.find?_eq_none.mp hfound r hr
      simpa using this
    unfold delete
    have hall : s.records.filter (fun r => ¬(r.module = module ∧ r.id = id)) = s.records :=
      List.filter_eq_self.mpr fun r hr => decide_eq_true (hkeep r hr)
    rw [hall]
  get_delete_self h := by
    rw [delete_eq] at h
    cases h
    exact congrArg Except.ok (find?_delete_self _ _ _)
  get_delete_of_ne h hne := by
    rw [delete_eq] at h
    cases h
    exact congrArg Except.ok (find?_delete_of_ne _ hne)
  finite_held s := by
    refine (finite_and_ncard_le_of_mem (s.records.map fun r => (r.module, r.id)) ?_).1
    rintro ⟨module, id⟩ hk
    obtain ⟨r, hr, rfl, rfl⟩ := exists_of_holds hk
    exact List.mem_map_of_mem hr
  held_le_count s module := by
    have hids : ∀ id ∈ {id | RecordStore.get s module id ≠ .ok none},
        id ∈ (s.list module).map fun r => r.id := by
      intro id hk
      obtain ⟨r, hr, hmodule, rfl⟩ := exists_of_holds hk
      exact List.mem_map_of_mem (List.mem_filter.mpr ⟨hr, by simpa using hmodule⟩)
    have hle := (finite_and_ncard_le_of_mem _ hids).2
    rw [List.length_map] at hle
    exact hle

theorem replaceData_ok {s s' : MemoryStore} {module : ModuleId} {id : RecordId} {data : Json}
    {now : Int} {new : Record} (h : RecordStore.replaceData s module id data now = .ok (new, s')) :
    ∃ r, s.find? module id = some r ∧ new = r.withData data now ∧ s' = s.replace new := by
  change s.replaceData module id data now = _ at h
  unfold MemoryStore.replaceData at h
  split at h
  · cases h
  · split at h
    · cases h
    · next r hr =>
      cases h
      exact ⟨r, hr, rfl, rfl⟩

/-- A record is put in only where there is none. -/
theorem insert_ok {s s' : MemoryStore} {r : Record} (h : RecordStore.insert s r = .ok s') :
    s.find? r.module r.id = none ∧ s' = ⟨insertBefore Record.before r s.records⟩ := by
  change s.insert r = _ at h
  unfold MemoryStore.insert at h
  split at h
  · cases h
  · split at h
    · cases h
    · next hfree =>
      cases h
      exact ⟨by simpa using hfree, rfl⟩

instance : LawfulReplacement MemoryStore where
  withData_of_replaceData h := by
    obtain ⟨r, hr, hnew, _⟩ := replaceData_ok h
    exact ⟨r, congrArg Except.ok hr, hnew⟩

end MemoryStore
end RecordRules
