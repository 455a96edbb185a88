/-
Writing the same value again.

A field write goes to the record that is read at a place, whatever the time, and rewrites what is
held under its identifier.  All else that is held of the module stays, so the records that are
listed afterwards are those of before but for the ones that were written.
-/
import RecordRules.Proofs.Basic
import RecordRules.Proofs.Store.Modular

namespace RecordRules

open ModularStore (holdings)

namespace Record

variable {r : Record} {name : String} {v x : Json} {now : Int} {w : FieldWrite}

/-- A value is set in any object, at any time. -/
theorem mutate_set_ok_of (h : r.mutate name (.set v) now = .ok w) (later : Int) :
    ∃ w', r.mutate name (.set v) later = .ok w' := by
  obtain ⟨hobject, -⟩ := of_guard_ok h
  unfold mutate
  rw [hobject, if_neg (by decide)]
  simp only [Mutation.apply]
  split
  · exact ⟨_, rfl⟩
  · exact ⟨_, rfl⟩

/-- Setting a field that holds an equal value changes nothing. -/
theorem unchanged_of_held (hheld : r.get? name = some x) (hequal : (x == v) = true)
    (h : r.mutate name (.set v) now = .ok w) : w.changed = false := by
  obtain ⟨-, h⟩ := of_guard_ok h
  simp only [Mutation.apply, hheld, Option.any_some, hequal, if_true] at h
  cases h
  rfl

end Record

/-- A store that writes a field of any record that it reads, and rewrites nothing else of its
module. -/
class RewritingStore (σ : Type) [RecordStore σ] [ModularStore σ] : Prop where
  mutateField_of_get {s : σ} {module : ModuleId} {id : RecordId} {r : Record} {field : String}
      {m : Mutation} {now : Int} {w : FieldWrite} :
    RecordStore.get s module id = .ok (some r) → r.mutate field m now = .ok w →
      ∃ s', RecordStore.mutateField s module id field m now = .ok (w, s')
  holding_of_mutateField {s s' : σ} {module : ModuleId} {id : RecordId} {field : String}
      {m : Mutation} {now : Int} {w : FieldWrite} :
    RecordStore.mutateField s module id field m now = .ok (w, s') → ∀ h' ∈ holdings s' module,
      ∃ h ∈ holdings s module, h.id = h'.id ∧ (h'.id ≠ id.text → h = h')
  id_of_holding {s : σ} {module : ModuleId} {h : Holding} {r : Record} :
    h ∈ holdings s module → h.record = .ok r → h.id = r.id.text

instance : RewritingStore MemoryStore where
  mutateField_of_get {s module id r field m now w} hr hw := by
    have hfind : s.find? module id = some r := Except.ok.inj hr
    exact ⟨_, MemoryStore.mutateField_of_find? hfind hw⟩
  holding_of_mutateField {s s' module id field m now w} h h' hh' := by
    obtain ⟨r, hr, hw, rfl⟩ := MemoryStore.mutateField_ok h
    obtain ⟨hid, hmodule, -⟩ := Record.mutate_keeps hw
    have hkey := MemoryStore.key_of_find? hr
    obtain ⟨r', hr', rfl⟩ := List.mem_map.mp hh'
    split at hr'
    · rw [MemoryStore.list_replace] at hr'
      obtain ⟨old, hold, rfl⟩ := List.mem_map.mp hr'
      refine ⟨MemoryStore.holding old, List.mem_map_of_mem hold, ?_⟩
      split
      · next hplace =>
        refine ⟨congrArg Ident.text hplace.2, fun hne => absurd ?_ hne⟩
        show w.record.id.text = id.text
        rw [hid, hkey.2]
      · exact ⟨rfl, fun _ => rfl⟩
    · exact ⟨MemoryStore.holding r', List.mem_map_of_mem hr', rfl, fun _ => rfl⟩
  id_of_holding hh hr := by
    obtain ⟨r, _, rfl⟩ := List.mem_map.mp hh
    cases hr
    rfl

instance : RewritingStore TableStore where
  mutateField_of_get {s module id r field m now w} hr hw := by
    have hget : s.get module id = .ok (some r) := hr
    show ∃ s', s.mutateField module id field m now = .ok (w, s')
    rw [TableStore.mutateField_eq, hget]
    dsimp only
    rw [hw]
    exact ⟨_, rfl⟩
  holding_of_mutateField {s s' module id field m now w} h h' hh' := by
    obtain ⟨r, hr, hw, rfl⟩ := TableStore.mutateField_ok h
    obtain ⟨hid, hmodule, -⟩ := Record.mutate_keeps hw
    have hkey := TableStore.key_of_get hr
    have hhome : w.record.module = module := hmodule.trans hkey.1
    have hh' : h' ∈ (if w.changed then s.replace w.record else s).holdings module := hh'
    split at hh'
    · rw [← hhome, TableStore.holdings_replace, hhome] at hh'
      obtain ⟨old, hold, rfl⟩ := List.mem_map.mp hh'
      refine ⟨old, hold, ?_⟩
      unfold Holding.rewrite
      split
      · next hplace =>
        refine ⟨rfl, fun hne => absurd ?_ hne⟩
        show old.id = id.text
        rw [hplace, hid, hkey.2]
      · exact ⟨rfl, fun _ => rfl⟩
    · exact ⟨h', hh', rfl, fun _ => rfl⟩
  id_of_holding hh hr := by
    obtain ⟨row, _, rfl⟩ := List.mem_map.mp hh
    exact (Row.toRecord_ok hr).1

/-! ## What is held after writes -/

namespace RecordStore

variable {σ : Type} [RecordStore σ] [ModularStore σ] {written : RecordId → Prop} {s s' s'' : σ}
  {module : ModuleId}

/-- What a store holds of a module is what another one holds, but for some identifiers. -/
def RewrittenAt (written : RecordId → Prop) (module : ModuleId) (s s' : σ) : Prop :=
  ∀ h' ∈ holdings s' module, ∃ h ∈ holdings s module, h.id = h'.id ∧
    ((∀ id, written id → h'.id ≠ id.text) → h = h')

namespace RewrittenAt

theorem refl (written : RecordId → Prop) (module : ModuleId) (s : σ) :
    RewrittenAt written module s s :=
  fun h' hh' => ⟨h', hh', rfl, fun _ => rfl⟩

theorem trans (h : RewrittenAt written module s s') (h' : RewrittenAt written module s' s'') :
    RewrittenAt written module s s'' := by
  intro last hlast
  obtain ⟨mid, hmid, hid', heq'⟩ := h' last hlast
  obtain ⟨first, hfirst, hid, heq⟩ := h mid hmid
  refine ⟨first, hfirst, hid.trans hid', fun hother => ?_⟩
  rw [heq fun id hwritten => hid' ▸ hother id hwritten, heq' hother]

variable [RewritingStore σ]

theorem of_mutateField {id : RecordId} {field : String} {m : Mutation} {now : Int} {w : FieldWrite}
    (h : mutateField s module id field m now = .ok (w, s')) (hid : written id) :
    RewrittenAt written module s s' := by
  intro h' hh'
  obtain ⟨old, hold, hsame, heq⟩ := RewritingStore.holding_of_mutateField h h' hh'
  exact ⟨old, hold, hsame, fun hother => heq (hother id hid)⟩

/-- Each record that is listed afterwards has the identifier of one that was listed before, and is
that record if it was not written. -/
theorem exists_mem_list (h : RewrittenAt written module s s') {rs rs' : List Record}
    (hlist : list s module = .ok rs) (hlist' : list s' module = .ok rs') {r' : Record}
    (hr' : r' ∈ rs') : ∃ r ∈ rs, r.id = r'.id ∧ (¬written r'.id → r = r') := by
  rw [ModularStore.list_eq] at hlist hlist'
  obtain ⟨h', hh', hread'⟩ := (mapM_ok hlist').2 r' hr'
  have hid' := RewritingStore.id_of_holding hh' hread'
  obtain ⟨old, hold, hsame, heq⟩ := h h' hh'
  obtain ⟨r, hr, hread⟩ := (mapM_ok hlist).1 old hold
  have hid := RewritingStore.id_of_holding hold hread
  refine ⟨r, hr, Ident.ext_text (by rw [← hid, hsame, hid']), fun hother => ?_⟩
  have hkept : old = h' := heq fun id hwritten htext => hother ?_
  · rw [hkept, hread'] at hread
    exact (Except.ok.inj hread).symm
  · rw [Ident.ext_text (hid'.symm.trans htext)]
    exact hwritten

end RewrittenAt
end RecordStore
end RecordRules
