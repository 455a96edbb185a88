/-
What all record stores have in common.

A store is looked at through `RecordStore.get`.  The laws say what its operations do to the record
at each place and leave open whether a record reads back as it was written: a store that keeps text
need not give back every number.  `RecordStore.ReadsBack` says of data that they do.
-/
import Mathlib.Data.Set.Card
import RecordRules.Store.Basic

namespace RecordRules

/-! ## Writing a field of a record -/

namespace Record

/-- A field write that goes through writes what the mutation makes of the value that was there.  An
equal value is left alone. -/
theorem mutate_ok {r : Record} {name : String} {m : Mutation} {now : Int} {w : FieldWrite}
    (h : r.mutate name m now = .ok w) :
    r.data.isObject = true ∧ m.apply (r.get? name) = .ok w.current ∧
      ((w.changed = false ∧ w.record = r ∧ (r.get? name).any (· == w.current) = true) ∨
        (w.changed = true ∧ w.record = r.withData (r.data.set name w.current) now)) := by
  unfold mutate at h
  split at h
  · cases h
  · next hobject =>
    dsimp only at h
    split at h
    · cases h
    · next current happly =>
      refine ⟨by simpa using hobject, ?_⟩
      split at h
      · next hequal =>
        cases h
        exact ⟨happly, Or.inl ⟨rfl, rfl, hequal⟩⟩
      · cases h
        exact ⟨happly, Or.inr ⟨rfl, rfl⟩⟩

/-- A field write that goes through either leaves the record alone or sets the field of its data. -/
theorem mutate_cases {r : Record} {name : String} {m : Mutation} {now : Int} {w : FieldWrite}
    (h : r.mutate name m now = .ok w) :
    (w.changed = false ∧ w.record = r) ∨
      (w.changed = true ∧ w.record = r.withData (r.data.set name w.current) now) := by
  obtain ⟨_, _, ⟨hchanged, hrecord, _⟩ | hset⟩ := mutate_ok h
  · exact Or.inl ⟨hchanged, hrecord⟩
  · exact Or.inr hset

/-- What a field write leaves alone: the identifier, the module, the time of creation and all other
fields.  The time of the last change does not go back. -/
theorem mutate_keeps {r : Record} {name : String} {m : Mutation} {now : Int} {w : FieldWrite}
    (h : r.mutate name m now = .ok w) :
    w.record.id = r.id ∧ w.record.module = r.module ∧ w.record.createdAt = r.createdAt ∧
      r.updatedAt ≤ w.record.updatedAt ∧
      ∀ key, key ≠ name → w.record.get? key = r.get? key := by
  rcases mutate_cases h with ⟨_, hr⟩ | ⟨_, hr⟩
  · rw [hr]
    exact ⟨rfl, rfl, rfl, Int.le_refl _, fun _ _ => rfl⟩
  · rw [hr]
    refine ⟨rfl, rfl, rfl, ?_, fun key hkey => Json.get?_set_of_ne hkey _ _⟩
    simp only [withData]
    omega

end Record

/-! ## Counting places -/

theorem finite_and_ncard_le_of_mem {κ : Type} {held : Set κ} (places : List κ)
    (h : ∀ k ∈ held, k ∈ places) : held.Finite ∧ held.ncard ≤ places.length := by
  classical
  have hsub : held ⊆ (places.toFinset : Set κ) := by
    intro k hk
    simpa using h k hk
  refine ⟨places.toFinset.finite_toSet.subset hsub, ?_⟩
  calc held.ncard
    _ ≤ (places.toFinset : Set κ).ncard := Set.ncard_le_ncard hsub places.toFinset.finite_toSet
    _ = places.toFinset.card := Set.ncard_coe_finset _
    _ ≤ places.length := places.toFinset_card_le

theorem length_le_ncard_of_nodup {κ : Type} {l : List κ} {places : Set κ} (hl : l.Nodup)
    (hfinite : places.Finite) (h : ∀ k ∈ l, k ∈ places) : l.length ≤ places.ncard := by
  classical
  have hsub : (l.toFinset : Set κ) ⊆ places := by
    intro k hk
    exact h k (by simpa using hk)
  calc l.length
    _ = l.toFinset.card := (List.toFinset_card_of_nodup hl).symm
    _ = (l.toFinset : Set κ).ncard := (Set.ncard_coe_finset _).symm
    _ ≤ places.ncard := Set.ncard_le_ncard hsub hfinite

/-! ## Answers of two stores -/

/-- Two answers of stores say the same, and leave stores of a relation. -/
inductive SameAnswer {σ α : Type} (R : σ → σ → Prop) :
    Except StoreError (α × σ) → Except StoreError (α × σ) → Prop where
  | error (e : StoreError) : SameAnswer R (.error e) (.error e)
  | ok (a : α) {store store' : σ} (h : R store store') :
      SameAnswer R (.ok (a, store)) (.ok (a, store'))

theorem SameAnswer.same {σ α : Type} (answer : Except StoreError (α × σ)) :
    SameAnswer Eq answer answer := by
  cases answer with
  | error e => exact .error e
  | ok answer => exact .ok answer.1 rfl

/-! ## The laws -/

/-- The operations that a run uses act on one place at a time. -/
class LawfulRecordStore (σ : Type) [RecordStore σ] : Prop where
  key_of_get {s : σ} {module : ModuleId} {id : RecordId} {r : Record} :
    RecordStore.get s module id = .ok (some r) → r.module = module ∧ r.id = id
  mutate_of_mutateField {s s' : σ} {module : ModuleId} {id : RecordId} {field : String}
      {m : Mutation} {now : Int} {w : FieldWrite} :
    RecordStore.mutateField s module id field m now = .ok (w, s') →
      ∃ r, RecordStore.get s module id = .ok (some r) ∧ r.mutate field m now = .ok w
  eq_of_unchanged {s s' : σ} {module : ModuleId} {id : RecordId} {field : String}
      {m : Mutation} {now : Int} {w : FieldWrite} :
    RecordStore.mutateField s module id field m now = .ok (w, s') → w.changed = false → s' = s
  times_of_mutateField {s s' : σ} {module : ModuleId} {id : RecordId} {field : String}
      {m : Mutation} {now : Int} {w : FieldWrite} {r : Record} :
    RecordStore.mutateField s module id field m now = .ok (w, s') →
      RecordStore.get s' module id = .ok (some r) →
        r.createdAt = w.record.createdAt ∧ r.updatedAt = w.record.updatedAt
  get_mutateField_ne_none {s s' : σ} {module : ModuleId} {id : RecordId} {field : String}
      {m : Mutation} {now : Int} {w : FieldWrite} :
    RecordStore.mutateField s module id field m now = .ok (w, s') →
      RecordStore.get s' module id ≠ .ok none
  get_mutateField_of_ne {s s' : σ} {module other : ModuleId} {id otherId : RecordId}
      {field : String} {m : Mutation} {now : Int} {w : FieldWrite} :
    RecordStore.mutateField s module id field m now = .ok (w, s') →
      (other, otherId) ≠ (module, id) →
        RecordStore.get s' other otherId = RecordStore.get s other otherId
  get_of_delete {s s' : σ} {module : ModuleId} {id : RecordId} {found : Option Record} :
    RecordStore.delete s module id = .ok (found, s') → RecordStore.get s module id = .ok found
  eq_of_delete_none {s s' : σ} {module : ModuleId} {id : RecordId} :
    RecordStore.delete s module id = .ok (none, s') → s' = s
  get_delete_self {s s' : σ} {module : ModuleId} {id : RecordId} {found : Option Record} :
    RecordStore.delete s module id = .ok (found, s') → RecordStore.get s' module id = .ok none
  get_delete_of_ne {s s' : σ} {module other : ModuleId} {id otherId : RecordId}
      {found : Option Record} :
    RecordStore.delete s module id = .ok (found, s') → (other, otherId) ≠ (module, id) →
      RecordStore.get s' other otherId = RecordStore.get s other otherId
  finite_held (s : σ) :
    {k : ModuleId × RecordId | RecordStore.get s k.1 k.2 ≠ .ok none}.Finite
  held_le_count (s : σ) (module : ModuleId) :
    {id : RecordId | RecordStore.get s module id ≠ .ok none}.ncard ≤ RecordStore.count s module

/-- Data are replaced in the record that is read at the place. -/
class LawfulReplacement (σ : Type) [RecordStore σ] : Prop where
  withData_of_replaceData {s s' : σ} {module : ModuleId} {id : RecordId} {data : Json} {now : Int}
      {new : Record} :
    RecordStore.replaceData s module id data now = .ok (new, s') →
      ∃ r, RecordStore.get s module id = .ok (some r) ∧ new = r.withData data now

namespace RecordStore

variable {σ : Type} [RecordStore σ]

/-! ## Places that hold a record -/

/-- There is a record at a place, whether it reads or not. -/
def Holds (s : σ) (k : ModuleId × RecordId) : Prop := get s k.1 k.2 ≠ .ok none

/-- The number of records. -/
noncomputable def size (s : σ) : Nat := {k | Holds s k}.ncard

theorem Holds.of_get {s : σ} {module : ModuleId} {id : RecordId} {r : Record}
    (h : get s module id = .ok (some r)) : Holds s (module, id) := by
  unfold Holds
  rw [h]
  simp

section

variable [LawfulRecordStore σ]

theorem finite_holds (s : σ) : {k | Holds s k}.Finite := LawfulRecordStore.finite_held s

/-- The records of a module are no more than the store counts. -/
theorem finite_and_ncard_module_le (s : σ) (module : ModuleId) :
    {k | k.1 = module ∧ Holds s k}.Finite ∧
      {k | k.1 = module ∧ Holds s k}.ncard ≤ RecordStore.count s module := by
  have himage : {k | k.1 = module ∧ Holds s k} ⊆
      (fun id => (module, id)) '' {id : RecordId | get s module id ≠ .ok none} := by
    rintro ⟨_, id⟩ ⟨rfl, hk⟩
    exact ⟨id, hk, rfl⟩
  have hids : {id : RecordId | get s module id ≠ .ok none}.Finite := by
    refine ((finite_holds s).preimage ?_ : (Set.preimage (fun id => (module, id)) _).Finite)
    intro a _ b _ hab
    exact (Prod.mk.inj hab).2
  refine ⟨(hids.image _).subset himage, ?_⟩
  calc {k | k.1 = module ∧ Holds s k}.ncard
    _ ≤ _ := Set.ncard_le_ncard himage (hids.image _)
    _ ≤ {id : RecordId | get s module id ≠ .ok none}.ncard := Set.ncard_image_le hids
    _ ≤ RecordStore.count s module := LawfulRecordStore.held_le_count s module

end

/-! ## Data that read back -/

variable (σ) in
/-- Data that a field write leaves in a record are found there as they were written. -/
def ReadsBack (data : Json) : Prop :=
  ∀ (s s' : σ) (module : ModuleId) (id : RecordId) (field : String) (m : Mutation) (now : Int)
    (w : FieldWrite), mutateField s module id field m now = .ok (w, s') → w.record.data = data →
      get s' module id = .ok (some w.record)

variable (σ) in
/-- If such a record is read, it has under a key what was written there. -/
def ReadsBackAt (key : String) (data : Json) : Prop :=
  ∀ (s s' : σ) (module : ModuleId) (id : RecordId) (field : String) (m : Mutation) (now : Int)
    (w : FieldWrite) (r : Record), mutateField s module id field m now = .ok (w, s') →
      w.record.data = data → get s' module id = .ok (some r) → r.get? key = data.get? key

end RecordStore
end RecordRules
