/-
A record store that holds records as they are.

The records of all modules stand in one list, the oldest first, and no two of one module have the
same identifier.  No operation changes the age of a record, so the list stays in order.
-/
import RecordRules.Store.Basic

namespace RecordRules

/-- Records of all modules, the oldest first. -/
structure MemoryStore where
  records : List Record

namespace MemoryStore

def empty : MemoryStore := ⟨[]⟩

def find? (s : MemoryStore) (module : ModuleId) (id : RecordId) : Option Record :=
  s.records.find? fun r => r.module = module ∧ r.id = id

/-- The store with another record in the place of the one of the same module and identifier. -/
def replace (s : MemoryStore) (new : Record) : MemoryStore :=
  ⟨s.records.map fun r => if r.module = new.module ∧ r.id = new.id then new else r⟩

def insert (s : MemoryStore) (r : Record) : Except StoreError MemoryStore :=
  if !r.data.isObject then .error .dataNotAnObject
  else if (s.find? r.module r.id).isSome then .error (.alreadyExists r.id)
  else .ok ⟨insertBefore Record.before r s.records⟩

def replaceData (s : MemoryStore) (module : ModuleId) (id : RecordId) (data : Json) (now : Int) :
    Except StoreError (Record × MemoryStore) :=
  if !data.isObject then .error .dataNotAnObject
  else
    match s.find? module id with
    | none => .error (.notFound id)
    | some r =>
      let new := r.withData data now
      .ok (new, s.replace new)

def mutateField (s : MemoryStore) (module : ModuleId) (id : RecordId) (field : String)
    (m : Mutation) (now : Int) : Except StoreError (FieldWrite × MemoryStore) :=
  match s.find? module id with
  | none => .error (.notFound id)
  | some r =>
    match r.mutate field m now with
    | .error e => .error e
    | .ok write => .ok (write, if write.changed then s.replace write.record else s)

def delete (s : MemoryStore) (module : ModuleId) (id : RecordId) : Option Record × MemoryStore :=
  (s.find? module id, ⟨s.records.filter fun r => ¬(r.module = module ∧ r.id = id)⟩)

def list (s : MemoryStore) (module : ModuleId) : List Record :=
  s.records.filter fun r => r.module = module

def purge (s : MemoryStore) (module : ModuleId) : Nat × MemoryStore :=
  ((s.list module).length, ⟨s.records.filter fun r => r.module ≠ module⟩)

instance : RecordStore MemoryStore where
  get s module id := .ok (s.find? module id)
  insert := insert
  replaceData := replaceData
  mutateField := mutateField
  delete s module id := .ok (s.delete module id)
  list s module := .ok (s.list module)
  count s module := (s.list module).length
  purge := purge

end MemoryStore
end RecordRules
