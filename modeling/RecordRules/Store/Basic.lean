/-
Record stores.

A store keeps the records of all modules.  Its operations are the fields of the class
`RecordStore`; an operation that fails leaves the store as it was.  What a change does to a single
record is said here once for all stores.
-/
import RecordRules.Assoc
import RecordRules.Mutation
import RecordRules.Record

namespace RecordRules

/-- Why a store refuses a request. -/
inductive StoreError where
  | notFound (record : RecordId)
  | alreadyExists (record : RecordId)
  | value (e : ValueError)
  | dataNotAnObject
  | storedNotAnObject (record : RecordId)
  | badRecordId (text : String)
  | badModuleId (text : String)
  /-- The stored text of the data does not read. -/
  | unreadable
deriving DecidableEq

def StoreError.message : StoreError → String
  | notFound record => s!"record not found: {record.text}"
  | alreadyExists record => s!"record already exists: {record.text}"
  | value e => e.message
  | dataNotAnObject => "invalid data: record data must be a JSON object"
  | storedNotAnObject record => s!"invalid data: record {record.text} data is not an object"
  | badRecordId text =>
    s!"invalid data: record id {Text.quoted text}: {(InvalidIdent.mk text).message}"
  | badModuleId text =>
    s!"invalid data: module id {Text.quoted text}: {(InvalidIdent.mk text).message}"
  | unreadable => "serialization error: stored data do not read"

/-- The outcome of writing a field. -/
structure FieldWrite where
  previous : Option Json
  current : Json
  /-- Whether the value is another one than before.  If not, nothing was written. -/
  changed : Bool
  record : Record

namespace Record

/-- The record with its data replaced.  The time of the last change never goes back. -/
def withData (r : Record) (data : Json) (now : Int) : Record :=
  { r with data, updatedAt := max now r.updatedAt }

/-- Changes one field.  The record stays as it is, time included, if the value does. -/
def mutate (r : Record) (name : String) (m : Mutation) (now : Int) : Except StoreError FieldWrite :=
  if !r.data.isObject then .error (.storedNotAnObject r.id)
  else
    let previous := r.get? name
    match m.apply previous with
    | .error e => .error (.value e)
    | .ok current =>
      if previous.any (· == current) then
        .ok { previous, current, changed := false, record := r }
      else
        .ok { previous, current, changed := true,
              record := r.withData (r.data.set name current) now }

end Record

/-- The operations of a record store. -/
class RecordStore (σ : Type) where
  get : σ → ModuleId → RecordId → Except StoreError (Option Record)
  insert : σ → Record → Except StoreError σ
  replaceData : σ → ModuleId → RecordId → (data : Json) → (now : Int) →
    Except StoreError (Record × σ)
  mutateField : σ → ModuleId → RecordId → (field : String) → Mutation → (now : Int) →
    Except StoreError (FieldWrite × σ)
  delete : σ → ModuleId → RecordId → Except StoreError (Option Record × σ)
  list : σ → ModuleId → Except StoreError (List Record)
  count : σ → ModuleId → Nat
  /-- Removes the records of a module and says how many there were. -/
  purge : σ → ModuleId → Nat × σ

/-- The records of a module whose field loosely equals a value, the oldest first. -/
def RecordStore.findByField {σ : Type} [RecordStore σ] (s : σ) (module : ModuleId) (field : String)
    (value : Json) : Except StoreError (List Record) :=
  (RecordStore.list s module).map fun records =>
    records.filter fun r => (r.get? field).any fun v => v.looselyEqual value

end RecordRules
