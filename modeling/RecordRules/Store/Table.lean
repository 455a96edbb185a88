/-
A record store that holds rows of text.

A row keeps the data of a record as JSON text, which is written when a record is stored and read
again on every access.  Rows may have been put in from outside, so reading one can fail: its
identifier need not be one, and its text need not be JSON.
-/
import RecordRules.Json.Document
import RecordRules.Store.Basic

namespace RecordRules

/-- A record as a row of a table. -/
structure Row where
  module : String
  id : String
  data : String
  createdAt : Int
  updatedAt : Int
deriving DecidableEq

/-- Rows of all modules, the oldest first and equally old ones by identifier. -/
structure TableStore where
  rows : List Row
deriving DecidableEq

namespace Row

def before (a b : Row) : Bool :=
  a.createdAt < b.createdAt || (a.createdAt == b.createdAt && a.id < b.id)

def isOf (module : ModuleId) (id : RecordId) (r : Row) : Bool :=
  r.module == module.text && r.id == id.text

def ofRecord (r : Record) : Row :=
  { module := r.module.text, id := r.id.text, data := r.data.text, createdAt := r.createdAt
    updatedAt := r.updatedAt }

def toRecord (r : Row) : Except StoreError Record :=
  match Ident.ofString? r.id, Ident.ofString? r.module, Json.parse? r.data with
  | some id, some module, some data =>
    .ok { id, module, data, createdAt := r.createdAt, updatedAt := r.updatedAt }
  | none, _, _ => .error (.badRecordId r.id)
  | _, none, _ => .error (.badModuleId r.module)
  | _, _, none => .error .unreadable

def ofJson? : Json.Reader Row
  | .array [module, id, data, createdAt, updatedAt] => do
    return {
      module := ← Json.Reader.string module
      id := ← Json.Reader.string id
      data := ← Json.Reader.string data
      createdAt := ← Json.Reader.int createdAt
      updatedAt := ← Json.Reader.int updatedAt }
  | _ => none

def toJson (r : Row) : Json :=
  .array [.string r.module, .string r.id, .string r.data, .ofInt r.createdAt, .ofInt r.updatedAt]

end Row

namespace TableStore

def empty : TableStore := ⟨[]⟩

/-- The row of an identifier in a module. -/
def row? (s : TableStore) (module : ModuleId) (id : RecordId) : Option Row :=
  s.rows.find? (Row.isOf module id)

/-- Puts in a row as it is, if its identifiers are not taken. -/
def insertRow? (s : TableStore) (row : Row) : Option TableStore :=
  if s.rows.any fun r => r.module == row.module && r.id == row.id then none
  else some ⟨insertBefore Row.before row s.rows⟩

def get (s : TableStore) (module : ModuleId) (id : RecordId) : Except StoreError (Option Record) :=
  match s.row? module id with
  | none => .ok none
  | some row => row.toRecord.map some

/-- The record of an identifier, which has to be there. -/
def load (s : TableStore) (module : ModuleId) (id : RecordId) : Except StoreError Record := do
  match ← s.get module id with
  | none => .error (.notFound id)
  | some r => return r

/-- Writes the data and the time of a record over those of its row. -/
def replace (s : TableStore) (new : Record) : TableStore :=
  ⟨s.rows.map fun row =>
    if row.isOf new.module new.id then
      { row with data := new.data.text, updatedAt := new.updatedAt }
    else row⟩

def insert (s : TableStore) (r : Record) : Except StoreError TableStore :=
  if !r.data.isObject then .error .dataNotAnObject
  else
    match s.insertRow? (Row.ofRecord r) with
    | some s => .ok s
    | none => .error (.alreadyExists r.id)

def replaceData (s : TableStore) (module : ModuleId) (id : RecordId) (data : Json) (now : Int) :
    Except StoreError (Record × TableStore) :=
  if !data.isObject then .error .dataNotAnObject
  else do
    let r ← s.load module id
    let new := r.withData data now
    return (new, s.replace new)

def mutateField (s : TableStore) (module : ModuleId) (id : RecordId) (field : String)
    (m : Mutation) (now : Int) : Except StoreError (FieldWrite × TableStore) := do
  let r ← s.load module id
  let write ← r.mutate field m now
  return (write, if write.changed then s.replace write.record else s)

def delete (s : TableStore) (module : ModuleId) (id : RecordId) :
    Except StoreError (Option Record × TableStore) := do
  match ← s.get module id with
  | none => return (none, s)
  | some r => return (some r, ⟨s.rows.filter fun row => !row.isOf module id⟩)

def rowsOf (s : TableStore) (module : ModuleId) : List Row :=
  s.rows.filter fun row => row.module == module.text

def list (s : TableStore) (module : ModuleId) : Except StoreError (List Record) :=
  (s.rowsOf module).mapM Row.toRecord

def purge (s : TableStore) (module : ModuleId) : Nat × TableStore :=
  ((s.rowsOf module).length, ⟨s.rows.filter fun row => row.module != module.text⟩)

instance : RecordStore TableStore where
  get := get
  insert := insert
  replaceData := replaceData
  mutateField := mutateField
  delete := delete
  list := list
  count s module := (s.rowsOf module).length
  purge := purge

end TableStore
end RecordRules
