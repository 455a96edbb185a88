/-
The type catalog.

The catalog holds the data types, the oldest first and equally old ones by identifier.
-/
import RecordRules.Assoc
import RecordRules.Registry.Error

namespace RecordRules

/-- Data types are ordered by age and, if equally old, by identifier. -/
def DataType.before (a b : DataType) : Bool :=
  a.createdAt < b.createdAt || (a.createdAt == b.createdAt && a.id.text < b.id.text)

/-- The data types of a registry. -/
structure Catalog where
  types : List DataType

namespace Catalog

def empty : Catalog := ⟨[]⟩

def get? (c : Catalog) (id : DataTypeId) : Option DataType := c.types.find? fun t => t.id = id

def kindOf (c : Catalog) (id : DataTypeId) : Option Kind := (c.get? id).map (·.kind)

def get (c : Catalog) (id : DataTypeId) : Except RegistryError DataType :=
  match c.get? id with
  | some t => .ok t
  | none => .error (.dataTypeNotFound id)

/-- The catalog with a data type at its place. -/
def add (c : Catalog) (t : DataType) : Catalog := ⟨insertBefore DataType.before t c.types⟩

def insert (c : Catalog) (t : DataType) : Except RegistryError Catalog :=
  if (c.get? t.id).isSome then .error (.duplicateDataType t.id) else .ok (c.add t)

def create (c : Catalog) (name kind : String) (fresh : DataTypeId) (now : Int) :
    Except RegistryError (DataType × Catalog) := do
  let name ← cleanName .dataType name
  match Kind.parse kind with
  | .error e => .error (.invalidKind e)
  | .ok kind =>
    let t : DataType :=
      { id := fresh, name, kind, description := none, isActive := true, createdAt := now
        updatedAt := now }
    return (t, (⟨c.types.filter fun u => u.id ≠ fresh⟩ : Catalog).add t)

/-- Changes a data type that has to be there.  The change leaves identifier and age alone. -/
def update (c : Catalog) (id : DataTypeId) (change : DataType → DataType) :
    Except RegistryError (DataType × Catalog) := do
  let t ← c.get id
  return (change t, ⟨c.types.map fun u => if u.id = id then change u else u⟩)

def remove (c : Catalog) (id : DataTypeId) : Except RegistryError Catalog := do
  let _ ← c.get id
  return ⟨c.types.filter fun t => t.id ≠ id⟩

end Catalog
end RecordRules
