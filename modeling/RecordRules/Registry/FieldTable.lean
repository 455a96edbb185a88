/-
The fields of all modules.

Fields are kept by module in the order of their creation.  Beside them stands an index from field
identifiers to modules, by which identifiers are kept apart across modules.
-/
import RecordRules.Registry.Catalog

namespace RecordRules

/-- The fields of a registry. -/
structure FieldTable where
  byModule : Assoc ModuleId (List Field)
  owners : Assoc FieldId ModuleId

namespace FieldTable

def empty : FieldTable := ⟨[], []⟩

/-! ## Looking up -/

def list (t : FieldTable) (module : ModuleId) : List Field :=
  (Assoc.get? module t.byModule).getD []

def get? (t : FieldTable) (module : ModuleId) (id : FieldId) : Option Field :=
  (t.list module).find? fun f => f.id = id

def getByName? (t : FieldTable) (module : ModuleId) (name : String) : Option Field :=
  (t.list module).find? fun f => f.name = name

def label? (t : FieldTable) (module : ModuleId) : Option Field :=
  (t.list module).find? fun f => f.isLabel

/-! ## New fields -/

def checkSubfields (c : Catalog) (field : String) :
    (seen : List String) → List Subfield → Except RegistryError Unit
  | _, [] => .ok ()
  | seen, s :: rest =>
    if Text.isBlank s.name then .error (.badSubfield field .unnamed)
    else if seen.contains s.name then .error (.badSubfield field (.declaredTwice s.name))
    else
      match c.kindOf s.dataType with
      | none => .error (.badSubfield field (.unknownType s.name s.dataType))
      | some .array => .error (.badSubfield field (.isArray s.name))
      | some _ => checkSubfields c field (s.name :: seen) rest

/-- The field of a draft, if the catalog and the fields so far allow it.  A draft without an
identifier gets the fresh one. -/
def build (t : FieldTable) (c : Catalog) (d : FieldDraft) (fresh : FieldId) (now : Int) :
    Except RegistryError Field := do
  let name ← cleanName .field d.name
  let id := d.id.getD fresh
  if (Assoc.get? id t.owners).isSome then .error (.duplicateField id)
  else if (t.getByName? d.module name).isSome then .error (.nameTaken d.module name)
  else
    match c.get? d.dataType with
    | none => .error (.unknownDataType d.dataType)
    | some type =>
      if !type.isActive then .error (.inactiveDataType type.id)
      else
        match d.subfields with
        | none => pure ()
        | some subfields =>
          if type.kind ≠ .array then .error (.subfieldsOfKind name type.kind)
          else checkSubfields c name [] subfields
        return {
          id, name, module := d.module, dataType := d.dataType, isLabel := d.isLabel
          subfields := d.subfields, createdAt := now, updatedAt := now }

/-- The table with one more field.  A new label takes the place of the old one. -/
def insert (t : FieldTable) (f : Field) : FieldTable :=
  let before := t.list f.module
  let before := if f.isLabel then before.map fun g => { g with isLabel := false } else before
  { byModule := Assoc.put f.module (before ++ [f]) t.byModule
    owners := Assoc.put f.id f.module t.owners }

/-! ## Labels -/

/-- A field after another one, or itself, has become the label. -/
def relabelled (id : FieldId) (now : Int) (f : Field) : Field :=
  let isLabel := decide (f.id = id)
  if f.isLabel = isLabel then f else { f with isLabel, updatedAt := now }

def setLabel (t : FieldTable) (module : ModuleId) (id : FieldId) (now : Int) :
    Except RegistryError (Field × FieldTable) :=
  match t.get? module id with
  | none => .error (.fieldNotFound id module)
  | some f =>
    .ok (relabelled id now f,
      { t with byModule := Assoc.put module ((t.list module).map (relabelled id now)) t.byModule })

/-! ## Removal -/

def disown (removed : List Field) (owners : Assoc FieldId ModuleId) : Assoc FieldId ModuleId :=
  removed.foldl (fun owners f => Assoc.erase f.id owners) owners

def removeOf (t : FieldTable) (module : ModuleId) : List Field × FieldTable :=
  let removed := t.list module
  (removed, ⟨Assoc.erase module t.byModule, disown removed t.owners⟩)

/-- Removes the fields of a data type. -/
def removeTyped (t : FieldTable) (type : DataTypeId) : List Field × FieldTable :=
  let removed := t.byModule.flatMap fun (_, fields) => fields.filter fun f => f.dataType = type
  (removed,
    { byModule := t.byModule.map fun (module, fields) =>
        (module, fields.filter fun f => f.dataType ≠ type)
      owners := disown removed t.owners })

end FieldTable
end RecordRules
