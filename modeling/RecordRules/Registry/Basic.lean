/-
The registry.

The registry puts the type catalog, the module graph and the fields together, so that a change is
checked against all of them and made in full or not at all.  Every change that is made raises the
generation by one, and a snapshot copies everything out.
-/
import RecordRules.Registry.FieldTable
import RecordRules.Registry.Graph

namespace RecordRules

/-- A copy of everything in a registry. -/
structure Snapshot where
  dataTypes : List DataType
  modules : List Module
  fields : List Field

namespace Snapshot

def ofJson? (v : Json.Tree) : Option Snapshot := do
  let [dataTypes, modules, fields] ← Json.parts? [["dataTypes"], ["modules"], ["fields"]] v | none
  return {
    dataTypes := ← Json.defaulted [] (.list DataType.ofJson?) dataTypes
    modules := ← Json.defaulted [] (.list Module.ofJson?) modules
    fields := ← Json.defaulted [] (.list Field.ofJson?) fields }

def toJson (s : Snapshot) : Json :=
  Json.document [
    Json.part "dataTypes" (.array (s.dataTypes.map DataType.toJson)),
    Json.part "modules" (.array (s.modules.map Module.toJson)),
    Json.part "fields" (.array (s.fields.map Field.toJson))]

end Snapshot

/-- The schema: data types, modules with their relationships, and fields. -/
structure Registry where
  catalog : Catalog
  graph : ModuleGraph
  fields : FieldTable
  generation : Nat

namespace Registry

def empty : Registry := ⟨.empty, .empty, .empty, 0⟩

/-! ## Snapshots -/

/-- Takes in fields of modules that are there, under identifiers that are not. -/
def addFields : List Field → Registry → Except RegistryError Registry
  | [], r => .ok r
  | f :: rest, r =>
    if !r.graph.contains f.module then .error (.strayField f.id f.module)
    else if (Assoc.get? f.id r.fields.owners).isSome then .error (.duplicateField f.id)
    else addFields rest { r with fields := r.fields.insert f }

/-- Builds a registry.  Relationships may lead to modules that are not there. -/
def ofSnapshot (s : Snapshot) : Except RegistryError Registry := do
  let catalog ← s.dataTypes.foldlM Catalog.insert Catalog.empty
  let graph ← s.modules.foldlM ModuleGraph.insert ModuleGraph.empty
  addFields s.fields { catalog, graph, fields := .empty, generation := 0 }

/-- Builds a registry from the text of a snapshot. -/
def ofText (s : String) : Except RegistryError Registry :=
  match (Json.Tree.parse? s).bind Snapshot.ofJson? with
  | some snapshot => ofSnapshot snapshot
  | none => .error .unreadable

def snapshot (r : Registry) : Snapshot :=
  { dataTypes := r.catalog.types
    modules := r.graph.list
    fields := r.graph.list.flatMap fun m => r.fields.list m.id }

/-! ## Data types -/

def bump (r : Registry) : Registry := { r with generation := r.generation + 1 }

def createDataType (r : Registry) (name kind : String) (fresh : DataTypeId) (now : Int) :
    Except RegistryError (DataType × Registry) := do
  let (t, catalog) ← r.catalog.create name kind fresh now
  return (t, { r with catalog }.bump)

def getDataType (r : Registry) (id : DataTypeId) : Except RegistryError DataType := r.catalog.get id

def kindOf (r : Registry) (id : DataTypeId) : Option Kind := r.catalog.kindOf id

def listDataTypes (r : Registry) : List DataType := r.catalog.types

/-- Renames a data type.  Its kind stays. -/
def renameDataType (r : Registry) (id : DataTypeId) (name : String) (now : Int) :
    Except RegistryError (DataType × Registry) := do
  let name ← cleanName .dataType name
  let (t, catalog) ← r.catalog.update id fun t => { t with name, updatedAt := now }
  return (t, { r with catalog }.bump)

/-- Retires a data type, or brings it back.  A retired one cannot type new fields. -/
def setDataTypeActive (r : Registry) (id : DataTypeId) (active : Bool) (now : Int) :
    Except RegistryError (DataType × Registry) := do
  let (t, catalog) ← r.catalog.update id fun t => { t with isActive := active, updatedAt := now }
  return (t, { r with catalog }.bump)

/-- Removes a data type and every field of it, and gives the fields back. -/
def deleteDataType (r : Registry) (id : DataTypeId) :
    Except RegistryError (List Field × Registry) := do
  let catalog ← r.catalog.remove id
  let (removed, fields) := r.fields.removeTyped id
  return (removed, { r with catalog, fields }.bump)

/-! ## Modules -/

def createModule (r : Registry) (id : ModuleId) (name : String) (now : Int) :
    Except RegistryError (Module × Registry) := do
  let (m, graph) ← r.graph.create id name now
  return (m, { r with graph }.bump)

def getModule (r : Registry) (id : ModuleId) : Except RegistryError Module := r.graph.get id

def hasModule (r : Registry) (id : ModuleId) : Bool := r.graph.contains id

def listModules (r : Registry) : List Module := r.graph.list

def renameModule (r : Registry) (id : ModuleId) (name : String) (now : Int) :
    Except RegistryError (Module × Registry) := do
  let (m, graph) ← r.graph.rename id name now
  return (m, { r with graph }.bump)

/-- Replaces the relationships of a module, all of them or none. -/
def setRelationships (r : Registry) (id : ModuleId) (relationships : List Relationship)
    (now : Int) : Except RegistryError (Module × Registry) := do
  let (m, graph) ← r.graph.setRelationships id relationships now
  return (m, { r with graph }.bump)

def deleteModule (r : Registry) (id : ModuleId) : Except RegistryError (Module × Registry) := do
  let (m, graph) ← r.graph.remove id
  return (m, { r with graph, fields := (r.fields.removeOf id).2 }.bump)

def relationshipsFrom (r : Registry) (id : ModuleId) : List Relationship :=
  r.graph.relationshipsFrom id

def relationshipCount (r : Registry) : Nat := r.graph.relationshipCount

/-! ## Fields -/

def createField (r : Registry) (d : FieldDraft) (fresh : FieldId) (now : Int) :
    Except RegistryError (Field × Registry) := do
  if !r.graph.contains d.module then .error (.moduleMissing d.module)
  else
    let f ← r.fields.build r.catalog d fresh now
    return (f, { r with fields := r.fields.insert f }.bump)

def listFields (r : Registry) (module : ModuleId) : List Field := r.fields.list module

def getField? (r : Registry) (module : ModuleId) (id : FieldId) : Option Field :=
  r.fields.get? module id

def getFieldByName? (r : Registry) (module : ModuleId) (name : String) : Option Field :=
  r.fields.getByName? module name

def labelField? (r : Registry) (module : ModuleId) : Option Field := r.fields.label? module

def setLabel (r : Registry) (module : ModuleId) (id : FieldId) (now : Int) :
    Except RegistryError (Field × Registry) := do
  let (f, fields) ← r.fields.setLabel module id now
  return (f, { r with fields }.bump)

def deleteFieldsOf (r : Registry) (module : ModuleId) : List Field × Registry :=
  let (removed, fields) := r.fields.removeOf module
  (removed, { r with fields }.bump)

/-- The kinds of the data types that fields and their subfields refer to, as far as known. -/
def kindsFor (r : Registry) (fields : List Field) : Assoc DataTypeId Kind :=
  let types := fields.flatMap fun f =>
    f.dataType :: (f.subfields.getD []).map fun s => s.dataType
  types.foldl (fun kinds id =>
    match r.kindOf id with
    | some k => Assoc.put id k kinds
    | none => kinds) []

end Registry
end RecordRules
