/-
Changes of a registry made in place.

The operations that change a registry are written out here as they are done to what is stored: one
part is written after the other, and each check stands where it is made.  A check that fails ends
the operation there and then, and what has been written so far stays written.
-/
import RecordRules.Registry.Basic

namespace RecordRules

/-- A change of something that is stored.  It may end early, and then leaves what it has written. -/
abbrev InPlace (σ α : Type) := EStateM RegistryError σ α

namespace InPlace

variable {σ τ α : Type}

/-- Goes on with an answer, or ends early. -/
def check : Except RegistryError α → InPlace σ α
  | .ok a => pure a
  | .error e => throw e

/-- What a change leaves, whether it ends early or not. -/
def leaves (x : InPlace σ α) (s : σ) : σ :=
  match x s with
  | .ok _ s' => s'
  | .error _ s' => s'

/-- A change of a part, made in the whole. -/
def within (part : τ → σ) (put : σ → τ → τ) (x : InPlace σ α) : InPlace τ α := fun t =>
  match x (part t) with
  | .ok a s => .ok a (put s t)
  | .error e s => .error e (put s t)

/-! ## The catalog -/

namespace Types

def create (name kind : String) (fresh : DataTypeId) (now : Int) :
    InPlace Catalog DataType := do
  let name ← check (cleanName .dataType name)
  match Kind.parse kind with
  | .error e => throw (.invalidKind e)
  | .ok kind =>
    let t : DataType :=
      { id := fresh, name, kind, description := none, isActive := true, createdAt := now
        updatedAt := now }
    modify fun c => (⟨c.types.filter fun u => u.id ≠ fresh⟩ : Catalog).add t
    return t

/-- Writes one thing about a data type. -/
def amend (id : DataTypeId) (change : DataType → DataType) : InPlace Catalog Unit :=
  modify fun c => ⟨c.types.map fun u => if u.id = id then change u else u⟩

def rename (id : DataTypeId) (name : String) (now : Int) : InPlace Catalog DataType := do
  let name ← check (cleanName .dataType name)
  let t ← check ((← get).get id)
  amend id fun t => { t with name }
  amend id fun t => { t with updatedAt := now }
  return { t with name, updatedAt := now }

def setActive (id : DataTypeId) (active : Bool) (now : Int) : InPlace Catalog DataType := do
  let t ← check ((← get).get id)
  amend id fun t => { t with isActive := active }
  amend id fun t => { t with updatedAt := now }
  return { t with isActive := active, updatedAt := now }

def remove (id : DataTypeId) : InPlace Catalog Unit := do
  let _ ← check ((← get).get id)
  modify fun c => ⟨c.types.filter fun t => t.id ≠ id⟩

end Types

/-! ## The graph -/

namespace Graph

/-- Where the slot of a module stands, and what is in it. -/
def slot (id : ModuleId) : InPlace ModuleGraph (Nat × Slot) := do
  let g ← get
  match Assoc.get? id g.index with
  | none => throw (.moduleNotFound id)
  | some i =>
    match (g.slots[i]?).join with
    | none => throw (.moduleNotFound id)
    | some s => return (i, s)

def fill (i : Nat) (s : Option Slot) : InPlace ModuleGraph Unit :=
  modify fun g => { g with slots := g.slots.set i s }

def insert (m : Module) : InPlace ModuleGraph Unit := do
  if (← get).contains m.id then throw (.duplicateModule m.id)
  else
    match m.relationships.find? fun r => r.base ≠ m.id with
    | some r => throw (.strayRelationship m.id r.base)
    | none =>
      modify fun g =>
        { g with relationshipCount := g.relationshipCount + m.relationships.length }
      modify fun g => { g with index := Assoc.put m.id g.slots.length g.index }
      modify fun g => { g with slots := g.slots ++ [some ⟨m, m.relationships⟩] }

def create (id : ModuleId) (name : String) (now : Int) : InPlace ModuleGraph Module := do
  let name ← check (cleanName .module name)
  let m : Module := { id, name, relationships := [], createdAt := now, updatedAt := now }
  insert m
  return m

def rename (id : ModuleId) (name : String) (now : Int) : InPlace ModuleGraph Module := do
  let name ← check (cleanName .module name)
  let (i, s) ← slot id
  fill i (some { s with module := { s.module with name } })
  let m := { s.module with name, updatedAt := now }
  fill i (some { s with module := m })
  return m

def setRelationships (id : ModuleId) (relationships : List Relationship) (now : Int) :
    InPlace ModuleGraph Module := do
  if !(← get).contains id then throw (.moduleMissing id)
  else
    check ((← get).checkRelationships id 0 relationships)
    let (i, s) ← slot id
    fill i (some { s with outgoing := relationships })
    fill i (some ⟨{ s.module with relationships }, relationships⟩)
    let m := { s.module with relationships, updatedAt := now }
    fill i (some ⟨m, relationships⟩)
    modify fun g => { g with
      relationshipCount :=
        g.relationshipCount - s.module.relationships.length + relationships.length }
    return m

/-- Removes a module.  Its entry of the index goes first, and only then is its slot looked at. -/
def remove (id : ModuleId) : InPlace ModuleGraph Module := do
  match Assoc.get? id (← get).index with
  | none => throw (.moduleNotFound id)
  | some i =>
    modify fun g => { g with index := Assoc.erase id g.index }
    match ((← get).slots[i]?).join with
    | none => throw (.moduleNotFound id)
    | some s =>
      fill i none
      modify fun g =>
        { g with relationshipCount := g.relationshipCount - s.module.relationships.length }
      return s.module

end Graph

/-! ## The fields -/

namespace Fields

/-- Writes the fields of a module. -/
def keepList (module : ModuleId) (fields : List Field) : InPlace FieldTable Unit :=
  modify fun t => { t with byModule := Assoc.put module fields t.byModule }

def insert (f : Field) : InPlace FieldTable Unit := do
  keepList f.module ((← get).list f.module)
  if f.isLabel then
    keepList f.module (((← get).list f.module).map fun g => { g with isLabel := false })
  modify fun t => { t with owners := Assoc.put f.id f.module t.owners }
  keepList f.module ((← get).list f.module ++ [f])

/-- Moves the label of a module.  The new label is looked for before the move and after it. -/
def setLabel (module : ModuleId) (id : FieldId) (now : Int) : InPlace FieldTable Field := do
  match (← get).get? module id with
  | none => throw (.fieldNotFound id module)
  | some _ =>
    keepList module (((← get).list module).map (FieldTable.relabelled id now))
    match (← get).get? module id with
    | none => throw (.fieldNotFound id module)
    | some f => return f

def removeOf (module : ModuleId) : InPlace FieldTable (List Field) := do
  let removed := (← get).list module
  modify fun t => { t with byModule := Assoc.erase module t.byModule }
  modify fun t => { t with owners := FieldTable.disown removed t.owners }
  return removed

def removeTyped (type : DataTypeId) : InPlace FieldTable (List Field) := do
  let removed := (← get).byModule.flatMap fun (_, fields) =>
    fields.filter fun f => f.dataType = type
  modify fun t => { t with
    byModule := t.byModule.map fun (module, fields) =>
      (module, fields.filter fun f => f.dataType ≠ type) }
  modify fun t => { t with owners := FieldTable.disown removed t.owners }
  return removed

end Fields

/-! ## The registry -/

def onCatalog : InPlace Catalog α → InPlace Registry α :=
  within Registry.catalog fun catalog r => { r with catalog }

def onGraph : InPlace ModuleGraph α → InPlace Registry α :=
  within Registry.graph fun graph r => { r with graph }

def onFields : InPlace FieldTable α → InPlace Registry α :=
  within Registry.fields fun fields r => { r with fields }

def createDataType (name kind : String) (fresh : DataTypeId) (now : Int) :
    InPlace Registry DataType := do
  let t ← onCatalog (Types.create name kind fresh now)
  modify Registry.bump
  return t

def renameDataType (id : DataTypeId) (name : String) (now : Int) : InPlace Registry DataType := do
  let t ← onCatalog (Types.rename id name now)
  modify Registry.bump
  return t

def setDataTypeActive (id : DataTypeId) (active : Bool) (now : Int) :
    InPlace Registry DataType := do
  let t ← onCatalog (Types.setActive id active now)
  modify Registry.bump
  return t

def deleteDataType (id : DataTypeId) : InPlace Registry (List Field) := do
  onCatalog (Types.remove id)
  let removed ← onFields (Fields.removeTyped id)
  modify Registry.bump
  return removed

def createModule (id : ModuleId) (name : String) (now : Int) : InPlace Registry Module := do
  let m ← onGraph (Graph.create id name now)
  modify Registry.bump
  return m

def renameModule (id : ModuleId) (name : String) (now : Int) : InPlace Registry Module := do
  let m ← onGraph (Graph.rename id name now)
  modify Registry.bump
  return m

def setRelationships (id : ModuleId) (relationships : List Relationship) (now : Int) :
    InPlace Registry Module := do
  let m ← onGraph (Graph.setRelationships id relationships now)
  modify Registry.bump
  return m

def deleteModule (id : ModuleId) : InPlace Registry Module := do
  let m ← onGraph (Graph.remove id)
  let _ ← onFields (Fields.removeOf id)
  modify Registry.bump
  return m

def createField (d : FieldDraft) (fresh : FieldId) (now : Int) : InPlace Registry Field := do
  let r ← get
  if !r.graph.contains d.module then throw (.moduleMissing d.module)
  else
    let f ← check (r.fields.build r.catalog d fresh now)
    onFields (Fields.insert f)
    modify Registry.bump
    return f

def setLabel (module : ModuleId) (id : FieldId) (now : Int) : InPlace Registry Field := do
  let f ← onFields (Fields.setLabel module id now)
  modify Registry.bump
  return f

def deleteFieldsOf (module : ModuleId) : InPlace Registry (List Field) := do
  let removed ← onFields (Fields.removeOf module)
  modify Registry.bump
  return removed

end InPlace
end RecordRules
