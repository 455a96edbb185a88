/-
The module graph.

Modules stand in slots, each with a copy of its relationships for the evaluator, and an index leads
from identifiers to slots.  A removed module leaves its slot empty, so positions stay what they
are.  Relationships that lead to a removed module stay; the evaluator skips their rules.
-/
import RecordRules.Assoc
import RecordRules.Registry.Error

namespace RecordRules

/-- A module and the relationships that lead from it. -/
structure Slot where
  module : Module
  outgoing : List Relationship

/-- The modules of a registry. -/
structure ModuleGraph where
  slots : List (Option Slot)
  index : Assoc ModuleId Nat
  relationshipCount : Nat

namespace ModuleGraph

def empty : ModuleGraph := ⟨[], [], 0⟩

/-! ## Looking up -/

def contains (g : ModuleGraph) (id : ModuleId) : Bool := (Assoc.get? id g.index).isSome

def slot? (g : ModuleGraph) (id : ModuleId) : Option Slot :=
  (Assoc.get? id g.index).bind fun i => (g.slots[i]?).join

def get (g : ModuleGraph) (id : ModuleId) : Except RegistryError Module :=
  match g.slot? id with
  | some s => .ok s.module
  | none => .error (.moduleNotFound id)

def list (g : ModuleGraph) : List Module := g.slots.filterMap fun s => s.map (·.module)

/-- The relationships that lead from a module.  A module that is not there has none. -/
def relationshipsFrom (g : ModuleGraph) (id : ModuleId) : List Relationship :=
  ((g.slot? id).map (·.outgoing)).getD []

/-! ## Modules -/

/-- Takes in a module as it is.  Its relationships have to start from it, and may lead anywhere. -/
def insert (g : ModuleGraph) (m : Module) : Except RegistryError ModuleGraph :=
  if g.contains m.id then .error (.duplicateModule m.id)
  else
    match m.relationships.find? fun r => r.base ≠ m.id with
    | some r => .error (.strayRelationship m.id r.base)
    | none => .ok {
        slots := g.slots ++ [some ⟨m, m.relationships⟩]
        index := Assoc.put m.id g.slots.length g.index
        relationshipCount := g.relationshipCount + m.relationships.length }

def create (g : ModuleGraph) (id : ModuleId) (name : String) (now : Int) :
    Except RegistryError (Module × ModuleGraph) := do
  let name ← cleanName .module name
  let m : Module := { id, name, relationships := [], createdAt := now, updatedAt := now }
  return (m, ← g.insert m)

/-- Puts a slot in the place of the slot of a module. -/
def setSlot (g : ModuleGraph) (id : ModuleId) (s : Option Slot) : List (Option Slot) :=
  match Assoc.get? id g.index with
  | some i => g.slots.set i s
  | none => g.slots

def rename (g : ModuleGraph) (id : ModuleId) (name : String) (now : Int) :
    Except RegistryError (Module × ModuleGraph) := do
  let name ← cleanName .module name
  match g.slot? id with
  | none => .error (.moduleNotFound id)
  | some s =>
    let m := { s.module with name, updatedAt := now }
    return (m, { g with slots := g.setSlot id (some { s with module := m }) })

def remove (g : ModuleGraph) (id : ModuleId) : Except RegistryError (Module × ModuleGraph) :=
  match g.slot? id with
  | none => .error (.moduleNotFound id)
  | some s =>
    .ok (s.module, {
      slots := g.setSlot id none
      index := Assoc.erase id g.index
      relationshipCount := g.relationshipCount - s.module.relationships.length })

/-! ## Relationships -/

/-- A target address has to read and to lead into the target module. -/
def checkTarget {ε : Type} (badAddress : AddressError → ε) (outside : String → ModuleId → ε)
    (address : String) (target : ModuleId) : Except ε Unit :=
  match Target.parse address with
  | .error e => .error (badAddress e)
  | .ok t => if t.module = target then .ok () else .error (outside address target)

def checkSource {ε : Type} (badAddress : AddressError → ε) (source : String) : Except ε Unit :=
  match Source.parse source with
  | .error e => .error (badAddress e)
  | .ok _ => .ok ()

/-- The target field of a match: an address, or the name of a field. -/
def checkMatchTarget (address : String) (target : ModuleId) : Except BindingFault Unit :=
  match address.toList with
  | '$' :: _ => checkTarget .badAddress .outside address target
  | _ => if Text.isBlank address then .error .emptyTarget else .ok ()

def checkBinding (b : Binding) (target : ModuleId) : Except BindingFault Unit :=
  match b with
  | .foreignKey key => checkSource .badAddress key
  | .byMatch key field => do
    checkSource .badAddress key
    checkMatchTarget field target
  | _ => .ok ()

/-- Checks the addresses of a rule of a relationship to a target module. -/
def checkRule (r : Rule) (target : ModuleId) : Except RuleFault Unit := do
  match r.target with
  | some address => checkTarget .badAddress .outside address target
  | none => if r.action.needsTarget then .error (.missingTarget r.action) else .ok ()
  match r.source with
  | some source => checkSource .badAddress source
  | none => .ok ()
  match r.binding with
  | some b =>
    match checkBinding b target with
    | .error fault => .error (.badBinding fault)
    | .ok () => .ok ()
  | none => .ok ()

def checkRules (event : Event) (target : ModuleId) :
    (index : Nat) → List Rule → Except RelationshipFault Unit
  | _, [] => .ok ()
  | index, r :: rest =>
    match checkRule r target with
    | .error fault => .error (.badRule event index fault)
    | .ok () => checkRules event target (index + 1) rest

def checkRelationship (g : ModuleGraph) (id : ModuleId) (r : Relationship) :
    Except RelationshipFault Unit := do
  if r.base ≠ id then .error (.wrongBase r.base id)
  else if !g.contains r.target then .error (.unknownTarget r.target)
  else
    match checkBinding r.binding r.target with
    | .error fault => .error (.badBinding fault)
    | .ok () =>
      checkRules .create r.target 0 r.rules.onCreate
      checkRules .update r.target 0 r.rules.onUpdate
      checkRules .delete r.target 0 r.rules.onDelete

def checkRelationships (g : ModuleGraph) (id : ModuleId) :
    (index : Nat) → List Relationship → Except RegistryError Unit
  | _, [] => .ok ()
  | index, r :: rest =>
    match g.checkRelationship id r with
    | .error fault => .error (.badRelationship index fault)
    | .ok () => checkRelationships g id (index + 1) rest

/-- Replaces the relationships of a module, all of them or none. -/
def setRelationships (g : ModuleGraph) (id : ModuleId) (relationships : List Relationship)
    (now : Int) : Except RegistryError (Module × ModuleGraph) := do
  if !g.contains id then .error (.moduleMissing id)
  else
    g.checkRelationships id 0 relationships
    match g.slot? id with
    | none => .error (.moduleNotFound id)
    | some s =>
      let m := { s.module with relationships, updatedAt := now }
      return (m, { g with
        slots := g.setSlot id (some ⟨m, relationships⟩)
        relationshipCount :=
          g.relationshipCount - s.module.relationships.length + relationships.length })

end ModuleGraph
end RecordRules
