/-
Modules, relationships and rules.

A module owns relationships that lead from it to target modules.  A relationship lists rules for
each event of a record of its base module; a rule says what to do to records of the target module,
and its binding, or that of the relationship, says to which.
-/
import RecordRules.Event
import RecordRules.Address

namespace RecordRules

/-! ## Actions -/

/-- What a rule does.  A name that is not known is kept, and such a rule is skipped. -/
inductive Action where
  | increment
  | decrement
  | set
  | multiply
  | divide
  | snapshot
  | cascadeDelete
  | validate
  | other (name : String)
deriving DecidableEq

namespace Action

def name : Action → String
  | increment => "increment"
  | decrement => "decrement"
  | set => "set"
  | multiply => "multiply"
  | divide => "divide"
  | snapshot => "snapshot"
  | cascadeDelete => "cascadeDelete"
  | validate => "validate"
  | other name => name

def ofName (s : String) : Action :=
  if s = "increment" then increment
  else if s = "decrement" then decrement
  else if s = "set" then set
  else if s = "multiply" then multiply
  else if s = "divide" then divide
  else if s = "snapshot" then snapshot
  else if s = "cascadeDelete" ∨ s = "cascade_delete" ∨ s = "cascadedelete" then cascadeDelete
  else if s = "validate" then validate
  else other s

def needsTarget : Action → Bool
  | cascadeDelete | other _ => false
  | _ => true

def isKnown : Action → Bool
  | other _ => false
  | _ => true

def ofJson? : Json.Reader Action := fun v => (Json.Reader.string v).map ofName

def toJson (a : Action) : Json := .string a.name

end Action

/-! ## Bindings -/

/-- Which records of the target module a rule is about. -/
inductive Binding where
  /-- The only record of the module. -/
  | sole
  | record (id : RecordId)
  /-- The record of the same identifier as the one at hand. -/
  | source
  /-- The record whose identifier a source holds. -/
  | foreignKey (source : String)
  /-- Every record whose target field equals what a source holds. -/
  | byMatch (source target : String)
deriving DecidableEq

namespace Binding

def keySource? : Binding → Option String
  | foreignKey key | byMatch key _ => some key
  | _ => none

def ofParts? (kind : String) (rest : Json.Tree) : Option Binding :=
  if kind = "sole" then unit sole rest
  else if kind = "record" then do
    let [id] ← Json.parts? [["recordId"]] rest | none
    return record (← Json.required Ident.ofJson? id)
  else if kind = "source" then unit source rest
  else if kind = "foreignKey" then do
    let [key] ← Json.parts? [["sourceField"]] rest | none
    return foreignKey (← Json.required .string key)
  else if kind = "match" then do
    let [key, target] ← Json.parts? [["sourceField"], ["targetField"]] rest | none
    return byMatch (← Json.required .string key) (← Json.required .string target)
  else none
where
  unit (b : Binding) : Json.Tree → Option Binding
    | .array (_ :: _) => none
    | _ => some b

/-- Reads a binding: an object with a member `kind`, or an array that starts with the kind.  The
kind may stand last, so that every member has to be readable, also one that the kind ignores. -/
def ofJson? : Json.Reader Binding := .whole fun
  | .object members => do
    let kind ← Json.required .string (← Json.soleMember? ["kind"] members)
    ofParts? kind (.object (members.filter fun m => m.1 != "kind"))
  | .array (kind :: rest) => do ofParts? (← Json.Reader.string kind) (.array rest)
  | _ => none

def toJson : Binding → Json
  | sole => Json.document [kind "sole"]
  | record id => Json.document [kind "record", Json.part "recordId" id.toJson]
  | source => Json.document [kind "source"]
  | foreignKey key => Json.document [kind "foreignKey", Json.part "sourceField" (.string key)]
  | byMatch key target =>
    Json.document [kind "match", Json.part "sourceField" (.string key),
      Json.part "targetField" (.string target)]
where
  kind (name : String) : Option (String × Json) := Json.part "kind" (.string name)

end Binding

/-! ## Rules -/

/-- One rule: an action with its addresses and operands. -/
structure Rule where
  action : Action
  source : Option String
  target : Option String
  value : Option Json
  delta : Option Json
  /-- The fields that a snapshot keeps; none listed means all. -/
  fields : List String
  binding : Option Binding

namespace Rule

def ofAction (action : Action) : Rule :=
  { action, source := none, target := none, value := none, delta := none, fields := []
    binding := none }

def ofJson? (v : Json.Tree) : Option Rule := do
  let [action, source, target, value, delta, fields, binding] ← Json.parts?
    [["action"], ["sourceField"], ["targetField"], ["value"], ["delta"], ["fields"],
      ["binding"]] v | none
  return {
    action := ← Json.required Action.ofJson? action
    source := ← Json.optional .string source
    target := ← Json.optional .string target
    value := ← Json.optional .any value
    delta := ← Json.optional .any delta
    fields := ← Json.defaulted [] (.list .string) fields
    binding := ← Json.optional Binding.ofJson? binding }

def toJson (r : Rule) : Json :=
  Json.document [
    Json.part "action" r.action.toJson,
    Json.optionalPart "sourceField" (r.source.map .string),
    Json.optionalPart "targetField" (r.target.map .string),
    Json.optionalPart "value" r.value,
    Json.optionalPart "delta" r.delta,
    Json.listPart "fields" (r.fields.map .string),
    Json.optionalPart "binding" (r.binding.map Binding.toJson)]

end Rule

/-- The rules of a relationship, listed by event. -/
structure RuleLists where
  onCreate : List Rule
  onUpdate : List Rule
  onDelete : List Rule

namespace RuleLists

def empty : RuleLists := ⟨[], [], []⟩

/-- The rules for an event, in the order in which they run. -/
def get (lists : RuleLists) : Event → List Rule
  | .create => lists.onCreate
  | .update => lists.onUpdate
  | .delete => lists.onDelete

/-- One more rule at the end of the list for an event. -/
def append (lists : RuleLists) (event : Event) (rule : Rule) : RuleLists :=
  match event with
  | .create => { lists with onCreate := lists.onCreate ++ [rule] }
  | .update => { lists with onUpdate := lists.onUpdate ++ [rule] }
  | .delete => { lists with onDelete := lists.onDelete ++ [rule] }

def count (lists : RuleLists) : Nat :=
  lists.onCreate.length + lists.onUpdate.length + lists.onDelete.length

def ofJson? (v : Json.Tree) : Option RuleLists := do
  let [onCreate, onUpdate, onDelete] ← Json.parts? [["onCreate"], ["onUpdate"], ["onDelete"]] v
    | none
  return {
    onCreate := ← Json.defaulted [] (.list Rule.ofJson?) onCreate
    onUpdate := ← Json.defaulted [] (.list Rule.ofJson?) onUpdate
    onDelete := ← Json.defaulted [] (.list Rule.ofJson?) onDelete }

def toJson (lists : RuleLists) : Json :=
  Json.document [
    Json.listPart "onCreate" (lists.onCreate.map Rule.toJson),
    Json.listPart "onUpdate" (lists.onUpdate.map Rule.toJson),
    Json.listPart "onDelete" (lists.onDelete.map Rule.toJson)]

end RuleLists

/-! ## Relationships and modules -/

/-- An edge from a base module to a target module, which may be the same one. -/
structure Relationship where
  id : Option String
  base : ModuleId
  target : ModuleId
  binding : Binding
  rules : RuleLists

namespace Relationship

def between (base target : ModuleId) : Relationship :=
  { id := none, base, target, binding := .sole, rules := .empty }

def addRule (r : Relationship) (event : Event) (rule : Rule) : Relationship :=
  { r with rules := r.rules.append event rule }

def ofJson? (v : Json.Tree) : Option Relationship := do
  let [id, base, target, binding, rules] ← Json.parts?
    [["relationshipId"], ["baseModule"], ["targetModule"], ["binding"], ["eventRules"]] v | none
  return {
    id := ← Json.optional .string id
    base := ← Json.required Ident.ofJson? base
    target := ← Json.required Ident.ofJson? target
    binding := ← Json.defaulted .sole Binding.ofJson? binding
    rules := ← Json.defaulted .empty RuleLists.ofJson? rules }

def toJson (r : Relationship) : Json :=
  Json.document [
    Json.optionalPart "relationshipId" (r.id.map .string),
    Json.part "baseModule" r.base.toJson,
    Json.part "targetModule" r.target.toJson,
    Json.part "binding" r.binding.toJson,
    Json.part "eventRules" r.rules.toJson]

def listOfJson? : Json.Reader (List Relationship) := .list ofJson?

def listToJson (rs : List Relationship) : Json := .array (rs.map toJson)

end Relationship

/-- A module with the relationships that lead from it. -/
structure Module where
  id : ModuleId
  name : String
  relationships : List Relationship
  createdAt : Int
  updatedAt : Int

namespace Module

def ofJson? (v : Json.Tree) : Option Module := do
  let [id, name, relationships, createdAt, updatedAt] ← Json.parts?
    [["id"], ["name"], ["relationships"], ["createdAt"], ["updatedAt"]] v | none
  return {
    id := ← Json.required Ident.ofJson? id
    name := ← Json.required .string name
    relationships := ← Json.defaulted [] Relationship.listOfJson? relationships
    createdAt := ← Json.defaulted 0 .int createdAt
    updatedAt := ← Json.defaulted 0 .int updatedAt }

def toJson (m : Module) : Json :=
  Json.document [
    Json.part "id" m.id.toJson,
    Json.part "name" (.string m.name),
    Json.part "relationships" (Relationship.listToJson m.relationships),
    Json.part "createdAt" (.ofInt m.createdAt),
    Json.part "updatedAt" (.ofInt m.updatedAt)]

end Module
end RecordRules
