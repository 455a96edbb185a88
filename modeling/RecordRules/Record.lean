/-
Records.

A record belongs to a module and holds a JSON object keyed by field name.
-/
import RecordRules.Field
import RecordRules.Value

namespace RecordRules

/-- A record of a module, with the times of its creation and of its last change in milliseconds. -/
structure Record where
  id : RecordId
  module : ModuleId
  data : Json
  createdAt : Int
  updatedAt : Int

namespace Record

def get? (r : Record) (name : String) : Option Json := r.data.get? name

/-- The value of a field as the kind of the field reads it, or as it stands if the kind is not
known. -/
def valueAs? (kind : Option Kind) (raw : Json) : Option Value :=
  match kind with
  | some k => (Value.ofJson k raw).toOption
  | none => some (Value.ofPlainJson raw)

/-- The text that stands for a record: the value of its label field or, if there is none to show,
its identifier. -/
def label (r : Record) (labelField : Option Field) (kind : Option Kind) : String :=
  let shown := do
    let raw ← r.get? (← labelField).name
    let text ← (← valueAs? kind raw).displayText
    if Text.isBlank text then none else some text
  shown.getD r.id.text

def ofJson? (v : Json.Tree) : Option Record := do
  let [id, module, data, createdAt, updatedAt] ← Json.parts?
    [["id"], ["moduleId"], ["data"], ["createdAt"], ["updatedAt"]] v | none
  return {
    id := ← Json.required Ident.ofJson? id
    module := ← Json.required Ident.ofJson? module
    data := ← Json.required .any data
    createdAt := ← Json.required .int createdAt
    updatedAt := ← Json.required .int updatedAt }

def toJson (r : Record) : Json :=
  Json.document [
    Json.part "id" r.id.toJson,
    Json.part "moduleId" r.module.toJson,
    Json.part "data" r.data,
    Json.part "createdAt" (.ofInt r.createdAt),
    Json.part "updatedAt" (.ofInt r.updatedAt)]

/-- Records are ordered by age and, if equally old, by identifier. -/
def before (a b : Record) : Bool :=
  a.createdAt < b.createdAt || (a.createdAt == b.createdAt && a.id.text < b.id.text)

end Record
end RecordRules
