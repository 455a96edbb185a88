/-
Fields of modules.

A field is a named attribute with a data type.  A field of kind array may declare the subfields of
its elements, with defaults and constraints.  Records hold their data under field names, and rules
address fields by identifier, so that a renamed field keeps its rules.
-/
import RecordRules.DataType

namespace RecordRules

/-- Limits on the values of a subfield: bounds on numbers, a pattern and a choice for texts. -/
structure Constraints where
  min : Option Binary64.Finite
  max : Option Binary64.Finite
  pattern : Option String
  allowed : Option (List String)
deriving DecidableEq

/-- A subfield of the elements of an array field. -/
structure Subfield where
  name : String
  dataType : DataTypeId
  required : Bool
  default : Option Json
  constraints : Option Constraints

/-- A named attribute of a module. -/
structure Field where
  id : FieldId
  name : String
  module : ModuleId
  dataType : DataTypeId
  isLabel : Bool
  subfields : Option (List Subfield)
  createdAt : Int
  updatedAt : Int

/-- What is asked of a new field.  Without an identifier it gets a fresh one. -/
structure FieldDraft where
  id : Option FieldId
  module : ModuleId
  name : String
  dataType : DataTypeId
  isLabel : Bool
  subfields : Option (List Subfield)

/-! ## Constraints -/

namespace Constraints

def ofJson? (v : Json.Tree) : Option Constraints := do
  let [min, max, pattern, allowed] ← Json.parts? [["min"], ["max"], ["pattern"], ["enum"]] v | none
  return {
    min := ← Json.optional .finite min
    max := ← Json.optional .finite max
    pattern := ← Json.optional .string pattern
    allowed := ← Json.optional (.list .string) allowed }

def toJson (c : Constraints) : Json :=
  Json.document [
    Json.optionalPart "min" (c.min.map fun x => .number (.float x)),
    Json.optionalPart "max" (c.max.map fun x => .number (.float x)),
    Json.optionalPart "pattern" (c.pattern.map .string),
    Json.optionalPart "enum" (c.allowed.map fun texts => .array (texts.map .string))]

end Constraints

/-! ## Subfields -/

namespace Subfield

def ofName (name : String) (dataType : DataTypeId) : Subfield :=
  { name, dataType, required := false, default := none, constraints := none }

def ofJson? (v : Json.Tree) : Option Subfield := do
  let [name, dataType, required, default, constraints] ← Json.parts?
    [["name"], ["dataTypeId", "type"], ["required"], ["defaultValue"], ["validation"]] v | none
  return {
    name := ← Json.required .string name
    dataType := ← Json.required Ident.ofJson? dataType
    required := ← Json.defaulted false .bool required
    default := ← Json.optional .any default
    constraints := ← Json.optional Constraints.ofJson? constraints }

def toJson (s : Subfield) : Json :=
  Json.document [
    Json.part "name" (.string s.name),
    Json.part "dataTypeId" s.dataType.toJson,
    Json.part "required" (.bool s.required),
    Json.optionalPart "defaultValue" s.default,
    Json.optionalPart "validation" (s.constraints.map Constraints.toJson)]

def listOfJson? : Json.Reader (List Subfield) := .list ofJson?

def listToJson (subfields : List Subfield) : Json := .array (subfields.map toJson)

end Subfield

/-! ## Fields -/

namespace Field

def subfield? (f : Field) (name : String) : Option Subfield :=
  f.subfields.bind fun subfields => subfields.find? fun s => s.name == name

def ofJson? (v : Json.Tree) : Option Field := do
  let [id, name, module, dataType, isLabel, subfields, createdAt, updatedAt] ← Json.parts?
    [["id"], ["name"], ["moduleId"], ["dataTypeId", "type"], ["isLabel"], ["typeSchema"],
      ["createdAt"], ["updatedAt"]] v | none
  return {
    id := ← Json.required Ident.ofJson? id
    name := ← Json.required .string name
    module := ← Json.required Ident.ofJson? module
    dataType := ← Json.required Ident.ofJson? dataType
    isLabel := ← Json.defaulted false .bool isLabel
    subfields := ← Json.optional Subfield.listOfJson? subfields
    createdAt := ← Json.defaulted 0 .int createdAt
    updatedAt := ← Json.defaulted 0 .int updatedAt }

def toJson (f : Field) : Json :=
  Json.document [
    Json.part "id" f.id.toJson,
    Json.part "name" (.string f.name),
    Json.part "moduleId" f.module.toJson,
    Json.part "dataTypeId" f.dataType.toJson,
    Json.part "isLabel" (.bool f.isLabel),
    Json.optionalPart "typeSchema" (f.subfields.map Subfield.listToJson),
    Json.part "createdAt" (.ofInt f.createdAt),
    Json.part "updatedAt" (.ofInt f.updatedAt)]

end Field

namespace FieldDraft

def ofName (module : ModuleId) (name : String) (dataType : DataTypeId) : FieldDraft :=
  { id := none, module, name, dataType, isLabel := false, subfields := none }

def ofJson? (v : Json.Tree) : Option FieldDraft := do
  let [id, module, name, dataType, isLabel, subfields] ← Json.parts?
    [["id"], ["moduleId"], ["name"], ["dataTypeId", "type"], ["isLabel"], ["typeSchema"]] v | none
  return {
    id := ← Json.optional Ident.ofJson? id
    module := ← Json.required Ident.ofJson? module
    name := ← Json.required .string name
    dataType := ← Json.required Ident.ofJson? dataType
    isLabel := ← Json.defaulted false .bool isLabel
    subfields := ← Json.optional Subfield.listOfJson? subfields }

def toJson (d : FieldDraft) : Json :=
  Json.document [
    Json.part "id" (.orNull (d.id.map Ident.toJson)),
    Json.part "moduleId" d.module.toJson,
    Json.part "name" (.string d.name),
    Json.part "dataTypeId" d.dataType.toJson,
    Json.part "isLabel" (.bool d.isLabel),
    Json.part "typeSchema" (.orNull (d.subfields.map Subfield.listToJson))]

end FieldDraft
end RecordRules
