/-
Data types.

A data type is an entry of the catalog that fields refer to.  Its name may change and it may be
retired, but its kind stays.
-/
import RecordRules.Ident
import RecordRules.Kind
import RecordRules.Json.Document

namespace RecordRules

def Ident.ofJson? {subject : Subject} : Json.Reader (Ident subject) :=
  fun v => (Json.Reader.string v).bind Ident.ofString?

def Ident.toJson {subject : Subject} (id : Ident subject) : Json := .string id.text

def Kind.ofJson? : Json.Reader Kind := Json.Reader.choice Kind.ofName?

def Kind.toJson (k : Kind) : Json := .string k.name

/-- An entry of the type catalog. -/
structure DataType where
  id : DataTypeId
  name : String
  kind : Kind
  description : Option String
  isActive : Bool
  createdAt : Int
  updatedAt : Int
deriving DecidableEq

namespace DataType

def ofJson? (v : Json.Tree) : Option DataType := do
  let [id, name, kind, description, isActive, createdAt, updatedAt] ← Json.parts?
    [["id"], ["name"], ["kind", "type"], ["description"], ["isActive"], ["createdAt"],
      ["updatedAt"]] v | none
  return {
    id := ← Json.required Ident.ofJson? id
    name := ← Json.required .string name
    kind := ← Json.required Kind.ofJson? kind
    description := ← Json.optional .string description
    isActive := ← Json.defaulted true .bool isActive
    createdAt := ← Json.defaulted 0 .int createdAt
    updatedAt := ← Json.defaulted 0 .int updatedAt }

def toJson (t : DataType) : Json :=
  Json.document [
    Json.part "id" t.id.toJson,
    Json.part "name" (.string t.name),
    Json.part "kind" t.kind.toJson,
    Json.optionalPart "description" (t.description.map .string),
    Json.part "isActive" (.bool t.isActive),
    Json.part "createdAt" (.ofInt t.createdAt),
    Json.part "updatedAt" (.ofInt t.updatedAt)]

end DataType
end RecordRules
