/-
Addresses of fields.

A target address `$module-$field` names a field of a module from anywhere; the marks cannot occur
in identifiers, so no two pairs share an address.  A source address names a field of the record at
hand or, as `item.name`, a subfield of every element of an array field.
-/
import RecordRules.Record

namespace RecordRules

/-- Why an address does not read or does not lead anywhere. -/
inductive AddressError where
  | malformed (text : String)
  | noArrayField (subfield : String)
  | notAnArray (field : String)
deriving DecidableEq

def AddressError.message : AddressError → String
  | malformed text => s!"malformed field reference: {Text.quoted text}"
  | noArrayField subfield => s!"no array field declares item subfield {Text.quoted subfield}"
  | notAnArray field => s!"field {Text.quoted field} does not hold an array"

/-! ## Targets -/

/-- A field of a module. -/
structure Target where
  module : ModuleId
  field : FieldId
deriving DecidableEq

namespace Target

def text (t : Target) : String := s!"${t.module.text}-${t.field.text}"

/-- The pieces of a text between the marks `-$`. -/
def pieces : List Char → List (List Char)
  | [] => [[]]
  | '-' :: '$' :: rest => [] :: pieces rest
  | c :: rest =>
    match pieces rest with
    | [] => [[c]]
    | piece :: others => (c :: piece) :: others

/-- Reads an address: a dollar sign, then two identifiers with `-$` between them. -/
def parse? (s : String) : Option Target :=
  match s.toList with
  | '$' :: body =>
    match pieces body with
    | [module, field] => do
      return ⟨← Ident.ofString? (String.ofList module), ← Ident.ofString? (String.ofList field)⟩
    | _ => none
  | _ => none

def parse (s : String) : Except AddressError Target :=
  match parse? s with
  | some t => .ok t
  | none => .error (.malformed s)

def ofJson? : Json.Reader Target := fun v => (Json.Reader.string v).bind parse?

def toJson (t : Target) : Json := .string t.text

end Target

/-! ## Sources -/

/-- Where a rule reads on the record at hand. -/
inductive Source where
  /-- A field of the record.  Where no field is called `id`, this name stands for the record's
  identifier. -/
  | field (name : String)
  | item (subfield : String)
deriving DecidableEq

/-- One element of an array that a source goes through. -/
structure Item where
  index : Nat
  element : Json
  value : Option Json

namespace Source

def afterItem? : List Char → Option (List Char)
  | 'i' :: 't' :: 'e' :: 'm' :: '.' :: rest => some rest
  | _ => none

/-- Reads a source.  Blanks around it are dropped, and the name of a subfield is not empty and has
no point in it. -/
def parse (s : String) : Except AddressError Source :=
  let text := Text.trim s.toList
  if text.isEmpty then .error (.malformed (String.ofList text))
  else
    match afterItem? text with
    | some name =>
      if name.isEmpty || name.contains '.' then .error (.malformed (String.ofList text))
      else .ok (item (String.ofList name))
    | none => .ok (field (String.ofList text))

def isItem : Source → Bool
  | item _ => true
  | field _ => false

def text : Source → String
  | field name => name
  | item subfield => "item." ++ subfield

end Source

namespace Record

/-- The value of a field, or the identifier under the name `id` if no field has it. -/
def read? (r : Record) (name : String) : Option Json :=
  match r.get? name with
  | some v => some v
  | none => if name = "id" then some (.string r.id.text) else none

def readFrom? (r : Record) (element : Option Json) : Source → Option Json
  | .field name => r.read? name
  | .item subfield => element.bind fun e => e.get? subfield

def itemsOf (subfield : String) : (index : Nat) → List Json → List Item
  | _, [] => []
  | index, e :: rest => ⟨index, e, e.get? subfield⟩ :: itemsOf subfield (index + 1) rest

/-- The array field that declares a subfield, the first of them in the order of the fields, and the
elements that the record has there. -/
def items (r : Record) (subfield : String) (fields : List Field) :
    Except AddressError (String × List Item) :=
  match fields.find? fun f => (f.subfield? subfield).isSome with
  | none => .error (.noArrayField subfield)
  | some f =>
    match r.get? f.name with
    | none | some .null => .ok (f.name, [])
    | some (.array elements) => .ok (f.name, itemsOf subfield 0 elements)
    | some _ => .error (.notAnArray f.name)

end Record

/-- What a source gives on a record. -/
inductive SourceValue where
  | single (value : Option Json)
  | items (field : String) (items : List Item)

/-- Reads a source on a record of a module with the given fields. -/
def Record.resolve (r : Record) (fields : List Field) : Source → Except AddressError SourceValue
  | .field name => .ok (.single (r.read? name))
  | .item subfield => (r.items subfield fields).map fun (field, items) => .items field items

end RecordRules
