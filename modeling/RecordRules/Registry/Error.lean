/-
What can be wrong with a change of the registry.
-/
import RecordRules.Rule

namespace RecordRules

/-- What is wrong with a binding. -/
inductive BindingFault where
  | badAddress (e : AddressError)
  | outside (address : String) (module : ModuleId)
  | emptyTarget
deriving DecidableEq

def BindingFault.message : BindingFault → String
  | badAddress e => e.message
  | outside address module => s!"{address} is outside target module {module.text}"
  | emptyTarget => "match binding has an empty targetField"

/-- What is wrong with a rule. -/
inductive RuleFault where
  | missingTarget (action : Action)
  | badAddress (e : AddressError)
  | outside (address : String) (module : ModuleId)
  | badBinding (fault : BindingFault)
deriving DecidableEq

def RuleFault.message : RuleFault → String
  | missingTarget action => s!"{action.name} needs a targetField"
  | badAddress e => e.message
  | outside address module => s!"{address} is outside target module {module.text}"
  | badBinding fault => s!"binding: {fault.message}"

/-- What is wrong with a relationship of a list. -/
inductive RelationshipFault where
  | wrongBase (base module : ModuleId)
  | unknownTarget (target : ModuleId)
  | badBinding (fault : BindingFault)
  | badRule (event : Event) (index : Nat) (fault : RuleFault)
deriving DecidableEq

def RelationshipFault.message (index : Nat) : RelationshipFault → String
  | wrongBase base module =>
    s!"relationship {index} has base module {base.text} but belongs to {module.text}"
  | unknownTarget target => s!"relationship {index} targets unknown module {target.text}"
  | badBinding fault => s!"relationship {index} binding: {fault.message}"
  | badRule event rule fault =>
    s!"relationship {index} {event.name} rule {rule}: {fault.message}"

/-- What is wrong with a declared subfield. -/
inductive SubfieldFault where
  | unnamed
  | declaredTwice (name : String)
  | unknownType (name : String) (type : DataTypeId)
  | isArray (name : String)
deriving DecidableEq

def SubfieldFault.message (field : String) : SubfieldFault → String
  | unnamed => s!"item subfield of {Text.quoted field} needs a name"
  | declaredTwice name =>
    s!"item subfield {Text.quoted name} of {Text.quoted field} is declared twice"
  | unknownType name type =>
    s!"item subfield {Text.quoted name} of {Text.quoted field} has unknown data type {type.text}"
  | isArray name =>
    s!"item subfield {Text.quoted name} of {Text.quoted field} cannot itself be an array"

inductive Named where
  | dataType
  | module
  | field
deriving DecidableEq

def Named.noun : Named → String
  | dataType => "data type"
  | module => "module"
  | field => "field"

def maxNameLength : Nat := 100

/-- Why the registry refuses a request. -/
inductive RegistryError where
  | nameMissing (what : Named)
  | nameTooLong (what : Named)
  | invalidKind (e : InvalidKind)
  | duplicateDataType (id : DataTypeId)
  | duplicateModule (id : ModuleId)
  | duplicateField (id : FieldId)
  | strayRelationship (module base : ModuleId)
  | strayField (field : FieldId) (module : ModuleId)
  | moduleMissing (id : ModuleId)
  | nameTaken (module : ModuleId) (name : String)
  | unknownDataType (id : DataTypeId)
  | inactiveDataType (id : DataTypeId)
  | subfieldsOfKind (field : String) (kind : Kind)
  | badSubfield (field : String) (fault : SubfieldFault)
  | badRelationship (index : Nat) (fault : RelationshipFault)
  | dataTypeNotFound (id : DataTypeId)
  | moduleNotFound (id : ModuleId)
  | fieldNotFound (field : FieldId) (module : ModuleId)
  /-- The text of a snapshot does not read as one. -/
  | unreadable
deriving DecidableEq

namespace RegistryError

def isNotFound : RegistryError → Bool
  | dataTypeNotFound _ | moduleNotFound _ | fieldNotFound _ _ => true
  | _ => false

/-- What is wrong, without the class of the error. -/
def detail : RegistryError → String
  | nameMissing what => s!"{what.noun} name is required"
  | nameTooLong what => s!"{what.noun} name cannot exceed {maxNameLength} characters"
  | invalidKind e => e.message
  | duplicateDataType id => s!"duplicate data type id {id.text}"
  | duplicateModule id => s!"duplicate module id {id.text}"
  | duplicateField id => s!"duplicate field id {id.text}"
  | strayRelationship module base =>
    s!"relationship of module {module.text} has base module {base.text}"
  | strayField field module => s!"field {field.text} belongs to unknown module {module.text}"
  | moduleMissing id => s!"module {id.text} does not exist"
  | nameTaken module name =>
    s!"module {module.text} already has a field named {Text.quoted name}"
  | unknownDataType id => s!"unknown data type {id.text}"
  | inactiveDataType id => s!"data type {id.text} is inactive"
  | subfieldsOfKind field kind =>
    s!"type schema given for field {Text.quoted field} of kind {kind.name}"
  | badSubfield field fault => fault.message field
  | badRelationship index fault => fault.message index
  | dataTypeNotFound id => s!"data type {id.text}"
  | moduleNotFound id => s!"module {id.text}"
  | fieldNotFound field module => s!"field {field.text} of module {module.text}"
  | unreadable => "snapshot does not read"

def message (e : RegistryError) : String :=
  match e with
  | unreadable => s!"serialization error: {e.detail}"
  | e => if e.isNotFound then s!"not found: {e.detail}" else s!"validation error: {e.detail}"

end RegistryError

/-- A name without the blanks around it, if it is neither empty nor too long. -/
def cleanName (what : Named) (name : String) : Except RegistryError String :=
  let name := Text.trimmed name
  if name.isEmpty then .error (.nameMissing what)
  else if maxNameLength < name.length then .error (.nameTooLong what)
  else .ok name

end RecordRules
