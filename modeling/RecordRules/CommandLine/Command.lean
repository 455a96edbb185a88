/-
Running commands.

`apply` reads a schema, settings and records from files, raises one event of one record and gives
the report; with a database the records come from it and stay in it.  The other commands write
addresses and take them apart.  A command that fails says at which step it did.
-/
import RecordRules.CommandLine.Arguments
import RecordRules.CommandLine.DatabaseName
import RecordRules.CommandLine.Workspace
import RecordRules.Service
import RecordRules.Store.Memory

namespace RecordRules
namespace CommandLine

inductive CommandError where
  | schemaUnreadable (path : String)
  | schemaInvalid (path : String)
  | fileUnreadable (path : String)
  | fileInvalid (path : String)
  | databaseUnusable (path : String)
  | recordNotLoaded (record : RecordId)
  | unknownModule (module : ModuleId)
  | recordNotFound (record : RecordId) (module : ModuleId)
  | dataMissing
  | store (e : StoreError)
  | service (e : ServiceError)
  | address (e : AddressError)
  | addressOfNoModule (text : String)
  | addressOfNoField (text moduleName : String)

def CommandError.message : CommandError → String
  | schemaUnreadable path => s!"Failed to read schema {path}"
  | schemaInvalid path => s!"Invalid schema snapshot {path}"
  | fileUnreadable path => s!"Failed to read {path}"
  | fileInvalid path => s!"Invalid JSON in {path}"
  | databaseUnusable path => s!"Failed to open database {path}"
  | recordNotLoaded record => s!"Failed to load record {record.text}"
  | unknownModule module => s!"Unknown module {module.text}"
  | recordNotFound record module => s!"Record {record.text} not found in module {module.text}"
  | dataMissing => "onUpdate needs --data with the new record data"
  | store e => e.message
  | service e => e.message
  | address e => e.message
  | addressOfNoModule text => s!"Reference {text} names an unknown module"
  | addressOfNoField text moduleName =>
    s!"Reference {text} names an unknown field of {moduleName}"

inductive Output where
  | text (s : String)
  | document (v : Json)

def Output.shown : Output → String
  | text s => s
  | document v => v.layout ""

/-! ## Reading files -/

def readSchema (w : Workspace) (path : String) : Except CommandError Registry :=
  match w.text? path with
  | none => .error (.schemaUnreadable path)
  | some s =>
    match Registry.ofText s with
    | .ok r => .ok r
    | .error _ => .error (.schemaInvalid path)

def readDocument {α : Type} (read : Json.Reader α) (w : Workspace) (path : String) :
    Except CommandError α :=
  match w.text? path with
  | none => .error (.fileUnreadable path)
  | some s =>
    match (Json.Tree.parse? s).bind read with
    | some a => .ok a
    | none => .error (.fileInvalid path)

def readOptional {α : Type} (missing : α) (read : Json.Reader α) (w : Workspace) :
    Option String → Except CommandError α
  | none => .ok missing
  | some path => readDocument read w path

/-! ## Applying an event -/

section

variable {σ : Type} [RecordStore σ]

/-- Puts records into a store, up to the first that is refused, which is given back. -/
def load : List Record → σ → Option RecordId × σ
  | [], store => (none, store)
  | r :: rest, store =>
    match RecordStore.insert store r with
    | .ok store => load rest store
    | .error _ => (some r.id, store)

def requested (s : Service σ) (q : Request) : Except CommandError Record :=
  match s.registry.getModule q.module with
  | .error _ => .error (.unknownModule q.module)
  | .ok _ =>
    match RecordStore.get s.store q.module q.record with
    | .error e => .error (.store e)
    | .ok none => .error (.recordNotFound q.record q.module)
    | .ok (some r) => .ok r

def reported (s : Service σ) (write : Call σ Change) : Except CommandError Report × σ :=
  match write s with
  | .ok change s => (.ok change.report, s.store)
  | .error e s => (.error (.service e), s.store)

/-- Raises the event of a request.  Creation is evaluated as it stands; the other events come with
the write of the record. -/
def raiseEvent (s : Service σ) (t : Timing) (w : Workspace) (q : Request) (r : Record) :
    Except CommandError Report × σ :=
  match q.event, q.data with
  | .create, _ =>
    let (report, store) :=
      evaluate s.registry s.config t.propagating s.store q.module .create r none
    (.ok report, store)
  | .update, none => (.error .dataMissing, s.store)
  | .update, some path =>
    match readDocument .any w path with
    | .error e => (.error e, s.store)
    | .ok data => reported s (Service.updateRecord t q.module q.record data)
  | .delete, _ => reported s (Service.deleteRecord t q.module q.record)

def allRecords (registry : Registry) (store : σ) : Except CommandError (List Record) :=
  match registry.listModules.mapM fun m => RecordStore.list store m.id with
  | .ok records => .ok records.flatten
  | .error e => .error (.store e)

def applyOutput (q : Request) (report : Report) (records : Option (List Record)) : Output :=
  .document (Json.document [
    Json.part "moduleId" q.module.toJson,
    Json.part "recordId" q.record.toJson,
    Json.part "eventType" (.string q.event.name),
    Json.part "report" report.toJson,
    Json.optionalPart "records" (records.map fun rs => .array (rs.map Record.toJson))])

/-- Does a request on the records of a service, which are there afterwards also if it fails. -/
def Request.runOn (q : Request) (s : Service σ) (t : Timing) (w : Workspace) :
    Except CommandError Output × σ :=
  match readOptional [] (.list Record.ofJson?) w q.records with
  | .error e => (.error e, s.store)
  | .ok records =>
    match load records s.store with
    | (some refused, store) => (.error (.recordNotLoaded refused), store)
    | (none, store) =>
      let s := { s with store }
      match requested s q with
      | .error e => (.error e, store)
      | .ok r =>
        match raiseEvent s t w q r with
        | (.error e, store) => (.error e, store)
        | (.ok report, store) =>
          if q.dump then
            ((allRecords s.registry store).map fun rs => applyOutput q report (some rs), store)
          else (.ok (applyOutput q report none), store)

end

/-- Does a request.  Only a database in a file keeps what it does. -/
def Request.run (q : Request) (t : Timing) (w : Workspace) :
    Except CommandError Output × Workspace :=
  match readSchema w q.schema, readOptional Config.standard Config.ofJson? w q.config with
  | .error e, _ => (.error e, w)
  | _, .error e => (.error e, w)
  | .ok registry, .ok config =>
    match q.database with
    | none => ((q.runOn { registry, config, store := MemoryStore.empty } t w).1, w)
    | some name =>
      match DatabasePlace.ofName? name with
      | none => (.error (.databaseUnusable name), w)
      | some .transient => ((q.runOn { registry, config, store := TableStore.empty } t w).1, w)
      | some (.file path mayBeMade) =>
        match w.table? path mayBeMade with
        | none => (.error (.databaseUnusable name), w)
        | some store =>
          let (result, store) := q.runOn { registry, config, store } t (w.put path (.table store))
          (result, w.put path (.table store))

/-! ## Addresses -/

/-- The parts of an address, with the names of the module and the field. -/
def addressOutput (t : Target) (names : Option (String × String)) : Output :=
  .document (Json.document [
    Json.part "moduleId" t.module.toJson,
    Json.part "fieldId" t.field.toJson,
    Json.optionalPart "moduleName" (names.map fun n => .string n.1),
    Json.optionalPart "fieldName" (names.map fun n => .string n.2)])

/-- The names of the module and the field that an address leads to. -/
def namesOf (registry : Registry) (address : String) (t : Target) :
    Except CommandError (String × String) :=
  match registry.getModule t.module with
  | .error _ => .error (.addressOfNoModule address)
  | .ok m =>
    match registry.getField? t.module t.field with
    | none => .error (.addressOfNoField address m.name)
    | some f => .ok (m.name, f.name)

/-- Takes an address apart.  The schema is read first. -/
def takeApart (w : Workspace) (address : String) (schema : Option String) :
    Except CommandError Output := do
  let registry ← match schema with
    | none => .ok none
    | some path => (readSchema w path).map some
  let t ← match Target.parse address with
    | .ok t => .ok t
    | .error e => .error (.address e)
  match registry with
  | none => return addressOutput t none
  | some registry => return addressOutput t (some (← namesOf registry address t))

/-! ## Commands -/

def Command.run (c : Command) (t : Timing) (w : Workspace) :
    Except CommandError Output × Workspace :=
  match c with
  | .apply q => q.run t w
  | .buildReference target => (.ok (.text target.text), w)
  | .parseReference address schema => (takeApart w address schema, w)

def Command.database? : Command → Option String
  | .apply q => (q.database.bind DatabasePlace.ofName?).bind DatabasePlace.path?
  | _ => none

def Command.paths : Command → List String
  | .apply q =>
    q.schema :: [q.records, q.config, q.data, (apply q).database?].filterMap id
  | .buildReference _ => []
  | .parseReference _ schema => schema.toList

end CommandLine
end RecordRules
