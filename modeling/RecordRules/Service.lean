/-
Writing records.

A write is done in four steps: the data are checked against the fields of the module, the checks of
the event are run on the record as it is going to be, the write is done, and the event propagates.
The first two steps can reject a write; what fails while the event propagates is only reported.  A
call hands the service on whether it succeeds or not, so that what a refused call has done to the
records is there to be seen.
-/
import RecordRules.Evaluation.Evaluator
import RecordRules.Validation

namespace RecordRules

/-- Why a write is not done. -/
inductive ServiceError where
  | registry (e : RegistryError)
  | store (e : StoreError)
  | recordNotFound (id : RecordId)
  | invalid (violations : List Violation)
  /-- Checks did not pass. -/
  | rejected (outcomes : List Outcome)

def ServiceError.message : ServiceError → String
  | registry e => e.message
  | store e => e.message
  | recordNotFound id => s!"record not found: {id.text}"
  | invalid violations =>
    "record failed validation: " ++ "; ".intercalate (violations.map fun v => v.note.text)
  | rejected outcomes => s!"write rejected by {outcomes.length} validate rule(s)"

/-- A write that was done and what it caused. -/
structure Change where
  /-- The record as written or, if it was deleted, as it was. -/
  record : Record
  report : Report

def Change.toJson (c : Change) : Json :=
  Json.document [Json.part "record" c.record.toJson, Json.part "report" c.report.toJson]

/-- The clocks of the two runs of a write, and the time of day at which it is done. -/
structure Timing where
  checking : Clock
  propagating : Clock
  now : Int

def Timing.steady (now : Int) (perWrite : Nat) : Timing :=
  { checking := .steady now perWrite, propagating := .steady now perWrite, now }

/-- The schema, the settings of the evaluator and the records. -/
structure Service (σ : Type) where
  registry : Registry
  config : Config
  store : σ

/-- A call of a service, after which the service is there also if the call is refused. -/
abbrev Call (σ α : Type) := EStateM ServiceError (Service σ) α

namespace Service

variable {σ : Type} [RecordStore σ]

/-- Turns the refusal of a store into that of a call. -/
def stored {α : Type} : Except StoreError α → Call σ α
  | .ok a => pure a
  | .error e => throw (.store e)

/-- Puts other records in the place of those of the service. -/
def keep (store : σ) : Call σ Unit := modify fun s => { s with store }

/-- Data that fit the fields of a module, with defaults filled in. -/
def validated (module : ModuleId) (data : Json) : Call σ Json := do
  let s ← get
  match s.registry.getModule module with
  | .error e => throw (.registry e)
  | .ok _ =>
    match checkRecord s.registry.kindOf (s.registry.listFields module) data with
    | (data, []) => return data
    | (_, violations) => throw (.invalid violations)

/-- The outcomes of the checks of an event, none of which rejects it. -/
def passed (clock : Clock) (module : ModuleId) (event : Event) (candidate : Record) :
    Call σ (List Outcome) := do
  let s ← get
  let (outcomes, store) := precheck s.registry s.config clock s.store module event candidate
  keep store
  match outcomes.filter Outcome.isRejection with
  | [] => return outcomes
  | rejections => throw (.rejected rejections)

/-- Lets an event propagate after its write. -/
def propagate (clock : Clock) (module : ModuleId) (event : Event) (record : Record)
    (prechecked : List Outcome) : Call σ Change := do
  let s ← get
  let (report, store) :=
    evaluate s.registry s.config clock s.store module event record (some prechecked)
  keep store
  return { record, report }

def getRecord (module : ModuleId) (id : RecordId) : Call σ Record := do
  match ← stored (RecordStore.get (← get).store module id) with
  | some r => return r
  | none => throw (.recordNotFound id)

def listRecords (module : ModuleId) : Call σ (List Record) := do
  stored (RecordStore.list (← get).store module)

def insertRecord (t : Timing) (record : Record) : Call σ Change := do
  let module := record.module
  let data ← validated module record.data
  let record := { record with data }
  let prechecked ← passed t.checking module .create record
  keep (← stored (RecordStore.insert (← get).store record))
  propagate t.propagating module .create record prechecked

def createRecord (t : Timing) (module : ModuleId) (data : Json) (fresh : RecordId) :
    Call σ Change :=
  insertRecord t { id := fresh, module, data, createdAt := t.now, updatedAt := t.now }

/-- Replaces the data of a record.  Data that are the same write nothing and cause nothing. -/
def updateRecord (t : Timing) (module : ModuleId) (id : RecordId) (data : Json) :
    Call σ Change := do
  let before ← getRecord module id
  let data ← validated module data
  if before.data == data then return { record := before, report := .empty }
  else
    let prechecked ← passed t.checking module .update { before with data }
    let (after, store) ← stored (RecordStore.replaceData (← get).store module id data t.now)
    keep store
    propagate t.propagating module .update after prechecked

/-- Deletes a record. -/
def deleteRecord (t : Timing) (module : ModuleId) (id : RecordId) : Call σ Change := do
  let record ← getRecord module id
  let prechecked ← passed t.checking module .delete record
  let (deleted, store) ← stored (RecordStore.delete (← get).store module id)
  keep store
  match deleted with
  | none => throw (.recordNotFound id)
  | some record => propagate t.propagating module .delete record prechecked

/-- The text that stands for a record, by the label field of its module. -/
def labelOf (s : Service σ) (record : Record) : String :=
  let field := s.registry.labelField? record.module
  record.label field (field.bind fun f => s.registry.kindOf f.dataType)

/-- Deletes a module with its fields and its records.  No rules run for the records. -/
def deleteModule (module : ModuleId) : Call σ Nat := do
  match (← get).registry.deleteModule module with
  | .error e => throw (.registry e)
  | .ok (_, registry) =>
    modify fun s => { s with registry }
    let (purged, store) := RecordStore.purge (← get).store module
    keep store
    return purged

end Service
end RecordRules
