/-
Reports on the evaluation of an event.

Every rule that an event reaches leaves outcomes: it was applied, skipped or failed.  A skip is
expected in a schema that changes, and a failure concerns its own rule only.  Warnings tell what
was cut off.
-/
import RecordRules.Event
import RecordRules.Rule
import RecordRules.Store.Basic

namespace RecordRules

/-! ## Comparisons -/

/-- How a check compares the operand of a rule with the target field. -/
inductive Comparison where
  | less
  | lessOrEqual
  | greater
  | greaterOrEqual
  | equal
  | notEqual
  /-- The target field has a value. -/
  | present
deriving DecidableEq

def Comparison.symbol : Comparison → String
  | less => "<"
  | lessOrEqual => "<="
  | greater => ">"
  | greaterOrEqual => ">="
  | equal => "=="
  | notEqual => "!="
  | present => "exists"

/-! ## Skips -/

/-- Something that a rule refers to and that is not there. -/
inductive Absent where
  | module (id : ModuleId)
  | field (t : Target)
  | record (id : RecordId) (home : ModuleId)
  /-- A record that was gone when it was to be written. -/
  | written (id : RecordId)
deriving DecidableEq

def Absent.text : Absent → String
  | module id => s!"module {id.text}"
  | field t => s!"field {t.text}"
  | record id home => s!"record {id.text} in module {home.text}"
  | written id => id.text

inductive SkipReason where
  | notFound (what : Absent)
  | noTargetRecord
  | ambiguousTarget (count : Nat)
  | missingSource (source : String)
  | noItems
  | unknownAction (name : String)
  | timeout
deriving DecidableEq

def SkipReason.text : SkipReason → String
  | notFound what => s!"not found: {what.text}"
  | noTargetRecord => "no target record"
  | ambiguousTarget count => s!"{count} candidate target records"
  | missingSource source => s!"source field {Text.quoted source} has no value"
  | noItems => "array source is empty"
  | unknownAction name => s!"unknown action {Text.quoted name}"
  | timeout => "timeout"

/-! ## Failures -/

/-- Why a check did not pass. -/
inductive CheckFailure where
  | targetMissing
  | valueMissing
  | refuted (comparison : Comparison) (operand target : Option Json)

def CheckFailure.text : CheckFailure → String
  | targetMissing => "target has no value"
  | valueMissing => "missing value to compare"
  | refuted comparison operand target =>
    s!"{shown operand} {comparison.symbol} {shown target}"
where
  shown (v : Option Json) : String := (v.getD .null).text

inductive RuleError where
  | address (e : AddressError)
  | missingTarget
  | wrongModule (expected found : ModuleId)
  | missingOperand
  | noRecordId (source : String) (key : Json)
  | unordered (operand target : Json)
  | invalidOperator (text : String)
  | value (e : ValueError)
  | checkFailed (why : CheckFailure)
  | store (e : StoreError)

def RuleError.text : RuleError → String
  | address e => e.message
  | missingTarget => "rule has no targetField"
  | wrongModule expected found =>
    s!"target {found.text} is not in target module {expected.text}"
  | missingOperand => "rule has no operand"
  | noRecordId source key => s!"invalid operand: {source} holds no record id: {key.text}"
  | unordered operand target =>
    s!"invalid operand: cannot order {operand.text} against {target.text}"
  | invalidOperator text => s!"invalid comparison operator {Text.quoted text}"
  | value e => e.message
  | checkFailed why => s!"check failed: {why.text}"
  | store e => s!"storage error: {e.message}"

/-! ## Outcomes -/

/-- How the application of a rule went. -/
inductive Status where
  /-- The action was done; `changed` tells whether it changed anything. -/
  | applied (changed : Bool)
  | skipped (reason : SkipReason)
  | failed (e : RuleError)

/-- One application of a rule. -/
structure Outcome where
  module : ModuleId
  record : RecordId
  event : Event
  relationshipIndex : Nat
  relationshipId : Option String
  ruleIndex : Nat
  action : Action
  itemIndex : Option Nat
  targetRecord : Option RecordId
  depth : Nat
  status : Status

namespace Outcome

def isApplied (o : Outcome) : Bool := match o.status with | .applied _ => true | _ => false

def isSkipped (o : Outcome) : Bool := match o.status with | .skipped _ => true | _ => false

def isFailed (o : Outcome) : Bool := match o.status with | .failed _ => true | _ => false

/-- A check did not pass, which rejects a write that has not been done yet. -/
def isRejection (o : Outcome) : Bool :=
  match o.status with
  | .failed (.checkFailed _) => true
  | _ => false

def statusParts : Status → List (Option (String × Json))
  | .applied changed =>
    [Json.part "status" (.string "applied"), Json.part "changed" (.bool changed)]
  | .skipped reason =>
    [Json.part "status" (.string "skipped"), Json.part "reason" (.string reason.text)]
  | .failed e => [Json.part "status" (.string "failed"), Json.part "reason" (.string e.text)]

def toJson (o : Outcome) : Json :=
  Json.document ([
    Json.part "moduleId" o.module.toJson,
    Json.part "recordId" o.record.toJson,
    Json.part "eventType" (.string o.event.name),
    Json.part "relationshipIndex" (.ofNat o.relationshipIndex),
    Json.optionalPart "relationshipId" (o.relationshipId.map .string),
    Json.part "ruleIndex" (.ofNat o.ruleIndex),
    Json.part "action" o.action.toJson,
    Json.optionalPart "itemIndex" (o.itemIndex.map Json.ofNat),
    Json.optionalPart "targetRecord" (o.targetRecord.map Ident.toJson),
    Json.part "depth" (.ofNat o.depth)] ++ statusParts o.status)

end Outcome

/-! ## Warnings -/

inductive Warning where
  /-- An event lay beyond the depth limit. -/
  | cycleLimitExceeded (module : ModuleId) (record : RecordId) (event : Event) (depth : Nat)
  /-- An event had already been evaluated. -/
  | revisitSuppressed (module : ModuleId) (record : RecordId) (event : Event)
  /-- A relationship leads to a module that is not there. -/
  | danglingTarget (module : ModuleId) (relationshipIndex : Nat) (target : ModuleId)
  | timedOut (timeoutMs : Nat)
deriving DecidableEq

def Warning.toJson : Warning → Json
  | cycleLimitExceeded module record event depth =>
    Json.document [kind "cycleLimitExceeded", Json.part "moduleId" module.toJson,
      Json.part "recordId" record.toJson, Json.part "eventType" (.string event.name),
      Json.part "depth" (.ofNat depth)]
  | revisitSuppressed module record event =>
    Json.document [kind "revisitSuppressed", Json.part "moduleId" module.toJson,
      Json.part "recordId" record.toJson, Json.part "eventType" (.string event.name)]
  | danglingTarget module relationshipIndex target =>
    Json.document [kind "danglingTarget", Json.part "moduleId" module.toJson,
      Json.part "relationshipIndex" (.ofNat relationshipIndex),
      Json.part "targetModule" target.toJson]
  | timedOut timeoutMs => Json.document [kind "timedOut", Json.part "timeoutMs" (.ofNat timeoutMs)]
where
  kind (name : String) : Option (String × Json) := Json.part "kind" (.string name)

/-! ## Reports -/

/-- Everything that a root event caused. -/
structure Report where
  outcomes : List Outcome
  warnings : List Warning

namespace Report

def empty : Report := ⟨[], []⟩

/-- No rule failed and nothing was cut off. -/
def isClean (r : Report) : Bool := !r.outcomes.any Outcome.isFailed && r.warnings.isEmpty

def toJson (r : Report) : Json :=
  Json.document [
    Json.part "outcomes" (.array (r.outcomes.map Outcome.toJson)),
    Json.part "warnings" (.array (r.warnings.map Warning.toJson))]

end Report
end RecordRules
