/-
The rule evaluator.

A root event is evaluated with everything it propagates to, breadth first.  The relationships of
the module of an event are gone through in order, and so are their rules.  Each rule is applied
once or, if it goes through an array, once per element; a change that it makes to a record is an
event of that record and joins the queue.  Checks can also be run on their own before a write.
-/
import RecordRules.Evaluation.Run

namespace RecordRules

/-! ## Rules in their place -/

/-- A rule with the event that runs it and its place in the schema. -/
structure Scope where
  trigger : Trigger
  relationshipIndex : Nat
  relationship : Relationship
  fields : List Field
  ruleIndex : Nat
  rule : Rule

namespace Scope

/-- The module that the rule acts on. -/
def target (s : Scope) : ModuleId := s.relationship.target

/-- The binding of the rule, or else of its relationship. -/
def binding (s : Scope) : Binding := s.rule.binding.getD s.relationship.binding

def outcome (s : Scope) (itemIndex : Option Nat) (targetRecord : Option RecordId)
    (status : Status) : Outcome :=
  { module := s.trigger.module
    record := s.trigger.record.id
    event := s.trigger.event
    relationshipIndex := s.relationshipIndex
    relationshipId := s.relationship.id
    ruleIndex := s.ruleIndex
    action := s.rule.action
    itemIndex, targetRecord
    depth := s.trigger.depth
    status }

end Scope

/-! ## Preparing a rule -/

/-- The field that a rule changes or checks. -/
structure TargetField where
  name : String
  kind : Option Kind

/-- The target field of a rule, or none for a rule that deletes. -/
def Scope.targetField (s : Scope) (registry : Registry) : Except Miss (Option TargetField) :=
  if !s.rule.action.needsTarget then .ok none
  else
    match s.rule.target with
    | none => .error (.fail .missingTarget)
    | some address =>
      match Target.parse address with
      | .error e => .error (.fail (.address e))
      | .ok t =>
        if t.module ≠ s.target then .error (.fail (.wrongModule s.target t.module))
        else
          match registry.getField? t.module t.field with
          | none => .error (.skip (.notFound (.field t)))
          | some f => .ok (some ⟨f.name, registry.kindOf f.dataType⟩)

/-- One application of a rule: to the record as a whole, or to an array element. -/
structure Application where
  item : Option Item
  operand : Option Json

def parseSource (text : Option String) : Except Miss (Option Source) :=
  match text with
  | none => .ok none
  | some text =>
    match Source.parse text with
    | .ok s => .ok (some s)
    | .error e => .error (.fail (.address e))

/-- The subfield whose array a rule goes through: that of its source or, if the source goes through
none, that of the key of its binding. -/
def fanOut? (source key : Option Source) : Option String :=
  match source, key with
  | some (.item subfield), _ => some subfield
  | _, some (.item subfield) => some subfield
  | _, _ => none

/-- The operand of a rule for an array element or for the record as a whole. -/
def Rule.operand (r : Rule) (record : Record) (source : Option Source) (element : Option Json) :
    Option Json :=
  match source with
  | some s => record.readFrom? element s
  | none => r.literal

/-- The source of a rule and its applications. -/
def Scope.applications (s : Scope) : Except Miss (Option Source × List Application) := do
  let record := s.trigger.record
  let source ← parseSource s.rule.source
  let key ← parseSource s.binding.keySource?
  match fanOut? source key with
  | none => return (source, [⟨none, s.rule.operand record source none⟩])
  | some subfield =>
    match record.items subfield s.fields with
    | .error e => .error (.fail (.address e))
    | .ok (_, items) =>
      return (source,
        items.map fun item => ⟨some item, s.rule.operand record source (some item.element)⟩)

/-! ## Acting on a record -/

section

variable {σ : Type} [RecordStore σ]

/-- Changes a field of a target record.  A change is an event of the record. -/
def writeField (s : Setting) (c : Scope) (run : Run σ) (id : RecordId) (field : String)
    (m : Mutation) : Status × Run σ :=
  let now := s.clock.now run.writes
  let run := { run with writes := run.writes + 1 }
  match RecordStore.mutateField run.store c.target id field m now with
  | .error e => ((Miss.ofStore e).status, run)
  | .ok (write, store) =>
    let run := { run with store }
    let run :=
      if write.changed then
        (run.note (.changed c.target field write)).schedule s
          ⟨c.target, .update, write.record, c.trigger.depth + 1⟩
      else run
    (.applied write.changed, run)

/-- Deletes a target record, which is an event of the record. -/
def deleteRecord (s : Setting) (c : Scope) (run : Run σ) (id : RecordId) : Status × Run σ :=
  match RecordStore.delete run.store c.target id with
  | .error e => ((Miss.ofStore e).status, run)
  | .ok (none, store) => (.skipped (.notFound (.record id c.target)), { run with store })
  | .ok (some r, store) =>
    (.applied true,
      ({ run with store }.note (.deleted c.target r)).schedule s
        ⟨c.target, .delete, r, c.trigger.depth + 1⟩)

def checkStatus (r : Rule) (field : TargetField) (operand : Option Json) (target : Record) :
    Status :=
  match Comparison.ofValue r.value with
  | .error e => .failed e
  | .ok comparison =>
    match comparison.check operand (target.get? field.name) with
    | .error e => .failed e
    | .ok () => .applied false

/-- Does the action of a rule on a target record. -/
def act (s : Setting) (c : Scope) (run : Run σ) (field : Option TargetField)
    (operand : Option Json) (target : Record) : Status × Run σ :=
  match c.rule.action, field with
  | .cascadeDelete, _ => deleteRecord s c run target.id
  | _, none => (.failed .missingTarget, run)
  | .validate, some field => (checkStatus c.rule field operand target, run)
  | action, some field =>
    match operand with
    | none => (.failed .missingOperand, run)
    | some operand =>
      match mutationFor action operand with
      | .error e => (.failed e, run)
      | .ok m =>
        match m.checkFor field.kind with
        | .error e => (.failed e, run)
        | .ok () => writeField s c run target.id field.name m

/-! ## Applying a rule -/

def actOnAll (s : Setting) (c : Scope) (field : Option TargetField) (operand : Option Json)
    (itemIndex : Option Nat) : List Record → Run σ → Run σ
  | [], run => run
  | t :: rest, run =>
    let (status, run) := act s c run field operand t
    actOnAll s c field operand itemIndex rest (run.emit (c.outcome itemIndex (some t.id) status))

/-- The operand of an application: what a snapshot copies, or a value that is not null. -/
def Scope.operandOf (c : Scope) (source : Option Source) (a : Application) : Option Json :=
  match c.rule.action with
  | .snapshot => some (snapshotValue c.trigger.record source a.item c.rule.fields)
  | _ => a.operand.filter fun v => !v.isNull

/-- How a rule without an operand ends. -/
def Scope.withoutOperand (c : Scope) : Status :=
  match c.rule.source with
  | some source => .skipped (.missingSource source)
  | none => .failed .missingOperand

def Action.needsOperand : Action → Bool
  | .cascadeDelete | .validate => false
  | _ => true

def applyOnce (s : Setting) (c : Scope) (field : Option TargetField) (source : Option Source)
    (run : Run σ) (a : Application) : Run σ :=
  let itemIndex := a.item.map (·.index)
  let operand := c.operandOf source a
  if c.rule.action.needsOperand && operand.isNone then
    run.emit (c.outcome itemIndex none c.withoutOperand)
  else
    match c.binding.targets s.registry run.store c.target c.trigger.record
        (a.item.map (·.element)) with
    | .error miss => run.emit (c.outcome itemIndex none miss.status)
    | .ok targets => actOnAll s c field operand itemIndex targets run

/-- Amounts under the records that they are to be added to. -/
abbrev Totals := List (RecordId × Binary64)

def addTotal (id : RecordId) (amount : Binary64) (totals : Totals) : Totals :=
  match Assoc.get? id totals with
  | some total => Assoc.put id (total + amount) totals
  | none => totals ++ [(id, amount)]

/-- Adds the amount of one application for each of its targets. -/
def collect (s : Setting) (c : Scope) : Run σ × Totals → Application → Run σ × Totals
  | (run, totals), a =>
    let itemIndex := a.item.map (·.index)
    match a.operand.filter fun v => !v.isNull with
    | none =>
      (run.emit (c.outcome itemIndex none (.skipped (.missingSource (c.rule.source.getD "")))),
        totals)
    | some operand =>
      match signedAmount c.rule.action operand with
      | .error e => (run.emit (c.outcome itemIndex none (.failed e)), totals)
      | .ok amount =>
        match c.binding.targets s.registry run.store c.target c.trigger.record
            (a.item.map (·.element)) with
        | .error miss => (run.emit (c.outcome itemIndex none miss.status), totals)
        | .ok targets =>
          (run, targets.foldl (fun totals t => addTotal t.id amount totals) totals)

def writeTotals (s : Setting) (c : Scope) (field : String) : Totals → Run σ → Run σ
  | [], run => run
  | (id, total) :: rest, run =>
    let (status, run) := writeField s c run id field (.add total)
    writeTotals s c field rest (run.emit (c.outcome none (some id) status))

/-- Applies an increment or a decrement over array elements with one write per target record. -/
def applyCoalesced (s : Setting) (c : Scope) (field : TargetField) (run : Run σ)
    (applications : List Application) : Run σ :=
  match checkNumeric field.kind with
  | .error e =>
    applications.foldl
      (fun run a => run.emit (c.outcome (a.item.map (·.index)) none (.failed e))) run
  | .ok () =>
    let (run, totals) := applications.foldl (collect s c) (run, [])
    writeTotals s c field.name totals run

/-- The applications of a rule are to be added up. -/
def Scope.coalesces (c : Scope) (config : Config) (applications : List Application) : Bool :=
  config.coalesces && (c.rule.action == .increment || c.rule.action == .decrement) &&
    applications.any fun a => a.item.isSome

/-- Applies a rule whose relationship leads to a module that is there. -/
def applyRule (s : Setting) (c : Scope) (run : Run σ) : Run σ :=
  match c.rule.action with
  | .other name => run.emit (c.outcome none none (.skipped (.unknownAction name)))
  | _ =>
    match c.targetField s.registry with
    | .error miss => run.emit (c.outcome none none miss.status)
    | .ok field =>
      match c.applications with
      | .error miss => run.emit (c.outcome none none miss.status)
      | .ok (_, []) => run.emit (c.outcome none none (.skipped .noItems))
      | .ok (source, applications) =>
        match field, c.coalesces s.config applications with
        | some field, true => applyCoalesced s c field run applications
        | field, _ => applications.foldl (applyOnce s c field source) run

/-! ## Evaluating an event -/

/-- Which rules of an event run. -/
inductive Mode where
  /-- Only the checks, before a write. -/
  | checks
  | everything
  /-- Everything but the checks, which ran before the write. -/
  | afterChecks
deriving DecidableEq

def Mode.runs (m : Mode) (a : Action) : Bool :=
  match m with
  | .checks => a == .validate
  | .everything => true
  | .afterChecks => a != .validate

/-- Runs the rule at its turn: it is skipped if the time is up or its target module is gone. -/
def runRule (s : Setting) (c : Scope) (run : Run σ) : Run σ :=
  let run := run.lookAtClock s
  if run.timedOut then run.emit (c.outcome none none (.skipped .timeout))
  else if s.registry.hasModule c.target then applyRule s c run
  else run.emit (c.outcome none none (.skipped (.notFound (.module c.target))))

def runRules (s : Setting) (mode : Mode) (t : Trigger) (fields : List Field)
    (relationshipIndex : Nat) (r : Relationship) : (index : Nat) → List Rule → Run σ → Run σ
  | _, [], run => run
  | index, rule :: rest, run =>
    let run :=
      if mode.runs rule.action then runRule s ⟨t, relationshipIndex, r, fields, index, rule⟩ run
      else run
    runRules s mode t fields relationshipIndex r (index + 1) rest run

/-- Runs the rules of a relationship for an event.  A target module that is not there is warned of
if there are any. -/
def runRelationship (s : Setting) (mode : Mode) (t : Trigger) (fields : List Field) (index : Nat)
    (r : Relationship) (run : Run σ) : Run σ :=
  let rules := r.rules.get t.event
  let run :=
    if rules.isEmpty || s.registry.hasModule r.target then run
    else run.warn (.danglingTarget t.module index r.target)
  runRules s mode t fields index r 0 rules run

def runRelationships (s : Setting) (mode : Mode) (t : Trigger) (fields : List Field) :
    (index : Nat) → List Relationship → Run σ → Run σ
  | _, [], run => run
  | index, r :: rest, run =>
    runRelationships s mode t fields (index + 1) rest (runRelationship s mode t fields index r run)

/-- Runs all rules for an event. -/
def runTrigger (s : Setting) (mode : Mode) (t : Trigger) (run : Run σ) : Run σ :=
  runRelationships s mode t (s.registry.listFields t.module) 0
    (s.registry.relationshipsFrom t.module) run

/-! ## Evaluating the queue -/

/-- The mode of a waiting event.  Only the checks of a root event can have run before. -/
def modeOf (rootMode : Mode) (t : Trigger) : Mode := if t.depth = 0 then rootMode else .everything

/-- The run with the first event of its queue taken out. -/
def Run.take (t : Trigger) (rest : List Trigger) (run : Run σ) : Run σ :=
  { run with queue := rest, visited := run.visited ++ [t.key] }.note (.evaluated t)

def next (s : Setting) (rootMode : Mode) (t : Trigger) (rest : List Trigger) (run : Run σ) :
    Run σ :=
  runTrigger s (modeOf rootMode t) t (run.take t rest)

/-- Evaluates waiting events until there are none, at most a number of them. -/
def drain (s : Setting) (rootMode : Mode) : (rounds : Nat) → Run σ → Run σ
  | 0, run => run
  | rounds + 1, run =>
    match run.queue with
    | [] => run
    | t :: rest => drain s rootMode rounds (next s rootMode t rest run)

/-- The number of records in the modules of a registry. -/
def recordCount (registry : Registry) (store : σ) : Nat :=
  registry.graph.index.foldr (fun e n => RecordStore.count store e.1 + n) 0

/-- The number of events that a root event can lead to, itself included.  A record can be updated
and deleted once each, and no record is added. -/
def maxEvents (registry : Registry) (store : σ) : Nat := 1 + 2 * recordCount registry store

def Setting.ofRoot (registry : Registry) (config : Config) (clock : Clock) : Setting :=
  { registry, config, clock, maxDepth := config.maxDepth.getD registry.relationshipCount }

/-- The run that a root event starts, with outcomes that stand at the head of the report. -/
def Run.root (store : σ) (module : ModuleId) (event : Event) (record : Record)
    (outcomes : List Outcome) : Run σ :=
  { Run.start store with outcomes, queue := [⟨module, event, record, 0⟩] }

/-- Which rules of the root event run, given the outcomes of its checks if they ran before. -/
def Mode.ofRoot (prechecked : Option (List Outcome)) : Mode :=
  if prechecked.isSome then afterChecks else everything

/-- The run of a root event to its end.  Outcomes of checks that ran before the write stand at the
head of the report, and these checks do not run again. -/
def evaluation (registry : Registry) (config : Config) (clock : Clock) (store : σ)
    (module : ModuleId) (event : Event) (record : Record) (prechecked : Option (List Outcome)) :
    Run σ :=
  drain (.ofRoot registry config clock) (.ofRoot prechecked) (maxEvents registry store)
    (Run.root store module event record (prechecked.getD []))

/-- Evaluates a root event and everything that it propagates to. -/
def evaluate (registry : Registry) (config : Config) (clock : Clock) (store : σ)
    (module : ModuleId) (event : Event) (record : Record) (prechecked : Option (List Outcome)) :
    Report × σ :=
  let run := evaluation registry config clock store module event record prechecked
  (run.report, run.store)

/-- Runs the checks of an event on a record before it is written. -/
def precheck (registry : Registry) (config : Config) (clock : Clock) (store : σ)
    (module : ModuleId) (event : Event) (candidate : Record) : List Outcome × σ :=
  let s : Setting := { registry, config, clock, maxDepth := 0 }
  let run := runTrigger s .checks ⟨module, event, candidate, 0⟩ (Run.start store)
  (run.outcomes, run.store)

/-- Evaluates the update of a record.  An update that leaves the data as they were runs nothing. -/
def evaluateUpdate (registry : Registry) (config : Config) (clock : Clock) (store : σ)
    (module : ModuleId) (before after : Record) : Report × σ :=
  if before.data == after.data then (.empty, store)
  else evaluate registry config clock store module .update after none

end
end RecordRules
