/-
Walks through rules.

The evaluator goes through the targets of a rule, through its applications, through the rules of an
event and through the queue.  Each of these walks is gone here once for all: a property of runs that
the parts of a rule keep is kept by the rule, and what every rule keeps is kept by its event and by
the whole run.  `Scope.Reports` and `Scope.Changes` list what a rule can report and write once it is
its turn, each with what it comes from.
-/
import RecordRules.Proofs.Evaluation.Branches

namespace RecordRules

/-! ## Where a rule stands -/

/-- A scope is that of a rule for an event if the rule stands there in the schema and runs. -/
structure Scope.InPlace (c : Scope) (s : Setting) (mode : Mode) (t : Trigger) : Prop where
  trigger : c.trigger = t
  relationship : (s.registry.relationshipsFrom t.module)[c.relationshipIndex]? = some c.relationship
  fields : c.fields = s.registry.listFields t.module
  rule : (c.relationship.rules.get t.event)[c.ruleIndex]? = some c.rule
  runs : mode.runs c.rule.action = true

/-- The first item that is left of a list stands at the place where the rest begins. -/
theorem getElem?_of_drop_cons {α : Type} {l rest : List α} {i : Nat} {a : α}
    (h : l.drop i = a :: rest) : l[i]? = some a ∧ l.drop (i + 1) = rest := by
  rw [← List.head?_drop, ← List.tail_drop, h]
  exact ⟨rfl, rfl⟩

/-! ## What a rule writes -/

/-- Where the mutations of a rule come from. -/
inductive Scope.Mutates (c : Scope) : Mutation → Prop where
  | operand {source : Option Source} {applications : List Application} {a : Application}
      {v : Json} {m : Mutation} (applied : c.applications = .ok (source, applications))
      (applies : a ∈ applications) (operand : c.operandOf source a = some v)
      (mutation : mutationFor c.rule.action v = .ok m) : Mutates c m
  | total (amount : Binary64) : Mutates c (.add amount)

/-- A mutation that a rule does to its target field. -/
structure Scope.Changes (c : Scope) (registry : Registry) (field : TargetField) (m : Mutation) :
    Prop where
  kept : c.rule.action ≠ .cascadeDelete
  unchecked : c.rule.action ≠ .validate
  target : c.targetField registry = .ok (some field)
  suits : m.checkFor field.kind = .ok ()
  mutates : c.Mutates m

/-- A rule that adds up is neither one that deletes nor a check. -/
theorem Scope.action_of_coalesces {c : Scope} {config : Config} {applications : List Application}
    (h : c.coalesces config applications = true) :
    c.rule.action ≠ .cascadeDelete ∧ c.rule.action ≠ .validate := by
  unfold coalesces at h
  constructor
  · intro ha
    rw [ha] at h
    simp at h
  · intro ha
    rw [ha] at h
    simp at h

/-! ## The statuses of a rule -/

/-- What a rule can report at its turn, if its target module is there. -/
inductive Scope.Reports (c : Scope) (registry : Registry) : Status → Prop where
  | applied (changed : Bool) : Reports c registry (.applied changed)
  | unknownAction {name : String} (h : c.rule.action = .other name) :
      Reports c registry (.skipped (.unknownAction name))
  | noTargetField {miss : Miss} (h : c.targetField registry = .error miss) :
      Reports c registry miss.status
  | noApplications {miss : Miss} (h : c.applications = .error miss) : Reports c registry miss.status
  | noItems : Reports c registry (.skipped .noItems)
  | missingSource (source : String) : Reports c registry (.skipped (.missingSource source))
  | missingOperand : Reports c registry (.failed .missingOperand)
  | noTarget {σ : Type} [RecordStore σ] {store : σ} {element : Option Json} {miss : Miss}
      (h : c.binding.targets registry store c.target c.trigger.record element = .error miss) :
      Reports c registry miss.status
  /-- A rule that needs no target field does not know what to do without one. -/
  | missingTarget (h : c.targetField registry = .ok none)
      (known : ∀ name, c.rule.action ≠ .other name) (deletes : c.rule.action ≠ .cascadeDelete) :
      Reports c registry (.failed .missingTarget)
  | checked (field : TargetField) (operand : Option Json) (target : Record) :
      Reports c registry (checkStatus c.rule field operand target)
  | badOperand {operand : Json} {e : RuleError}
      (h : mutationFor c.rule.action operand = .error e) : Reports c registry (.failed e)
  | badAmount {operand : Json} {e : RuleError}
      (h : signedAmount c.rule.action operand = .error e) : Reports c registry (.failed e)
  | unsuited {m : Mutation} {kind : Option Kind} {e : RuleError} (h : m.checkFor kind = .error e) :
      Reports c registry (.failed e)
  | notNumeric {kind : Option Kind} {e : RuleError} (h : checkNumeric kind = .error e) :
      Reports c registry (.failed e)
  | refused (e : StoreError) : Reports c registry (Miss.ofStore e).status
  | gone (id : RecordId) : Reports c registry (.skipped (.notFound (.record id c.target)))

/-! ## Statuses that tell of no change -/

theorem Miss.status_ne_applied (miss : Miss) (changed : Bool) :
    miss.status ≠ .applied changed := by
  cases miss with
  | skip reason => exact Status.noConfusion
  | fail e => exact Status.noConfusion

theorem checkStatus_ne_applied (r : Rule) (field : TargetField) (operand : Option Json)
    (target : Record) : checkStatus r field operand target ≠ .applied true := by
  unfold checkStatus
  split
  · exact Status.noConfusion
  · split
    · exact Status.noConfusion
    · simp

theorem Scope.reports_withoutOperand (c : Scope) {registry : Registry} :
    c.Reports registry c.withoutOperand := by
  unfold withoutOperand
  split
  · exact .missingSource _
  · exact .missingOperand

theorem Scope.withoutOperand_ne_applied (c : Scope) : c.withoutOperand ≠ .applied true := by
  unfold withoutOperand
  split
  · exact Status.noConfusion
  · exact Status.noConfusion

section

variable {σ : Type}

/-- The run after an action on a record, with the outcome that tells how it went. -/
def Scope.tell (c : Scope) (item : Option Nat) (id : RecordId) (answer : Status × Run σ) : Run σ :=
  answer.2.emit (c.outcome item (some id) answer.1)

variable [RecordStore σ]

/-! ## Applying a rule -/

/-- A property of runs that the parts of a rule keep. -/
structure Scope.Keeps (c : Scope) (s : Setting) (P : Run σ → Prop) : Prop where
  emit : ∀ {run} itemIndex target {status}, c.Reports s.registry status →
    status ≠ .applied true → P run → P (run.emit (c.outcome itemIndex target status))
  write : ∀ {run} itemIndex id {field m}, c.Changes s.registry field m → P run →
    P (c.tell itemIndex id (writeField s c run id field.name m))
  delete : ∀ {run} itemIndex id, c.rule.action = .cascadeDelete → P run →
    P (c.tell itemIndex id (deleteRecord s c run id))

namespace Scope.Keeps

variable {s : Setting} {c : Scope} {P : Run σ → Prop} {run : Run σ}

theorem act (hkeeps : c.Keeps s P) (hknown : ∀ name, c.rule.action ≠ .other name)
    {field : Option TargetField} (htarget : c.targetField s.registry = .ok field)
    {operand : Option Json}
    (hoperand : ∀ v m, operand = some v → mutationFor c.rule.action v = .ok m → c.Mutates m)
    (itemIndex : Option Nat) (target : Record) (h : P run) :
    P (c.tell itemIndex target.id (act s c run field operand target)) := by
  generalize hact : RecordRules.act s c run field operand target = answer
  cases act_acts hact with
  | deletes hdelete => exact hkeeps.delete itemIndex target.id hdelete h
  | noField hkept =>
    exact hkeeps.emit itemIndex _ (.missingTarget htarget hknown hkept) Status.noConfusion h
  | checks =>
    exact hkeeps.emit itemIndex _ (.checked _ _ _) (checkStatus_ne_applied _ _ _ _) h
  | noOperand => exact hkeeps.emit itemIndex _ .missingOperand Status.noConfusion h
  | badOperand _ _ hmutation =>
    exact hkeeps.emit itemIndex _ (.badOperand hmutation) Status.noConfusion h
  | unsuited _ _ _ hsuits => exact hkeeps.emit itemIndex _ (.unsuited hsuits) Status.noConfusion h
  | writes hkept hcheck hmutation hsuits =>
    exact hkeeps.write itemIndex target.id
      ⟨hkept, hcheck, htarget, hsuits, hoperand _ _ rfl hmutation⟩ h

theorem actOnAll (hkeeps : c.Keeps s P) (hknown : ∀ name, c.rule.action ≠ .other name)
    {field : Option TargetField} (htarget : c.targetField s.registry = .ok field)
    {operand : Option Json}
    (hoperand : ∀ v m, operand = some v → mutationFor c.rule.action v = .ok m → c.Mutates m)
    (itemIndex : Option Nat) (targets : List Record) (h : P run) :
    P (actOnAll s c field operand itemIndex targets run) := by
  induction targets generalizing run with
  | nil => exact h
  | cons target rest ih => exact ih (hkeeps.act hknown htarget hoperand itemIndex target h)

theorem applyOnce (hkeeps : c.Keeps s P) (hknown : ∀ name, c.rule.action ≠ .other name)
    {field : Option TargetField} (htarget : c.targetField s.registry = .ok field)
    {source : Option Source} {applications : List Application}
    (happlied : c.applications = .ok (source, applications)) {a : Application}
    (ha : a ∈ applications) (h : P run) : P (applyOnce s c field source run a) := by
  generalize honce : RecordRules.applyOnce s c field source run a = run'
  cases applyOnce_applies honce with
  | lacking => exact hkeeps.emit _ _ c.reports_withoutOperand c.withoutOperand_ne_applied h
  | lost hmiss => exact hkeeps.emit _ _ (.noTarget hmiss) (Miss.status_ne_applied _ true) h
  | acts => exact hkeeps.actOnAll hknown htarget (fun _ _ => .operand happlied ha) _ _ h

theorem collect (hkeeps : c.Keeps s P) (sum : Run σ × Totals) (a : Application) (h : P sum.1) :
    P (collect s c sum a).1 := by
  obtain ⟨run, totals⟩ := sum
  generalize hcollect : RecordRules.collect s c (run, totals) a = sum'
  cases collect_collects hcollect with
  | lacking => exact hkeeps.emit _ _ (.missingSource _) Status.noConfusion h
  | badAmount hamount => exact hkeeps.emit _ _ (.badAmount hamount) Status.noConfusion h
  | lost hmiss => exact hkeeps.emit _ _ (.noTarget hmiss) (Miss.status_ne_applied _ true) h
  | adds => exact h

theorem writeTotals (hkeeps : c.Keeps s P) {field : TargetField}
    (hchanges : ∀ total, c.Changes s.registry field (.add total)) (totals : Totals) (h : P run) :
    P (writeTotals s c field.name totals run) := by
  induction totals generalizing run with
  | nil => exact h
  | cons e rest ih => exact ih (hkeeps.write none e.1 (hchanges e.2) h)

theorem applyCoalesced (hkeeps : c.Keeps s P) {field : TargetField}
    (htarget : c.targetField s.registry = .ok (some field)) (hkept : c.rule.action ≠ .cascadeDelete)
    (hcheck : c.rule.action ≠ .validate) (applications : List Application) (h : P run) :
    P (applyCoalesced s c field run applications) := by
  cases hnumeric : checkNumeric field.kind with
  | error e =>
    rw [applyCoalesced_error hnumeric]
    exact List.foldlRecOn _ _ h fun _ h _ _ =>
      hkeeps.emit _ _ (.notNumeric hnumeric) Status.noConfusion h
  | ok _ =>
    rw [applyCoalesced_ok hnumeric]
    refine hkeeps.writeTotals (fun total => ⟨hkept, hcheck, htarget, hnumeric, .total total⟩) _ ?_
    exact List.foldlRecOn (motive := fun sum : Run σ × Totals => P sum.1) _ _ h
      fun sum h a _ => hkeeps.collect sum a h

/-- What the parts of a rule keep, the rule keeps. -/
theorem applyRule (hkeeps : c.Keeps s P) (h : P run) : P (applyRule s c run) := by
  generalize happly : RecordRules.applyRule s c run = run'
  cases applyRule_applies happly with
  | unknown hother => exact hkeeps.emit _ _ (.unknownAction hother) Status.noConfusion h
  | noField _ htarget =>
    exact hkeeps.emit _ _ (.noTargetField htarget) (Miss.status_ne_applied _ true) h
  | noApplications _ _ happlied =>
    exact hkeeps.emit _ _ (.noApplications happlied) (Miss.status_ne_applied _ true) h
  | noItems => exact hkeeps.emit _ _ .noItems Status.noConfusion h
  | sums _ htarget _ _ hsum =>
    obtain ⟨hkept, hcheck⟩ := action_of_coalesces hsum
    exact hkeeps.applyCoalesced htarget hkept hcheck _ h
  | each hknown htarget happlied =>
    exact List.foldlRecOn _ _ h fun _ h _ ha => hkeeps.applyOnce hknown htarget happlied ha h

end Scope.Keeps

/-! ## Going through rules and events -/

section

variable (s : Setting) {P : Run σ → Prop} {mode rootMode : Mode} {t : Trigger}

/-- What every rule of a list keeps, going through the list keeps. -/
theorem runRules_keeps {fields : List Field} {relationshipIndex : Nat} {r : Relationship}
    {index : Nat} {rules : List Rule}
    (hrule : ∀ i rule, rules[i]? = some rule → mode.runs rule.action = true → ∀ run, P run →
      P (runRule s ⟨t, relationshipIndex, r, fields, index + i, rule⟩ run))
    {run : Run σ} (h : P run) :
    P (runRules s mode t fields relationshipIndex r index rules run) := by
  induction rules generalizing index run with
  | nil => exact h
  | cons rule rest ih =>
    unfold runRules
    refine ih (fun i rule' hat hruns run' h' => ?_) ?_
    · rw [Nat.add_right_comm]
      exact hrule (i + 1) rule' hat hruns run' h'
    · split
      · next hruns => exact hrule 0 rule rfl hruns run h
      · exact h

/-- What every rule of a relationship keeps, and the warning about its target module, the
relationship keeps. -/
theorem runRelationship_keeps {fields : List Field} {index : Nat} {r : Relationship}
    (hwarn : r.rules.get t.event ≠ [] → s.registry.hasModule r.target = false → ∀ run, P run →
      P (run.warn (.danglingTarget t.module index r.target)))
    (hrule : ∀ i rule, (r.rules.get t.event)[i]? = some rule → mode.runs rule.action = true →
      ∀ run, P run → P (runRule s ⟨t, index, r, fields, i, rule⟩ run))
    {run : Run σ} (h : P run) : P (runRelationship s mode t fields index r run) := by
  unfold runRelationship
  refine runRules_keeps s (fun i rule hat => ?_) ?_
  · rw [Nat.zero_add]
    exact hrule i rule hat
  · split
    · exact h
    · next hgone =>
      rw [Bool.or_eq_true, not_or] at hgone
      have hrules : r.rules.get t.event ≠ [] := by simpa using hgone.1
      exact hwarn hrules (Bool.eq_false_iff.mpr hgone.2) run h

theorem runRelationships_keeps {fields : List Field} {index : Nat}
    {relationships : List Relationship}
    (hwarn : ∀ i r, relationships[i]? = some r → r.rules.get t.event ≠ [] →
      s.registry.hasModule r.target = false → ∀ run, P run →
        P (run.warn (.danglingTarget t.module (index + i) r.target)))
    (hrule : ∀ i r, relationships[i]? = some r → ∀ j rule, (r.rules.get t.event)[j]? = some rule →
      mode.runs rule.action = true → ∀ run, P run →
        P (runRule s ⟨t, index + i, r, fields, j, rule⟩ run))
    {run : Run σ} (h : P run) : P (runRelationships s mode t fields index relationships run) := by
  induction relationships generalizing index run with
  | nil => exact h
  | cons r rest ih =>
    unfold runRelationships
    refine ih (fun i r' hat => ?_) (fun i r' hat => ?_)
      (runRelationship_keeps s (hwarn 0 r rfl) (hrule 0 r rfl) h)
    · rw [Nat.add_right_comm]
      exact hwarn (i + 1) r' hat
    · rw [Nat.add_right_comm]
      exact hrule (i + 1) r' hat

/-- What every rule of an event keeps, and every warning about a target module, the event keeps. -/
theorem runTrigger_keeps
    (hwarn : ∀ index r, (s.registry.relationshipsFrom t.module)[index]? = some r →
      r.rules.get t.event ≠ [] → s.registry.hasModule r.target = false → ∀ run, P run →
        P (run.warn (.danglingTarget t.module index r.target)))
    (hrule : ∀ c, c.InPlace s mode t → ∀ run, P run → P (runRule s c run))
    {run : Run σ} (h : P run) : P (runTrigger s mode t run) := by
  refine runRelationships_keeps s (fun i r hat => ?_) (fun i r hat j rule hrules hruns => ?_) h
  · rw [Nat.zero_add]
    exact hwarn i r hat
  · rw [Nat.zero_add]
    exact hrule ⟨t, i, r, _, j, rule⟩ ⟨rfl, hat, rfl, hrules, hruns⟩

/-- What every event keeps, evaluating the queue keeps. -/
theorem drain_keeps
    (hnext : ∀ t rest run, run.queue = t :: rest → P run → P (next s rootMode t rest run))
    (rounds : Nat) {run : Run σ} (h : P run) : P (drain s rootMode rounds run) := by
  induction rounds generalizing run with
  | zero => exact h
  | succ rounds ih =>
    unfold drain
    split
    · exact h
    · next t rest hqueue => exact ih (hnext t rest run hqueue h)

end

end
end RecordRules
