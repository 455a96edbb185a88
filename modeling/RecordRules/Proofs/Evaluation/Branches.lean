/-
The branches of the evaluator.

A function of the evaluator that decides something has a relation here: with what it can end, and
what is known if it ends so.  What holds however the function ends is shown by cases on the
relation, and a new branch of the function is a new case there.
-/
import RecordRules.Evaluation.Evaluator

namespace RecordRules

/-! ## Preparing a rule -/

/-- How the search for the target field of a rule ends. -/
inductive Scope.TargetFound (c : Scope) (registry : Registry) :
    Except Miss (Option TargetField) → Prop where
  | unneeded (needless : c.rule.action.needsTarget = false) : TargetFound c registry (.ok none)
  | missing (needed : c.rule.action.needsTarget = true) (target : c.rule.target = none) :
      TargetFound c registry (.error (.fail .missingTarget))
  | unreadable {address : String} {e : AddressError} (target : c.rule.target = some address)
      (parse : Target.parse address = .error e) :
      TargetFound c registry (.error (.fail (.address e)))
  | elsewhere {address : String} {t : Target} (target : c.rule.target = some address)
      (parse : Target.parse address = .ok t) (module : t.module ≠ c.target) :
      TargetFound c registry (.error (.fail (.wrongModule c.target t.module)))
  | gone {address : String} {t : Target} (target : c.rule.target = some address)
      (parse : Target.parse address = .ok t) (module : t.module = c.target)
      (field : registry.getField? t.module t.field = none) :
      TargetFound c registry (.error (.skip (.notFound (.field t))))
  | found {address : String} {t : Target} {f : Field} (target : c.rule.target = some address)
      (parse : Target.parse address = .ok t) (module : t.module = c.target)
      (field : registry.getField? t.module t.field = some f) :
      TargetFound c registry (.ok (some ⟨f.name, registry.kindOf f.dataType⟩))

theorem Scope.targetFound {c : Scope} {registry : Registry}
    {answer : Except Miss (Option TargetField)} (h : c.targetField registry = answer) :
    c.TargetFound registry answer := by
  subst h
  unfold targetField
  split
  · next hneeds => exact .unneeded (by simpa using hneeds)
  · next hneeds =>
    split
    · next htarget => exact .missing (by simpa using hneeds) htarget
    · next address htarget =>
      split
      · next e hparse => exact .unreadable htarget hparse
      · next t hparse =>
        split
        · next hmodule => exact .elsewhere htarget hparse hmodule
        · next hmodule =>
          have hmodule : t.module = c.target := Decidable.not_not.mp hmodule
          split
          · next hfield => exact .gone htarget hparse hmodule hfield
          · next f hfield => exact .found htarget hparse hmodule hfield

/-! ## Finding targets -/

section

variable {σ : Type} [RecordStore σ] {registry : Registry} {store : σ} {module : ModuleId}
  {id : RecordId} {r : Record} {element : Option Json} {b : Binding}
  {answer : Except Miss (List Record)}

inductive Fetched (store : σ) (module : ModuleId) (id : RecordId) :
    Except Miss (List Record) → Prop where
  | refused {e : StoreError} (get : RecordStore.get store module id = .error e) :
      Fetched store module id (.error (.ofStore e))
  | missing (get : RecordStore.get store module id = .ok none) :
      Fetched store module id (.error (.skip (.notFound (.record id module))))
  | found {t : Record} (get : RecordStore.get store module id = .ok (some t)) :
      Fetched store module id (.ok [t])

theorem fetch_fetched (h : fetch store module id = answer) : Fetched store module id answer := by
  subst h
  unfold fetch
  cases hget : RecordStore.get store module id with
  | error e => exact .refused hget
  | ok found? =>
    cases found? with
    | none => exact .missing hget
    | some t => exact .found hget

/-- How the search for the targets of a binding ends. -/
inductive Binding.Searched (registry : Registry) (store : σ) (module : ModuleId) (r : Record)
    (element : Option Json) : Binding → Except Miss (List Record) → Prop where
  | unlisted {e : StoreError} (list : RecordStore.list store module = .error e) :
      Searched registry store module r element .sole (.error (.ofStore e))
  | empty (list : RecordStore.list store module = .ok []) :
      Searched registry store module r element .sole (.error (.skip .noTargetRecord))
  | sole {t : Record} (list : RecordStore.list store module = .ok [t]) :
      Searched registry store module r element .sole (.ok [t])
  | several {ts : List Record} (list : RecordStore.list store module = .ok ts) :
      Searched registry store module r element .sole (.error (.skip (.ambiguousTarget ts.length)))
  | record {id : RecordId} {answer : Except Miss (List Record)}
      (fetched : fetch store module id = answer) :
      Searched registry store module r element (.record id) answer
  | source {answer : Except Miss (List Record)} (fetched : fetch store module r.id = answer) :
      Searched registry store module r element .source answer
  | keyless {address : String} {miss : Miss} (read : readKey address r element = .error miss) :
      Searched registry store module r element (.foreignKey address) (.error miss)
  | nameless {address : String} {key : Json} (read : readKey address r element = .ok key)
      (names : (Ident.ofString? (keyText key) : Option RecordId) = none) :
      Searched registry store module r element (.foreignKey address)
        (.error (.fail (.noRecordId address key)))
  | foreignKey {address : String} {key : Json} {id : RecordId}
      {answer : Except Miss (List Record)} (read : readKey address r element = .ok key)
      (names : Ident.ofString? (keyText key) = some id)
      (fetched : fetch store module id = answer) :
      Searched registry store module r element (.foreignKey address) answer
  | matchKeyless {address field : String} {miss : Miss}
      (read : readKey address r element = .error miss) :
      Searched registry store module r element (.byMatch address field) (.error miss)
  | matchFieldless {address field : String} {miss : Miss}
      (named : matchField registry module field = .error miss) :
      Searched registry store module r element (.byMatch address field) (.error miss)
  | unmatched {address field name : String} {key : Json} {e : StoreError}
      (find : RecordStore.findByField store module name key = .error e) :
      Searched registry store module r element (.byMatch address field) (.error (.ofStore e))
  | matchless {address field name : String} {key : Json}
      (find : RecordStore.findByField store module name key = .ok []) :
      Searched registry store module r element (.byMatch address field)
        (.error (.skip .noTargetRecord))
  | byMatch {address field name : String} {key : Json} {ts : List Record}
      (read : readKey address r element = .ok key)
      (named : matchField registry module field = .ok name)
      (find : RecordStore.findByField store module name key = .ok ts) (some : ts ≠ []) :
      Searched registry store module r element (.byMatch address field) (.ok ts)

theorem Binding.targets_searched (h : b.targets registry store module r element = answer) :
    b.Searched registry store module r element answer := by
  subst h
  unfold targets
  cases b with
  | sole =>
    cases hlist : RecordStore.list store module with
    | error e => exact .unlisted hlist
    | ok ts =>
      match ts with
      | [] => exact .empty hlist
      | [t] => exact .sole hlist
      | t :: t' :: rest => exact .several hlist
  | record id => exact .record rfl
  | source => exact .source rfl
  | foreignKey address =>
    dsimp only
    cases hread : readKey address r element with
    | error miss => exact .keyless hread
    | ok key =>
      simp only [bind, Except.bind]
      cases hname : Ident.ofString? (keyText key) with
      | none => exact .nameless hread hname
      | some id => exact .foreignKey hread hname rfl
  | byMatch address field =>
    dsimp only
    cases hread : readKey address r element with
    | error miss => exact .matchKeyless hread
    | ok key =>
      cases hname : matchField registry module field with
      | error miss => exact .matchFieldless hname
      | ok name =>
        simp only [bind, Except.bind]
        cases hfind : RecordStore.findByField store module name key with
        | error e => exact .unmatched hfind
        | ok ts =>
          cases ts with
          | nil => exact .matchless hfind
          | cons t rest => exact .byMatch hread hname hfind (List.cons_ne_nil _ _)

end

/-! ## Acting on a record -/

section

variable {σ : Type} [RecordStore σ] {s : Setting} {c : Scope} {run : Run σ}

/-- How a field write ends.  The write is counted, also if it is refused. -/
inductive FieldWritten (s : Setting) (c : Scope) (run : Run σ) (id : RecordId) (field : String)
    (m : Mutation) : Status × Run σ → Prop where
  | refused {e : StoreError}
      (write : RecordStore.mutateField run.store c.target id field m (s.clock.now run.writes) =
        .error e) :
      FieldWritten s c run id field m
        ((Miss.ofStore e).status, { run with writes := run.writes + 1 })
  | changed {w : FieldWrite} {store : σ}
      (write : RecordStore.mutateField run.store c.target id field m (s.clock.now run.writes) =
        .ok (w, store))
      (changed : w.changed = true) :
      FieldWritten s c run id field m (.applied true,
        ({ run with store, writes := run.writes + 1 }.note (.changed c.target field w)).schedule s
          ⟨c.target, .update, w.record, c.trigger.depth + 1⟩)
  | unchanged {w : FieldWrite} {store : σ}
      (write : RecordStore.mutateField run.store c.target id field m (s.clock.now run.writes) =
        .ok (w, store))
      (unchanged : w.changed = false) :
      FieldWritten s c run id field m
        (.applied false, { run with store, writes := run.writes + 1 })

theorem writeField_written {id : RecordId} {field : String} {m : Mutation}
    {answer : Status × Run σ} (h : writeField s c run id field m = answer) :
    FieldWritten s c run id field m answer := by
  subst h
  unfold writeField
  dsimp only
  split
  · next e hwrite => exact .refused hwrite
  · next w store hwrite =>
    cases hchanged : w.changed with
    | true => exact .changed hwrite hchanged
    | false => exact .unchanged hwrite hchanged

inductive RecordDeleted (s : Setting) (c : Scope) (run : Run σ) (id : RecordId) :
    Status × Run σ → Prop where
  | refused {e : StoreError} (delete : RecordStore.delete run.store c.target id = .error e) :
      RecordDeleted s c run id ((Miss.ofStore e).status, run)
  | missing {store : σ} (delete : RecordStore.delete run.store c.target id = .ok (none, store)) :
      RecordDeleted s c run id (.skipped (.notFound (.record id c.target)), { run with store })
  | deleted {r : Record} {store : σ}
      (delete : RecordStore.delete run.store c.target id = .ok (some r, store)) :
      RecordDeleted s c run id (.applied true,
        ({ run with store }.note (.deleted c.target r)).schedule s
          ⟨c.target, .delete, r, c.trigger.depth + 1⟩)

theorem deleteRecord_deleted {id : RecordId} {answer : Status × Run σ}
    (h : deleteRecord s c run id = answer) : RecordDeleted s c run id answer := by
  subst h
  unfold deleteRecord
  split
  · next e hdelete => exact .refused hdelete
  · next store hdelete => exact .missing hdelete
  · next r store hdelete => exact .deleted hdelete

/-- What the action of a rule does to a target. -/
inductive Acts (s : Setting) (c : Scope) (run : Run σ) (target : Record) :
    Option TargetField → Option Json → Status × Run σ → Prop where
  | deletes {field : Option TargetField} {operand : Option Json}
      (action : c.rule.action = .cascadeDelete) :
      Acts s c run target field operand (deleteRecord s c run target.id)
  | noField {operand : Option Json} (kept : c.rule.action ≠ .cascadeDelete) :
      Acts s c run target none operand (.failed .missingTarget, run)
  | checks {field : TargetField} {operand : Option Json} (action : c.rule.action = .validate) :
      Acts s c run target (some field) operand (checkStatus c.rule field operand target, run)
  | noOperand {field : TargetField} (kept : c.rule.action ≠ .cascadeDelete)
      (unchecked : c.rule.action ≠ .validate) :
      Acts s c run target (some field) none (.failed .missingOperand, run)
  | badOperand {field : TargetField} {operand : Json} {e : RuleError}
      (kept : c.rule.action ≠ .cascadeDelete) (unchecked : c.rule.action ≠ .validate)
      (mutation : mutationFor c.rule.action operand = .error e) :
      Acts s c run target (some field) (some operand) (.failed e, run)
  | unsuited {field : TargetField} {operand : Json} {m : Mutation} {e : RuleError}
      (kept : c.rule.action ≠ .cascadeDelete) (unchecked : c.rule.action ≠ .validate)
      (mutation : mutationFor c.rule.action operand = .ok m)
      (suits : m.checkFor field.kind = .error e) :
      Acts s c run target (some field) (some operand) (.failed e, run)
  | writes {field : TargetField} {operand : Json} {m : Mutation}
      (kept : c.rule.action ≠ .cascadeDelete) (unchecked : c.rule.action ≠ .validate)
      (mutation : mutationFor c.rule.action operand = .ok m)
      (suits : m.checkFor field.kind = .ok ()) :
      Acts s c run target (some field) (some operand)
        (writeField s c run target.id field.name m)

theorem act_deletes (h : c.rule.action = .cascadeDelete) (s : Setting) (run : Run σ)
    (field : Option TargetField) (operand : Option Json) (t : Record) :
    act s c run field operand t = deleteRecord s c run t.id := by
  unfold act
  rw [h]

theorem act_none (hdelete : c.rule.action ≠ .cascadeDelete) (s : Setting) (run : Run σ)
    (operand : Option Json) (t : Record) :
    act s c run none operand t = (.failed .missingTarget, run) := by
  unfold act
  split
  · next h => exact absurd h hdelete
  · rfl
  · next heq => cases heq
  · next heq _ _ => cases heq

theorem act_checks (h : c.rule.action = .validate) (s : Setting) (run : Run σ)
    (field : TargetField) (operand : Option Json) (t : Record) :
    act s c run (some field) operand t = (checkStatus c.rule field operand t, run) := by
  unfold act
  rw [h]

/-- An action that neither deletes nor checks writes its target if there is a mutation for it that
suits the field. -/
theorem act_eq_write (hdelete : c.rule.action ≠ .cascadeDelete)
    (hcheck : c.rule.action ≠ .validate) (s : Setting) (run : Run σ) (field : TargetField)
    (operand : Option Json) (t : Record) :
    act s c run (some field) operand t =
      match operand with
      | none => (.failed .missingOperand, run)
      | some operand =>
        match mutationFor c.rule.action operand with
        | .error e => (.failed e, run)
        | .ok m =>
          match m.checkFor field.kind with
          | .error e => (.failed e, run)
          | .ok () => writeField s c run t.id field.name m := by
  unfold act
  split
  · next h => exact absurd h hdelete
  · next heq _ => cases heq
  · next h _ => exact absurd h hcheck
  · next heq _ _ =>
    cases heq
    rfl

theorem act_eq_of_sets (haction : c.rule.action = .set ∨ c.rule.action = .snapshot)
    (s : Setting) (run : Run σ) (field : TargetField) (v : Json) (t : Record) :
    act s c run (some field) (some v) t =
      match checkKind v field.kind with
      | .error e => (.failed e, run)
      | .ok () => writeField s c run t.id field.name (.set v) := by
  rcases haction with h | h
  · rw [act_eq_write (by simp [h]) (by simp [h]), h]
    rfl
  · rw [act_eq_write (by simp [h]) (by simp [h]), h]
    rfl

theorem act_acts {field : Option TargetField} {operand : Option Json} {target : Record}
    {answer : Status × Run σ} (h : act s c run field operand target = answer) :
    Acts s c run target field operand answer := by
  subst h
  by_cases hdelete : c.rule.action = .cascadeDelete
  · rw [act_deletes hdelete]
    exact .deletes hdelete
  · cases field with
    | none =>
      rw [act_none hdelete]
      exact .noField hdelete
    | some field =>
      by_cases hcheck : c.rule.action = .validate
      · rw [act_checks hcheck]
        exact .checks hcheck
      · rw [act_eq_write hdelete hcheck]
        cases operand with
        | none => exact .noOperand hdelete hcheck
        | some operand =>
          dsimp only
          split
          · next e hmutation => exact .badOperand hdelete hcheck hmutation
          · next m hmutation =>
            split
            · next e hsuits => exact .unsuited hdelete hcheck hmutation hsuits
            · next hsuits => exact .writes hdelete hcheck hmutation hsuits

/-! ## Applying a rule -/

/-- How one application of a rule ends. -/
inductive AppliesOnce (s : Setting) (c : Scope) (field : Option TargetField)
    (source : Option Source) (run : Run σ) (a : Application) : Run σ → Prop where
  | lacking (lacks : (c.rule.action.needsOperand && (c.operandOf source a).isNone) = true) :
      AppliesOnce s c field source run a
        (run.emit (c.outcome (a.item.map Item.index) none c.withoutOperand))
  | lost {miss : Miss}
      (targets : c.binding.targets s.registry run.store c.target c.trigger.record
        (a.item.map Item.element) = .error miss) :
      AppliesOnce s c field source run a
        (run.emit (c.outcome (a.item.map Item.index) none miss.status))
  | acts {targets : List Record}
      (found : c.binding.targets s.registry run.store c.target c.trigger.record
        (a.item.map Item.element) = .ok targets) :
      AppliesOnce s c field source run a
        (actOnAll s c field (c.operandOf source a) (a.item.map Item.index) targets run)

section

variable {field : Option TargetField} {source : Option Source} {a : Application}

theorem applyOnce_lacking
    (hoperand : (c.rule.action.needsOperand && (c.operandOf source a).isNone) = true) :
    applyOnce s c field source run a =
      run.emit (c.outcome (a.item.map Item.index) none c.withoutOperand) :=
  if_pos hoperand

/-- Without targets, an application only says why there are none. -/
theorem applyOnce_error {miss : Miss}
    (hoperand : ¬(c.rule.action.needsOperand && (c.operandOf source a).isNone) = true)
    (htargets : c.binding.targets s.registry run.store c.target c.trigger.record
      (a.item.map Item.element) = .error miss) (field : Option TargetField) :
    applyOnce s c field source run a =
      run.emit (c.outcome (a.item.map Item.index) none miss.status) := by
  unfold applyOnce
  dsimp only
  rw [if_neg hoperand, htargets]

theorem applyOnce_ok {targets : List Record}
    (hoperand : ¬(c.rule.action.needsOperand && (c.operandOf source a).isNone) = true)
    (htargets : c.binding.targets s.registry run.store c.target c.trigger.record
      (a.item.map Item.element) = .ok targets) (field : Option TargetField) :
    applyOnce s c field source run a =
      actOnAll s c field (c.operandOf source a) (a.item.map Item.index) targets run := by
  unfold applyOnce
  dsimp only
  rw [if_neg hoperand, htargets]

theorem applyOnce_applies {run' : Run σ} (h : applyOnce s c field source run a = run') :
    AppliesOnce s c field source run a run' := by
  subst h
  by_cases hoperand : (c.rule.action.needsOperand && (c.operandOf source a).isNone) = true
  · rw [applyOnce_lacking hoperand]
    exact .lacking hoperand
  · cases htargets : c.binding.targets s.registry run.store c.target c.trigger.record
        (a.item.map Item.element) with
    | error miss =>
      rw [applyOnce_error hoperand htargets]
      exact .lost htargets
    | ok targets =>
      rw [applyOnce_ok hoperand htargets]
      exact .acts htargets

end

/-- How the amount of one application is added up. -/
inductive Collects (s : Setting) (c : Scope) (run : Run σ) (totals : Totals) (a : Application) :
    Run σ × Totals → Prop where
  | lacking (operand : (a.operand.filter fun v => !v.isNull) = none) :
      Collects s c run totals a
        (run.emit (c.outcome (a.item.map Item.index) none
          (.skipped (.missingSource (c.rule.source.getD "")))), totals)
  | badAmount {operand : Json} {e : RuleError}
      (amount : signedAmount c.rule.action operand = .error e) :
      Collects s c run totals a
        (run.emit (c.outcome (a.item.map Item.index) none (.failed e)), totals)
  | lost {miss : Miss}
      (targets : c.binding.targets s.registry run.store c.target c.trigger.record
        (a.item.map Item.element) = .error miss) :
      Collects s c run totals a
        (run.emit (c.outcome (a.item.map Item.index) none miss.status), totals)
  | adds {amount : Binary64} {targets : List Record}
      (found : c.binding.targets s.registry run.store c.target c.trigger.record
        (a.item.map Item.element) = .ok targets) :
      Collects s c run totals a
        (run, targets.foldl (fun totals t => addTotal t.id amount totals) totals)

theorem collect_collects {totals : Totals} {a : Application} {sum : Run σ × Totals}
    (h : collect s c (run, totals) a = sum) : Collects s c run totals a sum := by
  subst h
  unfold collect
  dsimp only
  split
  · next hoperand => exact .lacking hoperand
  · split
    · next e hamount => exact .badAmount hamount
    · next amount _ =>
      split
      · next miss htargets => exact .lost htargets
      · next targets htargets => exact .adds htargets

/-- A field that is not for numbers takes no sums. -/
theorem applyCoalesced_error {field : TargetField} {e : RuleError}
    (h : checkNumeric field.kind = .error e) (applications : List Application) :
    applyCoalesced s c field run applications =
      applications.foldl
        (fun run a => run.emit (c.outcome (a.item.map Item.index) none (.failed e))) run := by
  unfold applyCoalesced
  rw [h]

theorem applyCoalesced_ok {field : TargetField} (h : checkNumeric field.kind = .ok ())
    (applications : List Application) :
    applyCoalesced s c field run applications =
      writeTotals s c field.name (applications.foldl (collect s c) (run, [])).2
        (applications.foldl (collect s c) (run, [])).1 := by
  unfold applyCoalesced
  rw [h]

theorem applyRule_other {name : String} (h : c.rule.action = .other name) (s : Setting)
    (run : Run σ) :
    applyRule s c run = run.emit (c.outcome none none (.skipped (.unknownAction name))) := by
  unfold applyRule
  rw [h]

theorem applyRule_eq (h : ∀ name, c.rule.action ≠ .other name) (s : Setting)
    (run : Run σ) :
    applyRule s c run =
      match c.targetField s.registry with
      | .error miss => run.emit (c.outcome none none miss.status)
      | .ok field =>
        match c.applications with
        | .error miss => run.emit (c.outcome none none miss.status)
        | .ok (_, []) => run.emit (c.outcome none none (.skipped .noItems))
        | .ok (source, applications) =>
          match field, c.coalesces s.config applications with
          | some field, true => applyCoalesced s c field run applications
          | field, _ => applications.foldl (applyOnce s c field source) run := by
  unfold applyRule
  split
  · next name hname => exact absurd hname (h name)
  · rfl

/-- What becomes of a rule whose target module is there. -/
inductive AppliesRule (s : Setting) (c : Scope) (run : Run σ) : Run σ → Prop where
  | unknown {name : String} (action : c.rule.action = .other name) :
      AppliesRule s c run (run.emit (c.outcome none none (.skipped (.unknownAction name))))
  | noField {miss : Miss} (known : ∀ name, c.rule.action ≠ .other name)
      (target : c.targetField s.registry = .error miss) :
      AppliesRule s c run (run.emit (c.outcome none none miss.status))
  | noApplications {field : Option TargetField} {miss : Miss}
      (known : ∀ name, c.rule.action ≠ .other name)
      (target : c.targetField s.registry = .ok field) (applied : c.applications = .error miss) :
      AppliesRule s c run (run.emit (c.outcome none none miss.status))
  | noItems {field : Option TargetField} {source : Option Source}
      (known : ∀ name, c.rule.action ≠ .other name)
      (target : c.targetField s.registry = .ok field)
      (applied : c.applications = .ok (source, [])) :
      AppliesRule s c run (run.emit (c.outcome none none (.skipped .noItems)))
  | sums {field : TargetField} {source : Option Source} {applications : List Application}
      (known : ∀ name, c.rule.action ≠ .other name)
      (target : c.targetField s.registry = .ok (some field))
      (applied : c.applications = .ok (source, applications)) (some : applications ≠ [])
      (coalesces : c.coalesces s.config applications = true) :
      AppliesRule s c run (applyCoalesced s c field run applications)
  | each {field : Option TargetField} {source : Option Source} {applications : List Application}
      (known : ∀ name, c.rule.action ≠ .other name)
      (target : c.targetField s.registry = .ok field)
      (applied : c.applications = .ok (source, applications)) (some : applications ≠ [])
      (apart : field = none ∨ c.coalesces s.config applications = false) :
      AppliesRule s c run (applications.foldl (applyOnce s c field source) run)

theorem applyRule_applies {run' : Run σ} (h : applyRule s c run = run') :
    AppliesRule s c run run' := by
  subst h
  by_cases hother : ∃ name, c.rule.action = .other name
  · obtain ⟨name, hname⟩ := hother
    rw [applyRule_other hname]
    exact .unknown hname
  · have hknown (name : String) : c.rule.action ≠ .other name := fun hname => hother ⟨name, hname⟩
    rw [applyRule_eq hknown]
    split
    · next miss htarget => exact .noField hknown htarget
    · next field htarget =>
      split
      · next miss happlied => exact .noApplications hknown htarget happlied
      · next source happlied => exact .noItems hknown htarget happlied
      · next source applications hsome happlied =>
        have hsome : applications ≠ [] := fun hnone => hsome hnone
        split
        · next field hsum => exact .sums hknown htarget happlied hsome hsum
        · next hapart =>
          refine .each hknown htarget happlied hsome ?_
          refine (Option.eq_none_or_eq_some _).imp_right fun ⟨field, hfield⟩ => ?_
          exact Bool.eq_false_iff.mpr (hapart field hfield)

/-! ## A rule at its turn -/

/-- How a rule takes its turn, after the look at the clock. -/
inductive RunsRule (s : Setting) (c : Scope) (run : Run σ) : Run σ → Prop where
  | late (late : (run.lookAtClock s).timedOut = true) :
      RunsRule s c run ((run.lookAtClock s).emit (c.outcome none none (.skipped .timeout)))
  | applied (early : (run.lookAtClock s).timedOut = false)
      (home : s.registry.hasModule c.target = true) :
      RunsRule s c run (applyRule s c (run.lookAtClock s))
  | gone (early : (run.lookAtClock s).timedOut = false)
      (gone : s.registry.hasModule c.target = false) :
      RunsRule s c run
        ((run.lookAtClock s).emit (c.outcome none none (.skipped (.notFound (.module c.target)))))

theorem runRule_runs {run' : Run σ} (h : runRule s c run = run') : RunsRule s c run run' := by
  subst h
  unfold runRule
  dsimp only
  split
  · next hlate => exact .late hlate
  · next hearly =>
    have hearly := Bool.eq_false_iff.mpr hearly
    split
    · next hhome => exact .applied hearly hhome
    · next hgone => exact .gone hearly (Bool.eq_false_iff.mpr hgone)

end

end RecordRules
