/-
Runs in lockstep.

Two runs may have different stores and may have reported different things.  A relation between them
that a field write, a deletion and an outcome of a rule keep, and under which the rule finds the
same targets, is kept by the rule as a whole.  What every rule of an event keeps at its turn, the
event keeps, and which rules have a turn may differ between the two.
-/
import RecordRules.Proofs.Evaluation.Twin

namespace RecordRules

/-- The setting with another clock. -/
def Setting.withClock (s : Setting) (k : Clock) : Setting := { s with clock := k }

section

variable {σ : Type}

/-! ## The rest of a run -/

/-- A run with another store, other outcomes and another count of looks at the clock.  None of them
decides which events it queues. -/
def Run.but (run : Run σ) (store : σ) (outcomes : List Outcome) (looks : Nat) : Run σ :=
  { run with store, outcomes, looks }

theorem Run.schedule_but (s : Setting) (k : Clock) (run : Run σ) (store : σ)
    (outcomes : List Outcome) (looks : Nat) (t : Trigger) :
    (run.but store outcomes looks).schedule (s.withClock k) t =
      (run.schedule s t).but store outcomes looks := by
  unfold schedule
  show (if (run.queue.any fun u => u.key = t.key) = true then _ else _) = _
  split
  · rfl
  · show (if s.maxDepth < t.depth then _ else _) = _
    split
    · rfl
    · show (if run.visited.contains t.key = true then _ else _) = _
      split <;> rfl

variable [RecordStore σ] {R : σ → σ → Prop}

theorem writeField_looks (s : Setting) (c : Scope) (run : Run σ) (id : RecordId) (field : String)
    (m : Mutation) : (writeField s c run id field m).2.looks = run.looks := by
  generalize h : writeField s c run id field m = answer
  cases writeField_written h with
  | refused | unchanged => rfl
  | changed => exact Run.schedule_looks ..

theorem deleteRecord_looks (s : Setting) (c : Scope) (run : Run σ) (id : RecordId) :
    (deleteRecord s c run id).2.looks = run.looks := by
  generalize h : deleteRecord s c run id = answer
  cases deleteRecord_deleted h with
  | refused | missing => rfl
  | deleted => exact Run.schedule_looks ..

/-- A field write goes the same way if the stores give the same answer. -/
theorem writeField_but {s : Setting} {k : Clock} (hnow : k.now = s.clock.now) (c : Scope)
    (run : Run σ) {id : RecordId} {field : String} {m : Mutation} {store : σ}
    (h : R run.store store)
    (hanswer : SameAnswer R
      (RecordStore.mutateField run.store c.target id field m (s.clock.now run.writes))
      (RecordStore.mutateField store c.target id field m (s.clock.now run.writes)))
    (outcomes : List Outcome) (looks : Nat) :
    ∃ store', R (writeField s c run id field m).2.store store' ∧
      writeField (s.withClock k) c (run.but store outcomes looks) id field m =
        ((writeField s c run id field m).1,
          (writeField s c run id field m).2.but store' outcomes looks) := by
  unfold writeField
  simp only [Run.but, Setting.withClock, hnow]
  generalize RecordStore.mutateField run.store c.target id field m (s.clock.now run.writes) = answer
    at hanswer ⊢
  generalize RecordStore.mutateField store c.target id field m (s.clock.now run.writes) = answer'
    at hanswer ⊢
  cases hanswer with
  | error e => exact ⟨store, h, rfl⟩
  | @ok w after after' hafter =>
    dsimp only
    by_cases hc : w.changed = true
    · have hschedule := Run.schedule_but s k
        ({ run with store := after, writes := run.writes + 1 }.note (.changed c.target field w))
        after' outcomes looks ⟨c.target, .update, w.record, c.trigger.depth + 1⟩
      rw [if_pos hc, if_pos hc, Run.schedule_store]
      exact ⟨after', hafter, congrArg (Prod.mk _) hschedule⟩
    · rw [if_neg hc, if_neg hc]
      exact ⟨after', hafter, rfl⟩

theorem deleteRecord_but {s : Setting} (k : Clock) (c : Scope) (run : Run σ) {id : RecordId}
    {store : σ} (h : R run.store store)
    (hanswer : SameAnswer R (RecordStore.delete run.store c.target id)
      (RecordStore.delete store c.target id)) (outcomes : List Outcome) (looks : Nat) :
    ∃ store', R (deleteRecord s c run id).2.store store' ∧
      deleteRecord (s.withClock k) c (run.but store outcomes looks) id =
        ((deleteRecord s c run id).1, (deleteRecord s c run id).2.but store' outcomes looks) := by
  unfold deleteRecord
  simp only [Run.but]
  generalize RecordStore.delete run.store c.target id = answer at hanswer ⊢
  generalize RecordStore.delete store c.target id = answer' at hanswer ⊢
  cases hanswer with
  | error e => exact ⟨store, h, rfl⟩
  | @ok found after after' hafter =>
    cases found with
    | none => exact ⟨after', hafter, rfl⟩
    | some r =>
      have hschedule := Run.schedule_but s k
        ({ run with store := after }.note (.deleted c.target r)) after' outcomes looks
        ⟨c.target, .delete, r, c.trigger.depth + 1⟩
      dsimp only
      rw [Run.schedule_store]
      exact ⟨after', hafter, congrArg (Prod.mk _) hschedule⟩

end

/-! ## Applying a rule -/

section

variable {σ : Type} [RecordStore σ]

/-- A relation between runs that the parts of a rule keep, if it is applied to both of them. -/
structure Lockstep (s : Setting) (k : Clock) (c : Scope) (Rel : Run σ → Run σ → Prop) : Prop where
  emit : ∀ {run run'} itemIndex target status, Rel run run' →
    Rel (run.emit (c.outcome itemIndex target status))
      (run'.emit (c.outcome itemIndex target status))
  targets : ∀ {run run'} element, Rel run run' →
    c.binding.targets s.registry run'.store c.target c.trigger.record element =
      c.binding.targets s.registry run.store c.target c.trigger.record element
  write : ∀ {run run'} itemIndex id field m, Rel run run' →
    Rel (c.tell itemIndex id (writeField s c run id field m))
      (c.tell itemIndex id (writeField (s.withClock k) c run' id field m))
  delete : ∀ {run run'} itemIndex id, Rel run run' →
    Rel (c.tell itemIndex id (deleteRecord s c run id))
      (c.tell itemIndex id (deleteRecord (s.withClock k) c run' id))

namespace Lockstep

variable {s : Setting} {k : Clock} {c : Scope} {Rel : Run σ → Run σ → Prop} {run run' : Run σ}

theorem act (h : Lockstep s k c Rel) (field : Option TargetField) (operand : Option Json)
    (t : Record) (itemIndex : Option Nat) (hrel : Rel run run') :
    Rel (c.tell itemIndex t.id (act s c run field operand t))
      (c.tell itemIndex t.id (RecordRules.act (s.withClock k) c run' field operand t)) := by
  rcases act_cases (σ := σ) c field operand t with hact | ⟨name, m, hact⟩ | ⟨status, hact⟩
  · rw [hact s c run rfl, hact _ c run' rfl]
    exact h.delete itemIndex t.id hrel
  · rw [hact s c run rfl, hact _ c run' rfl]
    exact h.write itemIndex t.id name m hrel
  · rw [hact s c run rfl, hact _ c run' rfl]
    exact h.emit itemIndex (some t.id) status hrel

theorem actOnAll (h : Lockstep s k c Rel) (field : Option TargetField) (operand : Option Json)
    (itemIndex : Option Nat) (targets : List Record) (hrel : Rel run run') :
    Rel (actOnAll s c field operand itemIndex targets run)
      (RecordRules.actOnAll (s.withClock k) c field operand itemIndex targets run') := by
  induction targets generalizing run run' with
  | nil => exact hrel
  | cons t rest ih => exact ih (h.act field operand t itemIndex hrel)

theorem applyOnce (h : Lockstep s k c Rel) (field : Option TargetField) (source : Option Source)
    (a : Application) (hrel : Rel run run') :
    Rel (applyOnce s c field source run a)
      (RecordRules.applyOnce (s.withClock k) c field source run' a) := by
  have hsame : c.binding.targets (s.withClock k).registry run'.store c.target c.trigger.record
      (a.item.map fun i => i.element) = _ := h.targets _ hrel
  unfold RecordRules.applyOnce
  dsimp only
  rw [hsame]
  split
  · exact h.emit _ _ _ hrel
  · cases c.binding.targets s.registry run.store c.target c.trigger.record
        (a.item.map fun i => i.element) with
    | error miss => exact h.emit _ _ _ hrel
    | ok targets => exact h.actOnAll _ _ _ _ hrel

omit [RecordStore σ] in
/-- Going through a list keeps a relation if each item does. -/
theorem foldl {α : Type} {f f' : Run σ → α → Run σ}
    (hstep : ∀ run run' a, Rel run run' → Rel (f run a) (f' run' a)) (l : List α)
    (hrel : Rel run run') : Rel (l.foldl f run) (l.foldl f' run') := by
  induction l generalizing run run' with
  | nil => exact hrel
  | cons a rest ih => exact ih (hstep _ _ a hrel)

/-- The same totals are collected. -/
theorem collect (h : Lockstep s k c Rel) (totals : Totals) (a : Application)
    (hrel : Rel run run') :
    Rel (collect s c (run, totals) a).1 (RecordRules.collect (s.withClock k) c (run', totals) a).1 ∧
      (RecordRules.collect (s.withClock k) c (run', totals) a).2 =
        (RecordRules.collect s c (run, totals) a).2 := by
  have hsame : c.binding.targets (s.withClock k).registry run'.store c.target c.trigger.record
      (a.item.map fun i => i.element) = _ := h.targets _ hrel
  unfold RecordRules.collect
  dsimp only
  rw [hsame]
  cases a.operand.filter fun v => !v.isNull with
  | none => exact ⟨h.emit _ _ _ hrel, rfl⟩
  | some operand =>
    dsimp only
    cases signedAmount c.rule.action operand with
    | error e => exact ⟨h.emit _ _ _ hrel, rfl⟩
    | ok amount =>
      dsimp only
      cases c.binding.targets s.registry run.store c.target c.trigger.record
          (a.item.map fun i => i.element) with
      | error miss => exact ⟨h.emit _ _ _ hrel, rfl⟩
      | ok targets => exact ⟨hrel, rfl⟩

theorem collectAll (h : Lockstep s k c Rel) (applications : List Application) (totals : Totals)
    (hrel : Rel run run') :
    Rel (applications.foldl (RecordRules.collect s c) (run, totals)).1
        (applications.foldl (RecordRules.collect (s.withClock k) c) (run', totals)).1 ∧
      (applications.foldl (RecordRules.collect (s.withClock k) c) (run', totals)).2 =
        (applications.foldl (RecordRules.collect s c) (run, totals)).2 := by
  induction applications generalizing run run' totals with
  | nil => exact ⟨hrel, rfl⟩
  | cons a rest ih =>
    obtain ⟨hnext, hsame⟩ := h.collect totals a hrel
    have hpair : RecordRules.collect (s.withClock k) c (run', totals) a =
        ((RecordRules.collect (s.withClock k) c (run', totals) a).1,
          (RecordRules.collect s c (run, totals) a).2) := by
      rw [← hsame]
    rw [List.foldl_cons, List.foldl_cons, hpair]
    exact ih _ hnext

theorem writeTotals (h : Lockstep s k c Rel) (field : String) (totals : Totals)
    (hrel : Rel run run') :
    Rel (writeTotals s c field totals run)
      (RecordRules.writeTotals (s.withClock k) c field totals run') := by
  induction totals generalizing run run' with
  | nil => exact hrel
  | cons e rest ih => exact ih (h.write none e.1 field (.add e.2) hrel)

theorem applyCoalesced (h : Lockstep s k c Rel) (field : TargetField)
    (applications : List Application) (hrel : Rel run run') :
    Rel (applyCoalesced s c field run applications)
      (RecordRules.applyCoalesced (s.withClock k) c field run' applications) := by
  unfold RecordRules.applyCoalesced
  split
  · refine foldl ?_ applications hrel
    intro run run' a hrel
    exact h.emit _ _ _ hrel
  · obtain ⟨hnext, hsame⟩ := h.collectAll applications [] hrel
    dsimp only
    rw [hsame]
    exact h.writeTotals field.name _ hnext

/-- A rule that is applied to two runs keeps a relation that its parts keep. -/
theorem applyRule (h : Lockstep s k c Rel) (hrel : Rel run run') :
    Rel (applyRule s c run) (RecordRules.applyRule (s.withClock k) c run') := by
  by_cases hother : ∃ name, c.rule.action = .other name
  · obtain ⟨name, hname⟩ := hother
    rw [applyRule_other hname, applyRule_other hname]
    exact h.emit _ _ _ hrel
  · have hknown (name : String) : c.rule.action ≠ .other name := fun hname => hother ⟨name, hname⟩
    have hfield : c.targetField (s.withClock k).registry = c.targetField s.registry := rfl
    rw [applyRule_eq hknown, applyRule_eq hknown, hfield]
    cases c.targetField s.registry with
    | error miss => exact h.emit _ _ _ hrel
    | ok field =>
      dsimp only
      cases c.applications with
      | error miss => exact h.emit _ _ _ hrel
      | ok parts =>
        obtain ⟨source, _ | ⟨a, rest⟩⟩ := parts
        · exact h.emit _ _ _ hrel
        · have hfold (field : Option TargetField) := foldl
            (fun _ _ a hrel => h.applyOnce field source a hrel) (a :: rest) hrel
          dsimp only [Setting.withClock]
          cases field with
          | none => exact hfold none
          | some field =>
            cases c.coalesces s.config (a :: rest) with
            | true => exact h.applyCoalesced field _ hrel
            | false => exact hfold (some field)

end Lockstep

/-! ## A rule at its turn -/

/-- What happens when a rule of an event comes to its turn: it runs, or it is none of those that
run. -/
def Scope.turn (c : Scope) (s : Setting) (mode : Mode) (run : Run σ) : Run σ :=
  if mode.runs c.rule.action then runRule s c run else run

section

variable {s : Setting} {k : Clock} {mode mode' : Mode} {t : Trigger}
  {Rel : Run σ → Run σ → Prop}

theorem runRules_lockstep
    (hturn : ∀ c : Scope, c.InPlace s .everything t → ∀ run run', Rel run run' →
      Rel (c.turn s mode run) (c.turn (s.withClock k) mode' run'))
    {relationshipIndex : Nat} {r : Relationship}
    (hplace : (s.registry.relationshipsFrom t.module)[relationshipIndex]? = some r) {index : Nat}
    {rules : List Rule} (hrules : (r.rules.get t.event).drop index = rules) {run run' : Run σ}
    (hrel : Rel run run') :
    Rel (runRules s mode t (s.registry.listFields t.module) relationshipIndex r index rules run)
      (runRules (s.withClock k) mode' t (s.registry.listFields t.module) relationshipIndex r index
        rules run') := by
  induction rules generalizing index run run' with
  | nil => exact hrel
  | cons rule rest ih =>
    obtain ⟨hrule, hrest⟩ := getElem?_of_drop_cons hrules
    exact ih hrest (hturn ⟨t, relationshipIndex, r, _, index, rule⟩
      ⟨rfl, hplace, rfl, hrule, rfl⟩ run run' hrel)

theorem runRelationships_lockstep
    (hwarn : ∀ w run run', Rel run run' → Rel (run.warn w) (run'.warn w))
    (hturn : ∀ c : Scope, c.InPlace s .everything t → ∀ run run', Rel run run' →
      Rel (c.turn s mode run) (c.turn (s.withClock k) mode' run'))
    {index : Nat} {relationships : List Relationship}
    (hrelationships : (s.registry.relationshipsFrom t.module).drop index = relationships)
    {run run' : Run σ} (hrel : Rel run run') :
    Rel (runRelationships s mode t (s.registry.listFields t.module) index relationships run)
      (runRelationships (s.withClock k) mode' t (s.registry.listFields t.module) index
        relationships run') := by
  induction relationships generalizing index run run' with
  | nil => exact hrel
  | cons r rest ih =>
    obtain ⟨hplace, hrest⟩ := getElem?_of_drop_cons hrelationships
    refine ih hrest (runRules_lockstep hturn hplace rfl ?_)
    show Rel _ (if ((r.rules.get t.event).isEmpty || s.registry.hasModule r.target) = true then _
      else _)
    split
    · exact hrel
    · exact hwarn _ run run' hrel

/-- What the rules of an event keep at their turns, the event keeps. -/
theorem runTrigger_lockstep
    (hwarn : ∀ w run run', Rel run run' → Rel (run.warn w) (run'.warn w))
    (hturn : ∀ c : Scope, c.InPlace s .everything t → ∀ run run', Rel run run' →
      Rel (c.turn s mode run) (c.turn (s.withClock k) mode' run'))
    {run run' : Run σ} (hrel : Rel run run') :
    Rel (runTrigger s mode t run) (runTrigger (s.withClock k) mode' t run') :=
  runRelationships_lockstep hwarn hturn rfl hrel

end

end

end RecordRules
