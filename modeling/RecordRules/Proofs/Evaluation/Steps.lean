/-
The steps of a run.

A run goes on in small steps: an event is taken from the queue, the clock is looked at, or a rule
of the event that is being evaluated does something to one record.  Each function of the evaluator
is shown to be a chain of such steps, so what every step preserves holds wherever a run gets to.
-/
import Mathlib.Logic.Relation
import RecordRules.Proofs.Evaluation.Schedule
import RecordRules.Proofs.Evaluation.Walk
import RecordRules.Proofs.Store.Laws

namespace RecordRules

open Relation

/-! ## Steps -/

section

variable {σ : Type} [RecordStore σ]

inductive Write (s : Setting) (c : Scope) : Run σ → Run σ → Prop where
  | change {run : Run σ} {store : σ} {id : RecordId} {field : TargetField} {m : Mutation}
      {w : FieldWrite} (itemIndex : Option Nat)
      (deletes : c.rule.action ≠ .cascadeDelete)
      (checks : c.rule.action ≠ .validate)
      (target : c.targetField s.registry = .ok (some field))
      (suits : m.checkFor field.kind = .ok ())
      (write : RecordStore.mutateField run.store c.target id field.name m (s.clock.now run.writes) =
        .ok (w, store))
      (changed : w.changed = true) :
      Write s c run (run.wrote s store (run.writes + 1) (.changed c.target field.name w)
        ⟨c.target, .update, w.record, c.trigger.depth + 1⟩
        (c.outcome itemIndex (some id) (.applied true)))
  | delete {run : Run σ} {store : σ} {id : RecordId} {r : Record} (itemIndex : Option Nat)
      (deletes : c.rule.action = .cascadeDelete)
      (delete : RecordStore.delete run.store c.target id = .ok (some r, store)) :
      Write s c run (run.wrote s store run.writes (.deleted c.target r)
        ⟨c.target, .delete, r, c.trigger.depth + 1⟩
        (c.outcome itemIndex (some id) (.applied true)))

/-- A rule leaves the records alone and says how that came, or writes. -/
inductive RuleStep (s : Setting) (c : Scope) : Run σ → Run σ → Prop where
  | quiet (run : Run σ) (writes : Nat) (itemIndex : Option Nat) (target : Option RecordId)
      {status : Status} (quiet : status ≠ .applied true) :
      RuleStep s c run ({ run with writes }.emit (c.outcome itemIndex target status))
  | write {run run' : Run σ} (write : Write s c run run') : RuleStep s c run run'

/-- One step in the evaluation of an event. -/
inductive TriggerStep (s : Setting) (mode : Mode) (t : Trigger) : Run σ → Run σ → Prop where
  | look (run : Run σ) : TriggerStep s mode t run (run.lookAtClock s)
  | dangling (run : Run σ) {index : Nat} {r : Relationship}
      (place : (s.registry.relationshipsFrom t.module)[index]? = some r)
      (rules : r.rules.get t.event ≠ [])
      (gone : s.registry.hasModule r.target = false) :
      TriggerStep s mode t run (run.warn (.danglingTarget t.module index r.target))
  | late (run : Run σ) {c : Scope} (place : c.InPlace s mode t) (late : run.timedOut = true) :
      TriggerStep s mode t run (run.emit (c.outcome none none (.skipped .timeout)))
  | gone (run : Run σ) {c : Scope} (place : c.InPlace s mode t) (early : run.timedOut = false)
      (gone : s.registry.hasModule c.target = false) :
      TriggerStep s mode t run
        (run.emit (c.outcome none none (.skipped (.notFound (.module c.target)))))
  | rule {run run' : Run σ} {c : Scope} (place : c.InPlace s mode t) (early : run.timedOut = false)
      (home : s.registry.hasModule c.target = true) (step : RuleStep s c run run') :
      TriggerStep s mode t run run'

inductive RunStep (s : Setting) (rootMode : Mode) : Run σ → Run σ → Prop where
  | take {run : Run σ} {t : Trigger} {rest : List Trigger} (queue : run.queue = t :: rest) :
      RunStep s rootMode run (run.take t rest)
  | work {run run' : Run σ} {t : Trigger} (current : run.current? = some t)
      (step : TriggerStep s (modeOf rootMode t) t run run') : RunStep s rootMode run run'

abbrev Reaches (s : Setting) (rootMode : Mode) : Run σ → Run σ → Prop :=
  ReflTransGen (RunStep s rootMode)

theorem RuleStep.timedOut {s : Setting} {c : Scope} {run run' : Run σ} (h : RuleStep s c run run') :
    run'.timedOut = run.timedOut := by
  cases h with
  | quiet writes itemIndex target hquiet => rfl
  | write hwrite =>
    cases hwrite with
    | change => exact Run.wrote_timedOut ..
    | delete => exact Run.wrote_timedOut ..

/-- The steps of a rule are steps of its event: the time does not run out while it is applied. -/
theorem rule_steps {s : Setting} {c : Scope} {mode : Mode} {t : Trigger} {run run' : Run σ}
    (place : c.InPlace s mode t) (early : run.timedOut = false)
    (home : s.registry.hasModule c.target = true) (h : ReflTransGen (RuleStep s c) run run') :
    ReflTransGen (TriggerStep s mode t) run run' := by
  suffices h : ReflTransGen (TriggerStep s mode t) run run' ∧ run'.timedOut = false from h.1
  induction h with
  | refl => exact ⟨.refl, early⟩
  | tail _ step ih =>
    exact ⟨ih.1.tail (.rule place ih.2 home step), step.timedOut.trans ih.2⟩

/-! ## Acting on a record -/

theorem emit_step {s : Setting} {c : Scope} (run : Run σ) (itemIndex : Option Nat)
    (target : Option RecordId) {status : Status} (h : status ≠ .applied true) :
    RuleStep s c run (run.emit (c.outcome itemIndex target status)) :=
  .quiet run run.writes itemIndex target h

section

variable [LawfulRecordStore σ] {s : Setting} {c : Scope}

theorem writeField_step {field : TargetField} {m : Mutation} (hm : c.Changes s.registry field m)
    (itemIndex : Option Nat) (run : Run σ) (id : RecordId) :
    RuleStep s c run (c.tell itemIndex id (writeField s c run id field.name m)) := by
  generalize h : writeField s c run id field.name m = answer
  cases writeField_written h with
  | refused => exact .quiet run _ itemIndex _ (Miss.status_ne_applied _ true)
  | changed hwrite hchanged =>
    exact .write (.change itemIndex hm.kept hm.unchecked hm.target hm.suits hwrite hchanged)
  | unchanged hwrite hunchanged =>
    rw [LawfulRecordStore.eq_of_unchanged hwrite hunchanged]
    exact .quiet run _ itemIndex _ (by simp)

theorem deleteRecord_step (hdelete : c.rule.action = .cascadeDelete) (itemIndex : Option Nat)
    (run : Run σ) (id : RecordId) :
    RuleStep s c run (c.tell itemIndex id (deleteRecord s c run id)) := by
  generalize h : deleteRecord s c run id = answer
  cases deleteRecord_deleted h with
  | refused => exact emit_step run itemIndex _ (Miss.status_ne_applied _ true)
  | missing hd =>
    rw [LawfulRecordStore.eq_of_delete_none hd]
    exact emit_step run itemIndex _ Status.noConfusion
  | deleted hd => exact .write (.delete itemIndex hdelete hd)

/-! ## Applying a rule -/

theorem keeps_steps (s : Setting) (c : Scope) (run : Run σ) :
    c.Keeps s (ReflTransGen (RuleStep s c) run) where
  emit itemIndex target _ _ hquiet h := h.tail (emit_step _ itemIndex target hquiet)
  write itemIndex id _ _ hm h := h.tail (writeField_step hm itemIndex _ id)
  delete itemIndex id hdelete h := h.tail (deleteRecord_step hdelete itemIndex _ id)

theorem applyRule_steps (run : Run σ) :
    ReflTransGen (RuleStep s c) run (applyRule s c run) :=
  (keeps_steps s c run).applyRule .refl

/-! ## Evaluating an event -/

variable {mode : Mode} {t : Trigger}

theorem runRule_steps (place : c.InPlace s mode t) (run : Run σ) :
    ReflTransGen (TriggerStep s mode t) run (runRule s c run) := by
  refine .head (.look run) ?_
  generalize h : runRule s c run = run'
  cases runRule_runs h with
  | late late => exact .single (.late _ place late)
  | applied early home => exact rule_steps place early home (applyRule_steps _)
  | gone early gone => exact .single (.gone _ place early gone)

theorem runTrigger_steps (run : Run σ) :
    ReflTransGen (TriggerStep s mode t) run (runTrigger s mode t run) := by
  refine runTrigger_keeps s (fun index r hat hrules hgone run' h => ?_)
    (fun c place run' h => h.trans (runRule_steps place run')) .refl
  exact h.tail (.dangling run' hat hrules hgone)

end

/-! ## What a step does -/

variable {s : Setting}

/-- A step in the evaluation of an event leaves records and events alone, or is a write of a rule
in its place. -/
theorem TriggerStep.cases {mode : Mode} {t : Trigger} {run run' : Run σ}
    (h : TriggerStep s mode t run run') :
    run.Idles run' ∨ ∃ c : Scope, c.InPlace s mode t ∧ run.timedOut = false ∧
      s.registry.hasModule c.target = true ∧ Write s c run run' := by
  cases h with
  | look => exact Or.inl (.of_lookAtClock s run)
  | dangling => exact Or.inl (.of_warn run rfl)
  | late => exact Or.inl (.of_emit run run.writes Status.noConfusion)
  | gone => exact Or.inl (.of_emit run run.writes Status.noConfusion)
  | @rule _ c place early home step =>
    cases step with
    | quiet writes itemIndex target hquiet => exact Or.inl (.of_emit run writes hquiet)
    | write hwrite => exact Or.inr ⟨c, place, early, home, hwrite⟩

/-- An outcome says how a rule in its place went. -/
def Outcome.Of (o : Outcome) (s : Setting) (mode : Mode) (t : Trigger) : Prop :=
  ∃ c : Scope, c.InPlace s mode t ∧ ∃ itemIndex target status,
    o = c.outcome itemIndex target status

theorem TriggerStep.outcomes {mode : Mode} {t : Trigger} {run run' : Run σ}
    (h : TriggerStep s mode t run run') :
    ∃ os, run'.outcomes = run.outcomes ++ os ∧ ∀ o ∈ os, o.Of s mode t := by
  cases h with
  | look =>
    obtain ⟨looks, timedOut, ws, heq⟩ := Run.lookAtClock_eq s run
    exact ⟨[], by rw [heq, List.append_nil], List.forall_mem_nil _⟩
  | dangling => exact ⟨[], (List.append_nil _).symm, List.forall_mem_nil _⟩
  | late place | gone place =>
    exact ⟨_, rfl, List.forall_mem_singleton.mpr ⟨_, place, _, _, _, rfl⟩⟩
  | rule place _ _ step =>
    cases step with
    | quiet => exact ⟨_, rfl, List.forall_mem_singleton.mpr ⟨_, place, _, _, _, rfl⟩⟩
    | write hwrite =>
      cases hwrite with
      | change =>
        exact ⟨_, Run.wrote_outcomes .., List.forall_mem_singleton.mpr ⟨_, place, _, _, _, rfl⟩⟩
      | delete =>
        exact ⟨_, Run.wrote_outcomes .., List.forall_mem_singleton.mpr ⟨_, place, _, _, _, rfl⟩⟩

theorem steps_outcomes {mode : Mode} {t : Trigger} {run run' : Run σ}
    (h : ReflTransGen (TriggerStep s mode t) run run') :
    ∃ os, run'.outcomes = run.outcomes ++ os ∧ ∀ o ∈ os, o.Of s mode t := by
  induction h with
  | refl => exact ⟨[], (List.append_nil _).symm, List.forall_mem_nil _⟩
  | tail _ step ih =>
    obtain ⟨os, hos, hof⟩ := ih
    obtain ⟨more, hmore, hmoreOf⟩ := step.outcomes
    refine ⟨os ++ more, by rw [hmore, hos, List.append_assoc], ?_⟩
    exact List.forall_mem_append.mpr ⟨hof, hmoreOf⟩

theorem RunStep.cases {rootMode : Mode} {run run' : Run σ} (h : RunStep s rootMode run run') :
    run.Idles run' ∨
      (∃ t rest, run.queue = t :: rest ∧ run' = run.take t rest) ∨
      (∃ t c, run.current? = some t ∧ Scope.InPlace c s (modeOf rootMode t) t ∧
        run.timedOut = false ∧ s.registry.hasModule c.target = true ∧ Write s c run run') := by
  cases h with
  | @take t rest hqueue => exact Or.inr (Or.inl ⟨t, rest, hqueue, rfl⟩)
  | @work _ t hcurrent step =>
    rcases step.cases with hidle | ⟨c, place, early, home, hwrite⟩
    · exact Or.inl hidle
    · exact Or.inr (Or.inr ⟨t, c, hcurrent, place, early, home, hwrite⟩)

/-! ## Writes -/

/-- What a write does to the records, seen from the event that it causes: both sorts of write have
this in common. -/
structure Effect (c : Scope) (run : Run σ) (store : σ) (h : Happening) (u : Trigger) : Prop where
  causes : h.Causes u
  module : u.module = c.target
  depth : u.depth = c.trigger.depth + 1
  there : ∃ r, RecordStore.get run.store u.module u.record.id = .ok (some r)
  elsewhere : ∀ module id, (module, id) ≠ (u.module, u.record.id) →
    RecordStore.get store module id = RecordStore.get run.store module id
  updated : u.event = .update → RecordStore.ReadsBack σ u.record.data →
    RecordStore.get store u.module u.record.id = .ok (some u.record)
  kept : u.event = .update → RecordStore.Holds store (u.module, u.record.id)
  deleted : u.event = .delete → RecordStore.get store u.module u.record.id = .ok none

theorem Write.effect [LawfulRecordStore σ] {c : Scope} {run run' : Run σ}
    (h : Write s c run run') :
    ∃ store writes happening u o,
      run' = run.wrote s store writes happening u o ∧ Effect c run store happening u := by
  cases h with
  | @change store id field m w itemIndex _ _ _ _ hwrite hchanged =>
    obtain ⟨r, hr, hmutate⟩ := LawfulRecordStore.mutate_of_mutateField hwrite
    have hid : w.record.id = id :=
      (Record.mutate_keeps hmutate).1.trans (LawfulRecordStore.key_of_get hr).2
    refine ⟨_, _, _, _, _, rfl, ⟨hchanged, rfl, rfl, rfl⟩, rfl, rfl, ⟨r, ?_⟩, ?_, ?_, ?_, nofun⟩
    · dsimp only
      rw [hid]
      exact hr
    · dsimp only
      rw [hid]
      exact fun _ _ hne => LawfulRecordStore.get_mutateField_of_ne hwrite hne
    · intro _ hread
      dsimp only
      rw [hid]
      exact hread _ _ _ _ _ _ _ _ hwrite rfl
    · intro _
      dsimp only
      rw [hid]
      exact LawfulRecordStore.get_mutateField_ne_none hwrite
  | @delete store id r itemIndex _ hdelete =>
    have hr := LawfulRecordStore.get_of_delete hdelete
    have hid : r.id = id := (LawfulRecordStore.key_of_get hr).2
    refine ⟨_, _, _, _, _, rfl, ⟨rfl, rfl, rfl⟩, rfl, rfl, ⟨r, ?_⟩, ?_, nofun, nofun, ?_⟩
    · dsimp only
      rw [hid]
      exact hr
    · dsimp only
      rw [hid]
      exact fun _ _ hne => LawfulRecordStore.get_delete_of_ne hdelete hne
    · intro _
      dsimp only
      rw [hid]
      exact LawfulRecordStore.get_delete_self hdelete

theorem Effect.held {c : Scope} {run : Run σ} {store : σ} {h : Happening} {u : Trigger}
    (he : Effect c run store h u) {k : ModuleId × RecordId} (hk : RecordStore.Holds store k) :
    RecordStore.Holds run.store k := by
  by_cases hne : (k.1, k.2) = (u.module, u.record.id)
  · obtain ⟨r, hr⟩ := he.there
    have hk' : k = (u.module, u.record.id) := hne
    rw [hk']
    exact .of_get hr
  · unfold RecordStore.Holds at hk ⊢
    rw [← he.elsewhere _ _ hne]
    exact hk

theorem Effect.event_of_holds {c : Scope} {run : Run σ} {store : σ} {h : Happening} {u : Trigger}
    (he : Effect c run store h u) (hheld : RecordStore.Holds store (u.module, u.record.id)) :
    u.event = .update := by
  cases hu : u.event with
  | create => exact absurd hu he.causes.event_ne_create
  | update => rfl
  | delete => exact absurd (he.deleted hu) hheld

theorem Effect.event_of_not_holds {c : Scope} {run : Run σ} {store : σ} {h : Happening}
    {u : Trigger} (he : Effect c run store h u)
    (hnot : ¬RecordStore.Holds store (u.module, u.record.id)) : u.event = .delete := by
  cases hu : u.event with
  | create => exact absurd hu he.causes.event_ne_create
  | update => exact absurd (he.kept hu) hnot
  | delete => rfl

theorem TriggerStep.evaluated [LawfulRecordStore σ] {mode : Mode} {t : Trigger} {run run' : Run σ}
    (h : TriggerStep s mode t run run') : run'.evaluated = run.evaluated := by
  rcases h.cases with hidle | ⟨c, _, _, _, hwrite⟩
  · exact Run.evaluated_congr hidle.history
  · obtain ⟨store, writes, happening, u, o, rfl, he⟩ := hwrite.effect
    exact Run.evaluated_wrote s run store writes he.causes o

theorem steps_evaluated [LawfulRecordStore σ] {mode : Mode} {t : Trigger} {run run' : Run σ}
    (h : ReflTransGen (TriggerStep s mode t) run run') : run'.evaluated = run.evaluated := by
  induction h with
  | refl => rfl
  | tail _ step ih => exact step.evaluated.trans ih

/-! ## Evaluating the queue -/

section

variable [LawfulRecordStore σ] {rootMode : Mode}

theorem work_reaches {t : Trigger} {run run' : Run σ} (hcurrent : run.current? = some t)
    (h : ReflTransGen (TriggerStep s (modeOf rootMode t) t) run run') :
    Reaches s rootMode run run' := by
  induction h with
  | refl => exact .refl
  | tail h step ih =>
    exact ih.tail (.work ((Run.current?_congr (steps_evaluated h)).trans hcurrent) step)

theorem next_reaches {t : Trigger} {rest : List Trigger} {run : Run σ}
    (hqueue : run.queue = t :: rest) : Reaches s rootMode run (next s rootMode t rest run) :=
  .head (.take hqueue) (work_reaches (run.current?_take t rest) (runTrigger_steps _))

/-- Evaluating an event adds it to those that were evaluated, and no other. -/
theorem evaluated_next (t : Trigger) (rest : List Trigger) (run : Run σ) :
    (next s rootMode t rest run).evaluated = run.evaluated ++ [t] := by
  have hsteps : ReflTransGen (TriggerStep s (modeOf rootMode t) t) (run.take t rest)
      (next s rootMode t rest run) := runTrigger_steps _
  rw [← Run.evaluated_take t rest run]
  exact steps_evaluated hsteps

theorem drain_reaches (rounds : Nat) (run : Run σ) :
    Reaches s rootMode run (drain s rootMode rounds run) :=
  drain_keeps s (fun _ _ _ hqueue h => h.trans (next_reaches hqueue)) rounds .refl

theorem evaluation_reaches (registry : Registry) (config : Config) (clock : Clock) (store : σ)
    (module : ModuleId) (event : Event) (record : Record) (prechecked : Option (List Outcome)) :
    Reaches (.ofRoot registry config clock) (.ofRoot prechecked)
      (Run.root store module event record (prechecked.getD []))
      (evaluation registry config clock store module event record prechecked) :=
  drain_reaches _ _

end

end
end RecordRules
