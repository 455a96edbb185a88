/-
The time is up once and for all.

The clock is looked at whenever a rule comes to its turn, and it may show anything.  As soon as it
has shown once that the time is up it is not asked again: no rule is applied any more, in whatever
relationship and for whatever event it would have its turn, and what was done until then stays.
-/
import RecordRules.Proofs.Evaluation.Deadline
import RecordRules.Proofs.Evaluation.Propagation

namespace RecordRules

open Relation

/-- A rule was skipped because the time was up: nothing is said of array elements or targets. -/
def Outcome.IsCutOff (o : Outcome) : Prop :=
  o.status = .skipped .timeout ∧ o.itemIndex = none ∧ o.targetRecord = none

/-! ## Runs that only cut off -/

namespace Run

variable {σ : Type} {run run' run'' : Run σ}

/-- A run goes on without doing anything: rules are cut off, and events are taken from the queue. -/
structure OnlyCutsOff (run run' : Run σ) : Prop where
  outcomes : ∃ os, run'.outcomes = run.outcomes ++ os ∧ ∀ o ∈ os, o.IsCutOff
  store : run'.store = run.store
  events : run'.events = run.events

theorem OnlyCutsOff.refl (run : Run σ) : run.OnlyCutsOff run :=
  ⟨⟨[], (List.append_nil _).symm, List.forall_mem_nil _⟩, rfl, rfl⟩

theorem OnlyCutsOff.trans (h : run.OnlyCutsOff run') (h' : run'.OnlyCutsOff run'') :
    run.OnlyCutsOff run'' := by
  obtain ⟨os, hos, hcut⟩ := h.outcomes
  obtain ⟨os', hos', hcut'⟩ := h'.outcomes
  refine ⟨⟨os ++ os', ?_, List.forall_mem_append.mpr ⟨hcut, hcut'⟩⟩, h'.store.trans h.store,
    h'.events.trans h.events⟩
  rw [hos', hos, List.append_assoc]

end Run

/-! ## The warning -/

def Warning.timeout? : Warning → Option Nat
  | .timedOut ms => some ms
  | _ => none

/-- The budgets that the warnings say were used up. -/
def Run.timeouts {σ : Type} (run : Run σ) : List Nat :=
  run.warnings.filterMap Warning.timeout?

theorem Run.timeouts_wrote {σ : Type} (s : Setting) (run : Run σ) (store : σ) (writes : Nat)
    (h : Happening) (u : Trigger) (o : Outcome) :
    (run.wrote s store writes h u o).timeouts = run.timeouts := by
  unfold timeouts
  rcases wrote_cases s run store writes h u o with
    ⟨_, _, hw⟩ | ⟨_, _, _, hw⟩ | ⟨_, _, _, _, hw⟩ | ⟨_, _, _, _, hw⟩
  · rw [hw]
  · simp [hw, Warning.timeout?]
  · simp [hw, Warning.timeout?]
  · rw [hw]

section

variable {σ : Type} [RecordStore σ] {s : Setting} {rootMode : Mode} {run run' : Run σ}

/-- A step that finds the time to be up warns of it, and no other step does. -/
theorem TriggerStep.timeouts {mode : Mode} {t : Trigger} (h : TriggerStep s mode t run run') :
    (run'.timedOut = run.timedOut ∧ run'.timeouts = run.timeouts) ∨
      (run.timedOut = false ∧ run'.timedOut = true ∧
        run'.timeouts = run.timeouts ++ [s.config.timeoutMs]) := by
  cases h with
  | look =>
    rcases Run.lookAtClock_cases s run with ⟨looks, heq⟩ | ⟨looks, hearly, heq⟩
    · rw [heq]
      exact Or.inl ⟨rfl, rfl⟩
    · rw [heq]
      exact Or.inr ⟨hearly, rfl, List.filterMap_append⟩
  | dangling => exact Or.inl ⟨rfl, by simp [Run.timeouts, Run.warn, Warning.timeout?]⟩
  | late => exact Or.inl ⟨rfl, rfl⟩
  | gone => exact Or.inl ⟨rfl, rfl⟩
  | rule _ _ _ step =>
    refine Or.inl ⟨step.timedOut, ?_⟩
    cases step with
    | quiet => rfl
    | write hwrite =>
      cases hwrite with
      | change => exact Run.timeouts_wrote ..
      | delete => exact Run.timeouts_wrote ..

/-- The run has warned once that its time is up if it has found it to be, and not at all if not. -/
def Run.WarnsOnce (s : Setting) (run : Run σ) : Prop :=
  run.timeouts = if run.timedOut then [s.config.timeoutMs] else []

theorem Reaches.warnsOnce (hreaches : Reaches s rootMode run run') (h : run.WarnsOnce s) :
    run'.WarnsOnce s := by
  unfold Run.WarnsOnce at h ⊢
  induction hreaches with
  | refl => exact h
  | tail _ step ih =>
    cases step with
    | take => exact ih
    | work _ step =>
      rcases step.timeouts with ⟨htime, hwarned⟩ | ⟨hearly, hlate, hwarned⟩
      · rw [hwarned, htime]
        exact ih
      · rw [hwarned, ih, hearly, hlate]
        rfl

end

/-! ## Turns -/

section

variable {σ : Type} [RecordStore σ]

/-- A run goes on by a turn: an event is taken from the queue, a target module is found to be gone,
or a rule of the event at hand comes to its turn. -/
inductive Turn (s : Setting) (rootMode : Mode) : Run σ → Run σ → Prop where
  | take {run : Run σ} {t : Trigger} {rest : List Trigger} (queue : run.queue = t :: rest) :
      Turn s rootMode run (run.take t rest)
  | dangling {run : Run σ} {t : Trigger} (current : run.current? = some t) (index : Nat)
      (target : ModuleId) : Turn s rootMode run (run.warn (.danglingTarget t.module index target))
  | rule {run : Run σ} {t : Trigger} {c : Scope} (current : run.current? = some t)
      (place : c.InPlace s (modeOf rootMode t) t) : Turn s rootMode run (runRule s c run)

abbrev Turns (s : Setting) (rootMode : Mode) : Run σ → Run σ → Prop :=
  ReflTransGen (Turn s rootMode)

variable {s : Setting} {rootMode : Mode} {run run' : Run σ}

theorem runRule_eq_of_late (c : Scope) (h : run.timedOut = true) :
    runRule s c run = run.emit (c.outcome none none (.skipped .timeout)) := by
  have hlook : run.lookAtClock s = run := if_pos h
  generalize hrun : runRule s c run = run'
  cases runRule_runs hrun with
  | late => rw [hlook]
  | applied hearly | gone hearly =>
    rw [hlook, h] at hearly
    cases hearly

/-- The time stays up. -/
theorem Turn.timedOut (h : Turn s rootMode run run') (hlate : run.timedOut = true) :
    run'.timedOut = true := by
  cases h with
  | take => exact hlate
  | dangling => exact hlate
  | rule =>
    rw [runRule_eq_of_late _ hlate]
    exact hlate

variable [LawfulRecordStore σ]

theorem current?_runRule {c : Scope} {mode : Mode} {t : Trigger} (place : c.InPlace s mode t)
    (run : Run σ) : (runRule s c run).current? = run.current? :=
  Run.current?_congr (steps_evaluated (runRule_steps place run))

/-- An evaluation goes on by turns. -/
theorem evaluation_turns (registry : Registry) (config : Config) (clock : Clock) (store : σ)
    (module : ModuleId) (event : Event) (record : Record) (prechecked : Option (List Outcome)) :
    Turns (.ofRoot registry config clock) (.ofRoot prechecked)
      (Run.root store module event record (prechecked.getD []))
      (evaluation registry config clock store module event record prechecked) := by
  let s := Setting.ofRoot registry config clock
  let rootMode := Mode.ofRoot prechecked
  let start := Run.root store module event record (prechecked.getD [])
  refine drain_keeps s (fun t rest run hqueue hturns => ?_) _ .refl
  have hevent : Turns s rootMode start (next s rootMode t rest run) ∧
      (next s rootMode t rest run).current? = some t := by
    refine runTrigger_keeps s (P := fun run => Turns s rootMode start run ∧ run.current? = some t)
      (fun index r _ _ _ run h => ?_) (fun c place run h => ?_) ?_
    · exact ⟨h.1.tail (.dangling h.2 index r.target), h.2⟩
    · exact ⟨h.1.tail (.rule h.2 place), (current?_runRule place run).trans h.2⟩
    · exact ⟨hturns.tail (.take hqueue), run.current?_take t rest⟩
  exact hevent.1

theorem Turn.keepsTime {head : List Outcome} (h : Turn s rootMode run run')
    (hkeeps : run.KeepsTime head) : run'.KeepsTime head := by
  cases h with
  | take => exact hkeeps.congr rfl rfl
  | dangling => exact hkeeps.congr rfl rfl
  | rule => exact runRule_keepsTime hkeeps

theorem Turns.keepsTime {head : List Outcome} (h : Turns s rootMode run run')
    (hkeeps : run.KeepsTime head) : run'.KeepsTime head := by
  induction h with
  | refl => exact hkeeps
  | tail _ turn ih => exact turn.keepsTime ih

theorem Turn.outcomes (h : Turn s rootMode run run') :
    ∃ os, run'.outcomes = run.outcomes ++ os := by
  cases h with
  | take => exact ⟨[], (List.append_nil _).symm⟩
  | dangling => exact ⟨[], (List.append_nil _).symm⟩
  | rule _ place =>
    obtain ⟨os, hos, _⟩ := steps_outcomes (runRule_steps place run)
    exact ⟨os, hos⟩

theorem Turns.outcomes (h : Turns s rootMode run run') :
    ∃ os, run'.outcomes = run.outcomes ++ os := by
  induction h with
  | refl => exact ⟨[], (List.append_nil _).symm⟩
  | tail _ turn ih =>
    obtain ⟨os, hos⟩ := ih
    obtain ⟨more, hmore⟩ := turn.outcomes
    exact ⟨os ++ more, by rw [hmore, hos, List.append_assoc]⟩

/-! ## The latch -/

/-- A rule that finds the time to be up, or finds that it was up before, only is cut off: a rule
that is applied leaves the time as it was when its turn began. -/
theorem runRule_onlyCutsOff {c : Scope} (h : (runRule s c run).timedOut = true) :
    run.OnlyCutsOff (runRule s c run) := by
  obtain ⟨looks, timedOut, ws, hlook⟩ := Run.lookAtClock_eq s run
  generalize hrun : runRule s c run = run' at h ⊢
  cases runRule_runs hrun with
  | late =>
    rw [hlook]
    exact ⟨⟨_, rfl, List.forall_mem_singleton.mpr ⟨rfl, rfl, rfl⟩⟩, rfl, rfl⟩
  | applied hearly =>
    have hkept := rule_timedOut (applyRule_steps (s := s) (c := c) (run.lookAtClock s))
    rw [h, hearly] at hkept
    cases hkept
  | gone hearly => cases h.symm.trans hearly

theorem Turn.onlyCutsOff (h : Turn s rootMode run run') (hlate : run'.timedOut = true) :
    run.OnlyCutsOff run' := by
  cases h with
  | take hqueue =>
    exact ⟨⟨[], (List.append_nil _).symm, List.forall_mem_nil _⟩, rfl, Run.events_take hqueue⟩
  | dangling =>
    exact ⟨⟨[], (List.append_nil _).symm, List.forall_mem_nil _⟩, rfl, rfl⟩
  | rule => exact runRule_onlyCutsOff hlate

theorem Turns.onlyCutsOff (h : Turns s rootMode run run') (hlate : run.timedOut = true) :
    run'.timedOut = true ∧ run.OnlyCutsOff run' := by
  induction h with
  | refl => exact ⟨hlate, .refl run⟩
  | tail _ turn ih =>
    have hlate' := turn.timedOut ih.1
    exact ⟨hlate', ih.2.trans (turn.onlyCutsOff hlate')⟩

/-- There is a last point at which the time was not up, and from then on the run only cuts off. -/
theorem Turns.split (h : Turns s rootMode run run') (hearly : run.timedOut = false) :
    ∃ point, Turns s rootMode run point ∧ Turns s rootMode point run' ∧ point.timedOut = false ∧
      point.OnlyCutsOff run' := by
  induction h with
  | refl => exact ⟨run, .refl, .refl, hearly, .refl run⟩
  | @tail mid last hturns turn ih =>
    cases hlate : last.timedOut with
    | false => exact ⟨last, hturns.tail turn, .refl, hlate, .refl last⟩
    | true =>
      obtain ⟨point, hto, hfrom, htime, hcuts⟩ := ih
      exact ⟨point, hto, hfrom.tail turn, htime, hcuts.trans (turn.onlyCutsOff hlate)⟩

end

/-! ## The whole evaluation -/

/-- Whatever the clock shows, and at every turn of an evaluation: once an outcome was cut off, all
that come after it are, no record changes and no event is scheduled.  There is a point up to which
nothing was cut off and from which on everything is, so that what was done until then stays; and the
report warns that the time was up once if something was cut off, and otherwise not. -/
theorem time_budget_is_a_latch {σ : Type} [RecordStore σ] [LawfulRecordStore σ]
    (registry : Registry) (config : Config) (clock : Clock) (store : σ) (module : ModuleId)
    (event : Event) (record : Record) :
    let turns := Turns (σ := σ) (.ofRoot registry config clock) .everything
    let start := Run.root store module event record []
    let final := evaluation registry config clock store module event record none
    let cut (run : Run σ) := ∃ o ∈ run.outcomes, o.status = .skipped .timeout
    turns start final ∧
      (∀ point later, turns start point → turns point later →
        (∃ os, later.outcomes = point.outcomes ++ os) ∧
          (cut point → point.OnlyCutsOff later)) ∧
      (∃ point, turns start point ∧ turns point final ∧ ¬cut point ∧ point.OnlyCutsOff final) ∧
      (cut final → final.report.warnings.filterMap Warning.timeout? = [config.timeoutMs]) ∧
      (¬cut final → final.report.warnings.filterMap Warning.timeout? = []) := by
  intro turns start final cut
  have hcut {run : Run σ} (h : turns start run) : run.timedOut = true ↔ cut run := by
    have hstart : start.KeepsTime [] :=
      ⟨[], rfl, iff_of_false nofun fun ⟨_, ho, _⟩ => absurd ho List.not_mem_nil⟩
    obtain ⟨own, hown, hiff⟩ := Turns.keepsTime h hstart
    rw [hiff, ← show run.outcomes = own from hown]
  have hfinal : turns start final :=
    evaluation_turns registry config clock store module event record none
  have honce : final.WarnsOnce (.ofRoot registry config clock) :=
    (evaluation_reaches registry config clock store module event record none).warnsOnce rfl
  refine ⟨hfinal, fun point later hpoint hlater => ⟨hlater.outcomes, fun h => ?_⟩, ?_,
    fun h => ?_, fun h => ?_⟩
  · exact (Turns.onlyCutsOff hlater ((hcut hpoint).mpr h)).2
  · obtain ⟨point, hto, hfrom, htime, hcuts⟩ := Turns.split hfinal rfl
    refine ⟨point, hto, hfrom, fun h => ?_, hcuts⟩
    rw [(hcut hto).mpr h] at htime
    cases htime
  · exact honce.trans (if_pos ((hcut hfinal).mpr h))
  · exact honce.trans (if_neg fun hlate => h ((hcut hfinal).mp hlate))

namespace Sample

/-- A clock that shows at its second look, and only then, that the time is up. -/
def jumpy : Clock := { elapsed := fun looks _ => if looks = 1 then 30000 else 0, now := fun _ => 5 }

def twice : Relationship :=
  { clearance with rules := { RuleLists.empty with onUpdate :=
      [Rule.ofAction .cascadeDelete, Rule.ofAction .cascadeDelete] } }

def clearedTwice : Registry :=
  { registry with graph := { registry.graph with
      slots := [some ⟨⟨orders, "Orders", [sale], 0, 0⟩, [sale]⟩,
        some ⟨⟨stock, "Stock", [twice], 0, 0⟩, [twice]⟩] } }

def interrupted : Run MemoryStore :=
  evaluation clearedTwice .standard jumpy ⟨[item, other]⟩ orders .create order none

end Sample

/-- The item is sold in time, and neither of the two rules that would clear it away is applied. -/
theorem time_budget_is_a_latch_on_sample :
    LawfulRecordStore MemoryStore ∧
      Sample.interrupted.outcomes.map Outcome.targetRecord = [some Sample.one, none, none] ∧
      Sample.interrupted.store.records.map Record.id = [Sample.one, Sample.two] ∧
      Sample.interrupted.warnings = [.timedOut 30000] ∧
      ∃ point, Turns (.ofRoot Sample.clearedTwice .standard Sample.jumpy) .everything
        (Run.root ⟨[Sample.item, Sample.other]⟩ Sample.orders .create Sample.order []) point ∧
        point.OnlyCutsOff Sample.interrupted := by
  obtain ⟨_, _, ⟨point, hto, _, _, hcuts⟩, _⟩ := time_budget_is_a_latch Sample.clearedTwice
    .standard Sample.jumpy (⟨[Sample.item, Sample.other]⟩ : MemoryStore) Sample.orders .create
    Sample.order
  exact ⟨inferInstance, by decide +kernel, by decide +kernel, by decide +kernel, point, hto, hcuts⟩

end RecordRules
