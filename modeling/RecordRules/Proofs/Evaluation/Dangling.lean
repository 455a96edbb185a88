/-
Relationships that lead nowhere.

A deleted module leaves behind the relationships that lead to it.  A rule of such a relationship is
skipped at its turn, for want of its target module or of time, says so once and touches nothing.  An
event warns once of each such relationship that has rules for it, whether these run or not.
-/
import RecordRules.Proofs.Evaluation.Coverage
import RecordRules.Proofs.Evaluation.Reach

namespace RecordRules

open List (Forall₂)
open ModularStore (holdings)
open Relation

/-! ## One rule -/

/-- What a rule says that is skipped because its target module is not there or the time is up. -/
def Scope.Skips (c : Scope) (os : List Outcome) : Prop :=
  os = [c.outcome none none (.skipped (.notFound (.module c.target)))] ∨
    os = [c.outcome none none (.skipped .timeout)]

theorem Scope.Skips.says {c : Scope} {os : List Outcome} (h : c.Skips os) : c.Says os := by
  rcases h with rfl | rfl
  · exact says_one _ _ _
  · exact says_one _ _ _

/-- A rule is skipped at its turn and leaves the records and the events as they are. -/
structure Scope.PassesBy {σ : Type} (c : Scope) (run run' : Run σ) : Prop where
  outcomes : ∃ os, run'.outcomes = run.outcomes ++ os ∧ c.Skips os
  store : run'.store = run.store
  queue : run'.queue = run.queue
  history : run'.history = run.history

/-! ## What an event says of a module -/

/-- The rules of an event that lead to a module are skipped, each with one outcome in its place. -/
def Setting.Skips (s : Setting) (mode : Mode) (module : ModuleId) (t : Trigger)
    (os : List Outcome) : Prop :=
  ∀ c : Scope, c.InPlace s mode t → c.target = module →
    c.Skips (os.filter fun o => o.spot = c.spot)

/-- The warnings that an event owes for a module which is not there: one for each relationship that
leads to the module and has rules for the event. -/
def Setting.danglings (s : Setting) (module : ModuleId) (t : Trigger) : List Warning :=
  ((s.registry.relationshipsFrom t.module).zipIdx.filter fun e =>
      e.1.target = module ∧ e.1.rules.get t.event ≠ []).map fun e =>
    .danglingTarget t.module e.2 module

/-- The warning is that a module is not there. -/
def Warning.misses (module : ModuleId) : Warning → Bool
  | .danglingTarget _ _ target => target = module
  | _ => false

/-- The warnings of a run that a module is not there. -/
def Run.missing {σ : Type} (module : ModuleId) (run : Run σ) : List Warning :=
  run.warnings.filter (Warning.misses module)

section

variable {σ : Type} [RecordStore σ] {s : Setting} {module : ModuleId}

theorem runRule_passesBy {c : Scope} (hgone : s.registry.hasModule c.target = false)
    (run : Run σ) : c.PassesBy run (runRule s c run) := by
  have hlook := Run.Idles.of_lookAtClock s run
  have houtcomes : (run.lookAtClock s).outcomes = run.outcomes := by
    obtain ⟨looks, timedOut, ws, heq⟩ := Run.lookAtClock_eq s run
    rw [heq]
  generalize h : runRule s c run = run'
  cases runRule_runs h with
  | late =>
    exact ⟨⟨_, congrArg (· ++ _) houtcomes, Or.inr rfl⟩, hlook.store, hlook.queue, hlook.history⟩
  | applied _ hhome => cases hgone.symm.trans hhome
  | gone =>
    exact ⟨⟨_, congrArg (· ++ _) houtcomes, Or.inl rfl⟩, hlook.store, hlook.queue, hlook.history⟩

/-- A rule has its say, and is skipped if its target module is not there. -/
theorem runRule_says (c : Scope) (run : Run σ) :
    ∃ os, (runRule s c run).outcomes = run.outcomes ++ os ∧ c.Says os ∧
      (s.registry.hasModule c.target = false → c.Skips os) := by
  cases hhome : s.registry.hasModule c.target with
  | true =>
    obtain ⟨os, hos, htold⟩ := runRule_told (s := s) (c := c) run
    exact ⟨os, hos, htold.own, nofun⟩
  | false =>
    obtain ⟨os, hos, hskips⟩ := (runRule_passesBy hhome run).outcomes
    exact ⟨os, hos, hskips.says, fun _ => hskips⟩

theorem runTrigger_skips (hgone : s.registry.hasModule module = false) (mode : Mode) (t : Trigger)
    (run : Run σ) :
    ∃ os, (runTrigger s mode t run).outcomes = run.outcomes ++ os ∧ s.Skips mode module t os := by
  obtain ⟨parts, hparts, hall⟩ := runTrigger_tells runRule_says mode t run
  refine ⟨parts.flatten, hparts, fun c place htarget => ?_⟩
  have hmem : c ∈ s.scopes mode t := Setting.mem_scopes.mpr place
  exact (parts_filter (fun _ _ h => h.1) hall Setting.pairwise_scopes hmem).2 (htarget ▸ hgone)

/-! ## Warnings -/

variable [LawfulRecordStore σ]

/-- What a rule does to records may lead to other warnings, but not to this one. -/
theorem RuleStep.missing {c : Scope} {run run' : Run σ} (h : RuleStep s c run run')
    (module : ModuleId) : run'.missing module = run.missing module := by
  have hadds {ws : List Warning} (hws : run'.warnings = run.warnings ++ ws)
      (hnone : ∀ w ∈ ws, w.misses module = false) : run'.missing module = run.missing module := by
    have hfilter : ws.filter (Warning.misses module) = [] :=
      List.filter_eq_nil_iff.mpr fun w hw => Bool.eq_false_iff.mp (hnone w hw)
    unfold Run.missing
    rw [hws, List.filter_append, hfilter, List.append_nil]
  cases h with
  | quiet => rfl
  | write hwrite =>
    obtain ⟨store, writes, happening, u, o, rfl, _⟩ := hwrite.effect
    rcases Run.wrote_cases s run store writes happening u o with
      ⟨_, _, hws⟩ | ⟨_, _, _, hws⟩ | ⟨_, _, _, _, hws⟩ | ⟨_, _, _, _, hws⟩
    · exact hadds (hws.trans (List.append_nil _).symm) (List.forall_mem_nil _)
    · exact hadds hws (List.forall_mem_singleton.mpr rfl)
    · exact hadds hws (List.forall_mem_singleton.mpr rfl)
    · exact hadds (hws.trans (List.append_nil _).symm) (List.forall_mem_nil _)

theorem steps_missing {c : Scope} {run run' : Run σ} (h : ReflTransGen (RuleStep s c) run run')
    (module : ModuleId) : run'.missing module = run.missing module := by
  induction h with
  | refl => rfl
  | tail _ step ih => exact (step.missing module).trans ih

theorem runRule_missing (c : Scope) (run : Run σ) :
    (runRule s c run).missing module = run.missing module := by
  have hlook : (run.lookAtClock s).missing module = run.missing module := by
    rcases Run.lookAtClock_cases s run with ⟨looks, heq⟩ | ⟨looks, _, heq⟩
    · rw [heq]
      rfl
    · rw [heq]
      unfold Run.missing
      rw [List.filter_append]
      exact List.append_nil _
  generalize h : runRule s c run = run'
  cases runRule_runs h with
  | late | gone => exact hlook
  | applied => exact (steps_missing (applyRule_steps _) module).trans hlook

theorem runRelationships_missing (hgone : s.registry.hasModule module = false) {mode : Mode}
    {t : Trigger} {index : Nat} {relationships : List Relationship}
    (h : (s.registry.relationshipsFrom t.module).drop index = relationships) (run : Run σ) :
    (runRelationships s mode t (s.registry.listFields t.module) index relationships run).missing
        module =
      run.missing module ++
        ((relationships.zipIdx index).filter fun e =>
            e.1.target = module ∧ e.1.rules.get t.event ≠ []).map fun e =>
          .danglingTarget t.module e.2 module := by
  induction relationships generalizing index run with
  | nil => exact (List.append_nil _).symm
  | cons r rest ih =>
    obtain ⟨hplace, hrest⟩ := getElem?_of_drop_cons h
    have hrules (run : Run σ) : (runRules s mode t (s.registry.listFields t.module) index r 0
        (r.rules.get t.event) run).missing module = run.missing module :=
      runRules_keeps s (P := fun run' => run'.missing module = run.missing module)
        (fun _ _ _ _ run' hkept => (runRule_missing _ run').trans hkept) rfl
    unfold runRelationships runRelationship
    rw [ih hrest, hrules, List.zipIdx_cons, List.filter_cons]
    dsimp only
    by_cases howed : r.target = module ∧ r.rules.get t.event ≠ []
    · obtain ⟨rfl, hsome⟩ := howed
      have hwarns : ¬((r.rules.get t.event).isEmpty || s.registry.hasModule r.target) = true := by
        simpa [hgone] using hsome
      rw [if_neg hwarns, if_pos (decide_eq_true ⟨rfl, hsome⟩)]
      unfold Run.missing Run.warn
      rw [List.filter_append, List.append_assoc]
      simp [Warning.misses]
    · rw [if_neg fun hyes => howed (of_decide_eq_true hyes)]
      congr 1
      split
      · rfl
      · next hwarns =>
        rw [Bool.or_eq_true, not_or] at hwarns
        have hother : r.target ≠ module := fun heq => howed ⟨heq, by simpa using hwarns.1⟩
        unfold Run.missing Run.warn
        rw [List.filter_append]
        simp [Warning.misses, hother]

/-- An event warns of each relationship that has rules for it and leads to a module which is not
there. -/
theorem runTrigger_missing (hgone : s.registry.hasModule module = false) (mode : Mode) (t : Trigger)
    (run : Run σ) :
    (runTrigger s mode t run).missing module = run.missing module ++ s.danglings module t :=
  runRelationships_missing hgone rfl run

/-! ## Whole evaluations -/

omit [LawfulRecordStore σ] in
/-- No run writes to a module that is not there. -/
theorem Reaches.holdings_eq [ModularStore σ] {rootMode : Mode} {run run' : Run σ}
    (h : Reaches s rootMode run run') (hgone : s.registry.hasModule module = false) :
    holdings run'.store module = holdings run.store module := by
  induction h with
  | refl => rfl
  | tail _ step ih =>
    refine Eq.trans ?_ ih
    rcases step.cases with hidle | ⟨t, rest, _, rfl⟩ | ⟨t, c, _, _, _, hhome, hwrite⟩
    · rw [hidle.store]
    · rfl
    · refine hwrite.holdings_of_ne ?_
      rintro rfl
      exact Bool.eq_false_iff.mp hgone hhome

section

variable {registry : Registry} (hgone : registry.hasModule module = false) (config : Config)
  (clock : Clock) (store : σ) (root : ModuleId) (event : Event) (record : Record)
  (prechecked : Option (List Outcome))

include hgone

theorem evaluation_skips :
    let s := Setting.ofRoot registry config clock
    let final := evaluation registry config clock store root event record prechecked
    ∃ parts, final.outcomes = prechecked.getD [] ++ parts.flatten ∧
      Forall₂ (fun t os => s.Skips (modeOf (.ofRoot prechecked) t) module t os) final.evaluated
        parts := by
  obtain ⟨others, parts, hevaluated, _, hparts, hall⟩ := evaluation_adds registry config clock store
    root event record prechecked Run.outcomes (fun _ _ _ => rfl)
    fun t run => runTrigger_skips hgone (modeOf (.ofRoot prechecked) t) t run
  exact ⟨parts, hparts, hevaluated ▸ hall⟩

theorem evaluation_missing :
    let s := Setting.ofRoot registry config clock
    let final := evaluation registry config clock store root event record prechecked
    final.missing module = final.evaluated.flatMap (s.danglings module) := by
  obtain ⟨others, parts, hevaluated, _, hparts, hall⟩ := evaluation_adds registry config clock store
    root event record prechecked (Run.missing module) (fun _ _ _ => rfl)
    fun t run => ⟨_, runTrigger_missing hgone (modeOf (.ofRoot prechecked) t) t run, rfl⟩
  have hmap := List.forall₂_map_left_iff.mpr hall
  rw [List.forall₂_eq_eq_eq] at hmap
  refine hparts.trans ?_
  rw [hevaluated, List.flatMap_def, hmap]
  rfl

end
end
end RecordRules
