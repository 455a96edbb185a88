/-
Checks that run before a write.

Only rules that check run then, and a check writes nothing: the store stays as it is, and every
outcome is that of a check.
-/
import RecordRules.Proofs.Evaluation.Steps

namespace RecordRules

open Relation

section

variable {σ : Type} [RecordStore σ] {s : Setting} {t : Trigger} {run run' : Run σ}

theorem Mode.runs_checks {a : Action} (h : Mode.checks.runs a = true) : a = .validate := by
  simpa [Mode.runs] using h

theorem Outcome.Of.action_of_checks {o : Outcome} (h : o.Of s .checks t) :
    o.action = .validate := by
  obtain ⟨c, place, _, _, _, rfl⟩ := h
  exact Mode.runs_checks place.runs

/-- A step of the checks is no write. -/
theorem TriggerStep.idles_of_checks (h : TriggerStep s .checks t run run') : run.Idles run' := by
  rcases h.cases with hidle | ⟨c, place, _, _, hwrite⟩
  · exact hidle
  · have hcheck := Mode.runs_checks place.runs
    cases hwrite with
    | change itemIndex _ hnot => exact absurd hcheck hnot
    | delete itemIndex hdelete =>
      rw [hdelete] at hcheck
      cases hcheck

theorem checks_store (h : ReflTransGen (TriggerStep s .checks t) run run') :
    run'.store = run.store := by
  induction h with
  | refl => rfl
  | tail _ step ih => exact step.idles_of_checks.store.trans ih

variable [LawfulRecordStore σ] (registry : Registry) (config : Config) (clock : Clock) (store : σ)
  (module : ModuleId) (event : Event) (candidate : Record)

theorem precheck_outcomes :
    ∀ o ∈ (precheck registry config clock store module event candidate).1,
      o.Of { registry, config, clock, maxDepth := 0 } .checks ⟨module, event, candidate, 0⟩ := by
  have hsteps : ReflTransGen (TriggerStep { registry, config, clock, maxDepth := 0 } .checks
      ⟨module, event, candidate, 0⟩) (Run.start store) _ := runTrigger_steps (Run.start store)
  obtain ⟨os, hos, hof⟩ := steps_outcomes hsteps
  intro o ho
  unfold precheck at ho
  dsimp only at ho
  rw [hos] at ho
  exact hof o ho

/-- Checks leave the store as it is, and all outcomes are theirs. -/
theorem precheck_checks :
    (precheck registry config clock store module event candidate).2 = store ∧
      ∀ o ∈ (precheck registry config clock store module event candidate).1,
        o.action = .validate :=
  ⟨checks_store (runTrigger_steps (Run.start store)),
    fun o ho => (precheck_outcomes _ _ _ _ _ _ _ o ho).action_of_checks⟩

end
end RecordRules
