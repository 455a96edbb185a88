/-
What a run says when its time is up.

A rule that comes to its turn in time never reports that it was too late, so a run has outcomes that
were cut off exactly if it has found its time to be up.  It then warns of it, once the first rule is
too late.
-/
import RecordRules.Proofs.Evaluation.Sources
import RecordRules.Proofs.Evaluation.Statuses

namespace RecordRules

open Relation

/-! ## Reasons other than the time -/

theorem Miss.status_eq_timeout_iff {miss : Miss} :
    miss.status = .skipped .timeout ↔ miss = .skip .timeout := by
  cases miss <;> simp [Miss.status]

theorem Miss.ofStore_ne_timeout (e : StoreError) : Miss.ofStore e ≠ .skip .timeout := by
  cases e <;> exact nofun

section

variable {σ : Type} [RecordStore σ]

theorem fetch_ne_timeout {store : σ} {module : ModuleId} {id : RecordId} {miss : Miss}
    (h : fetch store module id = .error miss) : miss ≠ .skip .timeout := by
  cases fetch_fetched h with
  | refused => exact Miss.ofStore_ne_timeout _
  | missing => exact nofun

theorem readKey_ne_timeout {source : String} {r : Record} {element : Option Json} {miss : Miss}
    (h : readKey source r element = .error miss) : miss ≠ .skip .timeout := by
  unfold readKey at h
  split at h
  · cases h
    exact nofun
  · split at h
    · cases h
    · cases h
      exact nofun

theorem matchField_ne_timeout {registry : Registry} {module : ModuleId} {target : String}
    {miss : Miss} (h : matchField registry module target = .error miss) :
    miss ≠ .skip .timeout := by
  unfold matchField at h
  split at h
  · split at h
    · cases h
      exact nofun
    · split at h
      · cases h
      · cases h
        exact nofun
  · cases h

theorem Binding.targets_ne_timeout {b : Binding} {registry : Registry} {store : σ}
    {module : ModuleId} {r : Record} {element : Option Json} {miss : Miss}
    (h : b.targets registry store module r element = .error miss) : miss ≠ .skip .timeout := by
  cases targets_searched h with
  | unlisted => exact Miss.ofStore_ne_timeout _
  | empty => exact nofun
  | several => exact nofun
  | record hfetched => exact fetch_ne_timeout hfetched
  | source hfetched => exact fetch_ne_timeout hfetched
  | keyless hread => exact readKey_ne_timeout hread
  | nameless => exact nofun
  | foreignKey _ _ hfetched => exact fetch_ne_timeout hfetched
  | matchKeyless hread => exact readKey_ne_timeout hread
  | matchFieldless hnamed => exact matchField_ne_timeout hnamed
  | unmatched => exact Miss.ofStore_ne_timeout _
  | matchless => exact nofun

end

theorem Scope.targetField_ne_timeout {c : Scope} {registry : Registry} {miss : Miss}
    (h : c.targetField registry = .error miss) : miss ≠ .skip .timeout := by
  cases Scope.targetFound h with
  | missing | unreadable | elsewhere | gone => exact nofun

theorem parseSource_ne_timeout {text : Option String} {miss : Miss}
    (h : parseSource text = .error miss) : miss ≠ .skip .timeout := by
  unfold parseSource at h
  split at h
  · cases h
  · split at h
    · cases h
    · cases h
      exact nofun

theorem Scope.applications_ne_timeout {c : Scope} {miss : Miss} (h : c.applications = .error miss) :
    miss ≠ .skip .timeout := by
  rcases Scope.applications_error h with h | h | ⟨subfield, e, _, rfl⟩
  · exact parseSource_ne_timeout h
  · exact parseSource_ne_timeout h
  · exact nofun

theorem checkStatus_ne_timeout (r : Rule) (field : TargetField) (operand : Option Json)
    (target : Record) : checkStatus r field operand target ≠ .skipped .timeout := by
  unfold checkStatus
  split
  · exact nofun
  · split <;> exact nofun

/-- A rule at its turn does not report that the time is up. -/
theorem Scope.Reports.ne_timeout {c : Scope} {registry : Registry} {status : Status}
    (h : c.Reports registry status) : status ≠ .skipped .timeout := by
  have hmiss {miss : Miss} (h : miss ≠ .skip .timeout) : miss.status ≠ .skipped .timeout :=
    fun heq => h (Miss.status_eq_timeout_iff.mp heq)
  cases h with
  | noTargetField h => exact hmiss (Scope.targetField_ne_timeout h)
  | noApplications h => exact hmiss (Scope.applications_ne_timeout h)
  | noTarget h => exact hmiss (Binding.targets_ne_timeout h)
  | checked => exact checkStatus_ne_timeout _ _ _ _
  | refused e => exact hmiss (Miss.ofStore_ne_timeout e)
  | _ => exact nofun

/-! ## Outcomes that were cut off -/

namespace Run

variable {σ : Type}

/-- After the first outcomes, which it was given, the run has some that were cut off exactly if it
has found its time to be up. -/
def KeepsTime (head : List Outcome) (run : Run σ) : Prop :=
  ∃ own, run.outcomes = head ++ own ∧
    (run.timedOut = true ↔ ∃ o ∈ own, o.status = .skipped .timeout)

/-- The run has warned that its time is up exactly if it has found it to be. -/
def Warned (s : Setting) (run : Run σ) : Prop :=
  ∀ ms, .timedOut ms ∈ run.warnings ↔ run.timedOut = true ∧ ms = s.config.timeoutMs

theorem KeepsTime.congr {head : List Outcome} {run run' : Run σ} (h : run.KeepsTime head)
    (houtcomes : run'.outcomes = run.outcomes) (htimedOut : run'.timedOut = run.timedOut) :
    run'.KeepsTime head := by
  unfold KeepsTime
  rw [houtcomes, htimedOut]
  exact h

/-- Outcomes that were not cut off tell nothing of the time. -/
theorem KeepsTime.adds {head : List Outcome} {run run' : Run σ} (h : run.KeepsTime head)
    (hadds : run.Adds (· ≠ .skipped .timeout) run') (htimedOut : run'.timedOut = run.timedOut) :
    run'.KeepsTime head := by
  obtain ⟨own, hown, hiff⟩ := h
  obtain ⟨os, hos, hother⟩ := hadds
  refine ⟨own ++ os, by rw [hos, hown, List.append_assoc], ?_⟩
  rw [htimedOut, hiff]
  refine exists_congr fun o => and_congr_left fun htimeout => ?_
  rw [List.mem_append]
  exact (or_iff_left fun ho => hother o ho htimeout).symm

theorem KeepsTime.late {head : List Outcome} {run run' : Run σ} (h : run.KeepsTime head)
    {o : Outcome} (houtcomes : run'.outcomes = run.outcomes ++ [o])
    (ho : o.status = .skipped .timeout) (htimedOut : run'.timedOut = true) :
    run'.KeepsTime head := by
  obtain ⟨own, hown, _⟩ := h
  refine ⟨own ++ [o], by rw [houtcomes, hown, List.append_assoc], iff_of_true htimedOut ?_⟩
  exact ⟨o, List.mem_append_right _ (List.mem_singleton_self o), ho⟩

theorem Warned.wrote {s : Setting} {run : Run σ} (h : run.Warned s) (store : σ) (writes : Nat)
    (happening : Happening) (u : Trigger) (o : Outcome) :
    (run.wrote s store writes happening u o).Warned s := by
  intro ms
  rw [wrote_timedOut, ← h ms]
  rcases wrote_cases s run store writes happening u o with
    ⟨_, _, hw⟩ | ⟨_, _, _, hw⟩ | ⟨_, _, _, _, hw⟩ | ⟨_, _, _, _, hw⟩
  · rw [hw]
  · rw [hw]
    simp
  · rw [hw]
    simp
  · rw [hw]

end Run

section

variable {σ : Type} [RecordStore σ] {s : Setting}

/-! ## Warnings -/

theorem TriggerStep.warned {mode : Mode} {t : Trigger} {run run' : Run σ}
    (step : TriggerStep s mode t run run') (h : run.Warned s) : run'.Warned s := by
  cases step with
  | look =>
    rcases Run.lookAtClock_cases s run with ⟨looks, heq⟩ | ⟨looks, hearly, heq⟩
    · rw [heq]
      exact h
    · rw [heq]
      intro ms
      have hnone : Warning.timedOut ms ∉ run.warnings := fun hmem => by
        rw [(h ms).mp hmem |>.1] at hearly
        cases hearly
      simp [hnone]
  | dangling =>
    intro ms
    show _ ↔ run.timedOut = true ∧ ms = s.config.timeoutMs
    rw [← h ms]
    simp [Run.warn]
  | late | gone => exact h
  | rule _ _ _ step =>
    cases step with
    | quiet => exact h
    | write hwrite =>
      cases hwrite with
      | change => exact Run.Warned.wrote h _ _ _ _ _
      | delete => exact Run.Warned.wrote h _ _ _ _ _

theorem Reaches.warned {rootMode : Mode} {run run' : Run σ} (hreaches : Reaches s rootMode run run')
    (h : run.Warned s) : run'.Warned s := by
  induction hreaches with
  | refl => exact h
  | tail _ step ih =>
    cases step with
    | take => exact ih
    | work _ step => exact step.warned ih

/-! ## Rules in time and too late -/

theorem rule_timedOut {c : Scope} {run run' : Run σ} (h : ReflTransGen (RuleStep s c) run run') :
    run'.timedOut = run.timedOut := by
  induction h with
  | refl => rfl
  | tail _ step ih => exact step.timedOut.trans ih

variable [LawfulRecordStore σ] {head : List Outcome}

theorem runRule_keepsTime {c : Scope} {run : Run σ} (h : run.KeepsTime head) :
    (runRule s c run).KeepsTime head := by
  have houtcomes : (run.lookAtClock s).outcomes = run.outcomes := by
    obtain ⟨looks, timedOut, ws, heq⟩ := Run.lookAtClock_eq s run
    rw [heq]
  have hlooked (hearly : (run.lookAtClock s).timedOut = false) :
      (run.lookAtClock s).KeepsTime head := by
    rcases Run.lookAtClock_cases s run with ⟨looks, heq⟩ | ⟨looks, _, heq⟩
    · rw [heq]
      exact h
    · rw [heq] at hearly
      cases hearly
  generalize hrun : runRule s c run = run'
  cases runRule_runs hrun with
  | late hlate =>
    refine h.late (o := c.outcome none none (.skipped .timeout)) ?_ rfl hlate
    exact congrArg (· ++ [_]) houtcomes
  | applied hearly =>
    refine (hlooked hearly).adds ?_ (rule_timedOut (applyRule_steps _))
    obtain ⟨os, hos, hreports⟩ := applyRule_reports s (c := c) (run.lookAtClock s)
    exact ⟨os, hos, fun o ho => (hreports o ho).ne_timeout⟩
  | gone hearly => exact (hlooked hearly).adds ((Run.Adds.refl _).emit nofun) rfl

theorem drain_keepsTime (rootMode : Mode) (rounds : Nat) {run : Run σ} (h : run.KeepsTime head) :
    (drain s rootMode rounds run).KeepsTime head := by
  refine drain_keeps s (fun t rest run _ h => ?_) rounds h
  refine runTrigger_keeps s (fun _ _ _ _ _ _ h => h.congr rfl rfl)
    (fun _ _ _ h => runRule_keepsTime h) ?_
  exact h.congr rfl rfl

/-- A run warns that its time is up exactly if some outcome after those that it was given was cut
off. -/
theorem evaluate_timedOut_iff (registry : Registry) (config : Config) (clock : Clock) (store : σ)
    (module : ModuleId) (event : Event) (record : Record) (prechecked : Option (List Outcome)) :
    let report := (evaluate registry config clock store module event record prechecked).1
    ∃ own, report.outcomes = prechecked.getD [] ++ own ∧ ∀ ms, .timedOut ms ∈ report.warnings ↔
      ms = config.timeoutMs ∧ ∃ o ∈ own, o.status = .skipped .timeout := by
  have hstart : (Run.root store module event record (prechecked.getD [])).KeepsTime
      (prechecked.getD []) := by
    refine ⟨[], (List.append_nil _).symm, iff_of_false nofun ?_⟩
    rintro ⟨o, ho, _⟩
    exact List.not_mem_nil ho
  obtain ⟨own, hown, hcut⟩ := drain_keepsTime (s := .ofRoot registry config clock)
    (.ofRoot prechecked) (maxEvents registry store) hstart
  have hwarned := (evaluation_reaches registry config clock store module event record
    prechecked).warned fun ms => iff_of_false List.not_mem_nil nofun
  refine ⟨own, hown, fun ms => ?_⟩
  rw [← hcut, and_comm]
  exact hwarned ms

end

end RecordRules
