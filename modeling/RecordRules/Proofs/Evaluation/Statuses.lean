/-
What a rule reports.

Each outcome that applying a rule adds has one of the statuses in `Scope.Reports`, so what all of
them have in common holds of everything that the rule reports.
-/
import RecordRules.Proofs.Evaluation.Steps

namespace RecordRules

/-! ## Outcomes that a run adds -/

/-- A run has gone on, and the outcomes that it has added have a property. -/
def Run.Adds {σ : Type} (P : Status → Prop) (run run' : Run σ) : Prop :=
  ∃ os, run'.outcomes = run.outcomes ++ os ∧ ∀ o ∈ os, P o.status

namespace Run.Adds

variable {σ : Type} {P : Status → Prop} {run run' run'' : Run σ}

theorem of_outcomes (h : run'.outcomes = run.outcomes) : run.Adds P run' :=
  ⟨[], h.trans (List.append_nil _).symm, List.forall_mem_nil _⟩

theorem refl (run : Run σ) : run.Adds P run := of_outcomes rfl

theorem trans (h : run.Adds P run') (h' : run'.Adds P run'') : run.Adds P run'' := by
  obtain ⟨os, hos, hP⟩ := h
  obtain ⟨os', hos', hP'⟩ := h'
  refine ⟨os ++ os', ?_, List.forall_mem_append.mpr ⟨hP, hP'⟩⟩
  rw [hos', hos, List.append_assoc]

theorem emit (h : run.Adds P run') {o : Outcome} (ho : P o.status) : run.Adds P (run'.emit o) :=
  h.trans ⟨[o], rfl, List.forall_mem_singleton.mpr ho⟩

end Run.Adds

section

variable {σ : Type} [RecordStore σ] (s : Setting) {c : Scope}

/-! ## Acting on a record -/

theorem writeField_reports (run : Run σ) (id : RecordId) (field : String) (m : Mutation) :
    c.Reports s.registry (writeField s c run id field m).1 ∧
      (writeField s c run id field m).2.outcomes = run.outcomes := by
  generalize h : writeField s c run id field m = answer
  cases writeField_written h with
  | refused => exact ⟨.refused _, rfl⟩
  | changed => exact ⟨.applied _, Run.schedule_outcomes ..⟩
  | unchanged => exact ⟨.applied _, rfl⟩

theorem deleteRecord_reports (run : Run σ) (id : RecordId) :
    c.Reports s.registry (deleteRecord s c run id).1 ∧
      (deleteRecord s c run id).2.outcomes = run.outcomes := by
  generalize h : deleteRecord s c run id = answer
  cases deleteRecord_deleted h with
  | refused => exact ⟨.refused _, rfl⟩
  | missing => exact ⟨.gone id, rfl⟩
  | deleted => exact ⟨.applied true, Run.schedule_outcomes ..⟩

theorem act_outcomes (run : Run σ) (field : Option TargetField) (operand : Option Json)
    (target : Record) : (act s c run field operand target).2.outcomes = run.outcomes := by
  generalize h : act s c run field operand target = answer
  cases act_acts h with
  | deletes => exact (deleteRecord_reports s run target.id).2
  | writes => exact (writeField_reports s run target.id _ _).2
  | _ => rfl

/-! ## Applying a rule -/

theorem keeps_reports (c : Scope) (run : Run σ) : c.Keeps s (run.Adds (c.Reports s.registry)) where
  emit _ _ _ hreports _ h := h.emit hreports
  write {run'} _ id field m _ h := by
    obtain ⟨hstatus, hrun⟩ := writeField_reports s (c := c) run' id field.name m
    exact (h.trans (.of_outcomes hrun)).emit hstatus
  delete {run'} _ id _ h := by
    obtain ⟨hstatus, hrun⟩ := deleteRecord_reports s (c := c) run' id
    exact (h.trans (.of_outcomes hrun)).emit hstatus

/-- Applying a rule adds outcomes with statuses that the rule can report. -/
theorem applyRule_reports (run : Run σ) : run.Adds (c.Reports s.registry) (applyRule s c run) :=
  (keeps_reports s c run).applyRule (.refl run)

end

end RecordRules
