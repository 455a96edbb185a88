/-
Calls whose time was up.

A call runs twice against the clock, once for its checks and once for what its event propagates to.
The report takes over the outcomes of the checks but not what the first run warned of.  So it warns
exactly of what was cut off in the second run, and checks that were cut off pass in silence.
-/
import RecordRules.Proofs.Evaluation.Deadline
import RecordRules.Proofs.Service.Answers

namespace RecordRules

section

variable {σ : Type} [RecordStore σ]

/-- The outcomes of the checks that a request gets to. -/
def Service.checksOf (s : Service σ) (request : Request) : List Outcome :=
  ((request.candidate? s).map s.checks).getD []

/-- The report of a call has the outcomes of its checks, and after them others.  It warns that the
time was up exactly if some of the others were cut off, and then it is not clean; what happened to
the checks does not count. -/
theorem report_warns_of_cut_off_rules [LawfulRecordStore σ] [LawfulReplacement σ]
    {s after : Service σ} {request : Request} {change : Change}
    (h : s.Answers request change after) :
    ∃ own, change.report.outcomes = s.checksOf request ++ own ∧
      (∀ o ∈ s.checksOf request, o.action = .validate) ∧
      (∀ ms, .timedOut ms ∈ change.report.warnings ↔
        ms = s.config.timeoutMs ∧ ∃ o ∈ own, o.status = .skipped .timeout) ∧
      ((∃ o ∈ own, o.status = .skipped .timeout) → change.report.isClean = false) := by
  unfold Service.checksOf
  rcases h.cases with ⟨hnone, hreport, _⟩ | ⟨c, clock, store, hc, hdone⟩
  · rw [hnone, hreport]
    refine ⟨[], rfl, List.forall_mem_nil _, fun ms => iff_of_false List.not_mem_nil ?_, ?_⟩
    · rintro ⟨_, o, ho, _⟩
      exact List.not_mem_nil ho
    · rintro ⟨o, ho, _⟩
      exact absurd ho List.not_mem_nil
  · obtain ⟨own, hown, hwarns⟩ := evaluate_timedOut_iff s.registry s.config clock store c.module
      c.event change.record (some (s.checks c))
    rw [← hdone.report] at hown hwarns
    rw [hc]
    refine ⟨own, hown, (precheck_checks ..).2, hwarns, fun hcut => ?_⟩
    have hwarned := List.ne_nil_of_mem ((hwarns s.config.timeoutMs).mpr ⟨rfl, hcut⟩)
    unfold Report.isClean
    rw [List.isEmpty_eq_false_iff.mpr hwarned, Bool.and_false]

end

namespace Sample

/-- There is no time for the check of the reservation. -/
def hurried : Service MemoryStore :=
  { service with config := { Config.standard with timeoutMs := 0 } }

def cutOff : Outcome :=
  { module := orders, record := one, event := .create, relationshipIndex := 0
    relationshipId := none, ruleIndex := 0, action := .validate, itemIndex := none
    targetRecord := none, depth := 0, status := .skipped .timeout }

end Sample

/-- The order is put in although its check was cut off, and the report is clean. -/
theorem report_warns_of_cut_off_rules_on_sample :
    LawfulReplacement MemoryStore ∧ ∃ change after,
      (Service.insertRecord (.steady 5 0) Sample.order).run Sample.hurried = .ok change after ∧
        change.report.outcomes = [Sample.cutOff] ∧ change.report.isClean = true ∧
        ∀ ms, .timedOut ms ∉ change.report.warnings := by
  have hinsert : (Service.insertRecord (.steady 5 0) Sample.order).run Sample.hurried =
      .ok ⟨Sample.order, [Sample.cutOff], []⟩
        { Sample.hurried with store := ⟨[Sample.item, Sample.order, Sample.other]⟩ } := by rfl
  have hchecks : Sample.hurried.checksOf (.insert (.steady 5 0) Sample.order) =
      [Sample.cutOff] := by rfl
  obtain ⟨own, hown, _, hwarns, _⟩ := report_warns_of_cut_off_rules (.insert hinsert)
  rw [hchecks] at hown
  cases hown
  refine ⟨inferInstance, _, _, hinsert, rfl, rfl, fun ms hwarned => ?_⟩
  obtain ⟨_, o, ho, _⟩ := (hwarns ms).mp hwarned
  exact List.not_mem_nil ho

end RecordRules
