/-
Calls propagate in layers.

The outcomes of the checks of a call are of the record that is written, so they head the report like
other outcomes of the root event.
-/
import RecordRules.Proofs.Evaluation.Layers
import RecordRules.Proofs.Service.Answers

namespace RecordRules

section

variable {σ : Type} [RecordStore σ] [LawfulRecordStore σ]

theorem Service.layer_of_mem_checks {s : Service σ} {c : Candidate} {o : Outcome}
    (h : o ∈ s.checks c) : o.layer = ((c.module, c.record.id, c.event), 0) :=
  (precheck_outcomes _ _ _ _ _ _ _ o h).layer

/-- An evaluation goes down layer by layer to the limit that holds, be it one of its own or that of
a call, which has run its checks before.  A call that goes through has evaluated nothing, or its
report is that of such an evaluation. -/
theorem propagation_goes_down_in_layers [LawfulReplacement σ] :
    (∀ (registry : Registry) (config : Config) (clock : Clock) (store : σ) (module : ModuleId)
        (event : Event) (record : Record),
      (evaluation registry config clock store module event record none).Layered
        (config.maxDepth.getD registry.relationshipCount)) ∧
    ∀ (s after : Service σ) (request : Request) (change : Change), s.Answers request change after →
      (request.candidate? s = none ∧ change.report = .empty ∧ after = s) ∨
        ∃ c clock store, request.candidate? s = some c ∧
          let final := evaluation s.registry s.config clock store c.module c.event change.record
            (some (s.checks c))
          change.report = final.report ∧ after = { s with store := final.store } ∧
            final.Layered (s.config.maxDepth.getD s.registry.relationshipCount) := by
  refine ⟨fun registry config clock store module event record => ?_,
    fun s after request change h => ?_⟩
  · exact evaluation_layered registry config clock store module event record none
      (List.forall_mem_nil _)
  · refine h.cases.imp_right ?_
    rintro ⟨c, clock, store, hc, hdone⟩
    refine ⟨c, clock, store, hc, hdone.report, hdone.after, evaluation_layered _ _ _ _ _ _ _ _ ?_⟩
    intro o ho
    rw [hdone.id]
    exact Service.layer_of_mem_checks ho

end

namespace Sample

/-- Only the changes that an order makes itself are followed. -/
def shallow : Service MemoryStore :=
  { service with registry, config := { Config.standard with maxDepth := some 1 } }

def sells : Outcome :=
  { module := orders, record := one, event := .create, relationshipIndex := 0
    relationshipId := none, ruleIndex := 0, action := .set, itemIndex := none
    targetRecord := some one, depth := 0, status := .applied true }

def clears : Outcome :=
  { sells with module := stock, event := .update, action := .cascadeDelete, depth := 1 }

end Sample

/-- The deletion that the change to the item leads to lies too deep. -/
theorem propagation_goes_down_in_layers_on_sample :
    LawfulReplacement MemoryStore ∧ ∃ change after,
      (Service.insertRecord (.steady 5 0) Sample.order).run Sample.shallow = .ok change after ∧
        change.report = ⟨[Sample.sells, Sample.clears],
          [.cycleLimitExceeded Sample.stock Sample.one .delete 2]⟩ ∧
        change.report.Layered 1 := by
  have hinsert : (Service.insertRecord (.steady 5 0) Sample.order).run Sample.shallow =
      .ok ⟨Sample.order, [Sample.sells, Sample.clears],
        [.cycleLimitExceeded Sample.stock Sample.one .delete 2]⟩
        { Sample.shallow with store := ⟨[Sample.order, Sample.other]⟩ } := by rfl
  refine ⟨inferInstance, _, _, hinsert, rfl, ?_⟩
  rcases propagation_goes_down_in_layers.2 _ _ _ _ (.insert hinsert) with
    ⟨_, hempty, _⟩ | ⟨c, clock, store, _, hreport, _, hlayered⟩
  · cases hempty
  · rw [hreport]
    exact hlayered.report

end RecordRules
