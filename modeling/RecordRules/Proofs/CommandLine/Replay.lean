/-
Creation replayed.

A command raises the creation of a record that is there already and evaluates it as it stands, with
its checks.  A service that creates a record has run the checks before, and only lets the event
propagate.
-/
import RecordRules.CommandLine.Command
import RecordRules.Proofs.Evaluation.Replay
import RecordRules.Proofs.Service.Coverage

namespace RecordRules

section

variable {σ : Type} [RecordStore σ] [LawfulRecordStore σ]

/-- If the time runs out in neither, an evaluation without the checks of the root event, which ran
before, leaves the same records and gives the same warnings as one with them, and the outcomes are
the same but for those of the checks.  So a creation that a command replays does what it does when a
service lets it propagate.  The two clocks have to agree on the time of day only. -/
theorem replay_agrees_with_propagation :
    (∀ (registry : Registry) (config : Config) (clock k : Clock) (store : σ) (module : ModuleId)
        (event : Event) (record : Record) (p : List Outcome), k.now = clock.now →
      let after := evaluate registry config clock store module event record (some p)
      let inline := evaluate registry config k store module event record none
      after.1.InTime → inline.1.InTime → after.2 = inline.2 ∧ after.1.Echoes p inline.1) ∧
    ∀ (s : Service σ) (t : Timing) (w : CommandLine.Workspace) (q : CommandLine.Request)
      (r : Record) (p : List Outcome), q.event = .create →
      ∃ change after report store,
        (Service.propagate t.propagating q.module .create r p).run s = .ok change after ∧
        CommandLine.raiseEvent s t w q r = (.ok report, store) ∧
        (change.report.InTime → report.InTime →
          after.store = store ∧ change.report.Echoes p report) := by
  refine ⟨fun registry config clock k store module event record p hnow htime htime' => ?_,
    fun s t w q r p hcreate => ?_⟩
  · exact evaluate_echoes registry config hnow store module event record p htime htime'
  · have hraise : CommandLine.raiseEvent s t w q r =
        (.ok (evaluate s.registry s.config t.propagating s.store q.module .create r none).1,
          (evaluate s.registry s.config t.propagating s.store q.module .create r none).2) := by
      unfold CommandLine.raiseEvent
      rw [hcreate]
    refine ⟨_, _, _, _, rfl, hraise, fun htime htime' => ?_⟩
    exact evaluate_echoes s.registry s.config rfl s.store q.module .create r p htime htime'

end

namespace Sample

/-- The request to raise the creation of an order of two lines. -/
def replaying : CommandLine.Request :=
  { schema := "schema.json", event := .create, module := orders, record := one, data := none
    records := none, config := none, database := none, dump := false }

end Sample

/-- Without outcomes that were reported before, the check of the order is what the replay reports in
addition. -/
theorem replay_agrees_with_propagation_on_sample :
    LawfulRecordStore MemoryStore ∧ ∃ change after report store,
      (Service.propagate (.steady 5 0) Sample.orders .create Sample.twoLines []).run
        Sample.guarded = .ok change after ∧
      CommandLine.raiseEvent Sample.guarded (.steady 5 0) .empty Sample.replaying Sample.twoLines =
        (.ok report, store) ∧
      report.outcomes = Sample.reported ∧ after.store = store ∧ change.report.Echoes [] report := by
  have hraise : CommandLine.raiseEvent Sample.guarded (.steady 5 0) .empty Sample.replaying
      Sample.twoLines = (.ok ⟨Sample.reported, []⟩, ⟨[Sample.other]⟩) := by rfl
  have hpropagate : (Service.propagate (.steady 5 0) Sample.orders .create Sample.twoLines
      []).run Sample.guarded = .ok ⟨Sample.twoLines, Sample.reported.drop 1, []⟩
        { Sample.guarded with store := ⟨[Sample.other]⟩ } := by rfl
  obtain ⟨change, after, report, store, hchange, hreport, hagree⟩ :=
    replay_agrees_with_propagation.2 Sample.guarded (.steady 5 0) .empty Sample.replaying
      Sample.twoLines [] rfl
  cases hreport.symm.trans hraise
  cases hchange.symm.trans hpropagate
  exact ⟨inferInstance, _, _, _, _, hpropagate, hraise, rfl,
    hagree (fun _ => List.not_mem_nil) fun _ => List.not_mem_nil⟩

end RecordRules
