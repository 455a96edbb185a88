/-
Calls leave no rule out.

The checks of a written record have their say before the write, and its other rules after it.
Together with what propagates they make up the report of the call.
-/
import RecordRules.Proofs.Evaluation.Checks
import RecordRules.Proofs.Evaluation.Coverage
import RecordRules.Proofs.Service.Layers

namespace RecordRules

open List (Forall₂)

/-- What the checks run in before a write. -/
def Setting.ofCheck (registry : Registry) (config : Config) (clock : Clock) : Setting :=
  { registry, config, clock, maxDepth := 0 }

theorem Outcome.Of.depth_eq {o : Outcome} {s : Setting} {mode : Mode} {t : Trigger}
    (h : o.Of s mode t) : o.depth = t.depth := by
  obtain ⟨c, place, _, _, _, rfl⟩ := h
  rw [← place.trigger]
  rfl

theorem Outcome.Of.action_ne_validate {o : Outcome} {s : Setting} {t : Trigger}
    (h : o.Of s .afterChecks t) : o.action ≠ .validate := by
  obtain ⟨c, place, _, _, _, rfl⟩ := h
  show c.rule.action ≠ .validate
  simpa [Mode.runs] using place.runs

section

variable {σ : Type} [RecordStore σ]

theorem Service.checks_covers (s : Service σ) (c : Candidate) :
    (Setting.ofCheck s.registry s.config c.clock).Covers .checks
      ⟨c.module, c.event, c.record, 0⟩ (s.checks c) := by
  obtain ⟨os, hos, hcovers⟩ := runTrigger_covers (s := .ofCheck s.registry s.config c.clock) .checks
    ⟨c.module, c.event, c.record, 0⟩ (Run.start s.store)
  rw [show s.checks c = os from hos]
  exact hcovers

variable [LawfulRecordStore σ]

/-- The report of an evaluation falls into parts, one for each event in the order in which they are
evaluated, and each part covers its event.  The report of a call has at its head what covers the
checks of the written record, then what covers its other rules, and then the outcomes of events that
lie below. -/
theorem reports_leave_no_rule_out [LawfulReplacement σ] :
    (∀ (registry : Registry) (config : Config) (clock : Clock) (store : σ) (module : ModuleId)
        (event : Event) (record : Record),
      let final := evaluation registry config clock store module event record none
      ∃ parts, final.report.outcomes = parts.flatten ∧
        Forall₂ (fun t os => (Setting.ofRoot registry config clock).Covers .everything t os)
          final.evaluated parts) ∧
    ∀ (s after : Service σ) (request : Request) (change : Change), s.Answers request change after →
      (request.candidate? s = none ∧ change.report = .empty ∧ after = s) ∨
        ∃ c clock own deeper, request.candidate? s = some c ∧
          change.report.outcomes = s.checks c ++ own ++ deeper ∧
          (Setting.ofCheck s.registry s.config c.clock).Covers .checks
            ⟨c.module, c.event, c.record, 0⟩ (s.checks c) ∧
          (Setting.ofRoot s.registry s.config clock).Covers .afterChecks
            ⟨c.module, c.event, change.record, 0⟩ own ∧
          (∀ o ∈ own, o.depth = 0 ∧ o.action ≠ .validate) ∧ ∀ o ∈ deeper, 0 < o.depth := by
  refine ⟨fun registry config clock store module event record => ?_,
    fun s after request change h => ?_⟩
  · obtain ⟨others, parts, hevaluated, _, hparts, hcovers⟩ :=
      evaluation_covers registry config clock store module event record none
    refine ⟨parts, hparts, ?_⟩
    rw [hevaluated]
    refine hcovers.imp fun t os hcovers => ?_
    rw [← modeOf_everything t]
    exact hcovers
  · refine h.cases.imp_right ?_
    rintro ⟨c, clock, store, hc, hdone⟩
    obtain ⟨others, parts, _, hothers, hparts, hcovers⟩ := evaluation_covers s.registry s.config
      clock store c.module c.event change.record (some (s.checks c))
    obtain ⟨own, deeper, hown, hdeeper, rfl⟩ := List.forall₂_cons_left_iff.mp hcovers
    have hroot : (Setting.ofRoot s.registry s.config clock).Covers .afterChecks
        ⟨c.module, c.event, change.record, 0⟩ own := hown
    refine ⟨c, clock, own, deeper.flatten, hc, ?_, s.checks_covers c, hroot, fun o ho => ?_, ?_⟩
    · rw [hdone.report, List.append_assoc]
      exact hparts
    · exact ⟨(hroot.own o ho).depth_eq, (hroot.own o ho).action_ne_validate⟩
    · refine forall₂_flatten_all hdeeper fun t ht os hcovers o ho => ?_
      rw [(hcovers.own o ho).depth_eq]
      exact hothers t ht

end

namespace Sample

/-- The lines of an order, each of which says whether an item is sold. -/
def saleLines : Field :=
  { sold with
    id := ⟨"saleLines", by decide +kernel⟩, name := "lines", module := orders
    subfields := some [.ofName "sold" sold.dataType] }

/-- An item that is ordered has not been sold. -/
def unsold : Rule :=
  { Rule.ofAction .validate with
    target := some "$stock-$sold", value := some (.string "ne"), delta := some (.bool true) }

def sellsLine : Rule :=
  { Rule.ofAction .set with target := some "$stock-$sold", source := some "item.sold" }

def guardedSale : Relationship :=
  { sale with rules := { RuleLists.empty with onCreate := [unsold, sellsLine] } }

def guarded : Service MemoryStore :=
  { registry := { registry with
      graph := { registry.graph with
        slots := [some ⟨⟨orders, "Orders", [guardedSale], 0, 0⟩, [guardedSale]⟩,
          some ⟨⟨stock, "Stock", [clearance], 0, 0⟩, [clearance]⟩] }
      fields :=
        { byModule := [(stock, [sold]), (orders, [saleLines])]
          owners := [(sold.id, stock), (saleLines.id, orders)] } }
    config := .standard
    store := ⟨[item, other]⟩ }

def saleLine (isSold : Bool) : Json := .object [("sold", .bool isSold)]

def twoLines : Record :=
  { order with data := .object [("lines", .array [saleLine true, saleLine false])] }

/-- The rule of a line in its place. -/
def perSaleLine : Scope :=
  { trigger := ⟨orders, .create, twoLines, 0⟩
    relationshipIndex := 0, relationship := guardedSale
    fields := [saleLines]
    ruleIndex := 1, rule := sellsLine }

def ofLines : List Item :=
  [⟨0, saleLine true, some (.bool true)⟩, ⟨1, saleLine false, some (.bool false)⟩]

theorem goesThrough_perSaleLine (clock : Clock) :
    perSaleLine.GoesThrough (.ofRoot guarded.registry guarded.config clock) ofLines where
  known := fun _ => Action.noConfusion
  home := rfl
  field := ⟨some ⟨"sold", none⟩, rfl⟩
  array := ⟨some (.item "sold"), none, "sold", "lines", rfl, rfl, rfl, rfl⟩
  some := List.cons_ne_nil _ _
  each := nofun

/-- The check, the two lines and the clearance that the first of them leads to. -/
def reported : List Outcome :=
  [{ perSaleLine with ruleIndex := 0, rule := unsold }.outcome none (some one) (.applied false),
    perSaleLine.outcome (some 0) (some one) (.applied true),
    perSaleLine.outcome (some 1) (some one) (.applied true),
    clears]

end Sample

/-- The check of the order heads the report, and both of its lines follow. -/
theorem reports_leave_no_rule_out_on_sample :
    LawfulReplacement MemoryStore ∧ ∃ change after own deeper,
      (Service.insertRecord (.steady 5 0) Sample.twoLines).run Sample.guarded = .ok change after ∧
        change.report.outcomes = Sample.reported.take 1 ++ own ++ deeper ∧
        InTurn 2 ((own.filter fun o => o.spot = (0, 1)).map Outcome.itemIndex) := by
  have hinsert : (Service.insertRecord (.steady 5 0) Sample.twoLines).run Sample.guarded =
      .ok ⟨Sample.twoLines, Sample.reported, []⟩
        { Sample.guarded with store := ⟨[Sample.twoLines, Sample.other]⟩ } := by rfl
  rcases reports_leave_no_rule_out.2 _ _ _ _ (.insert hinsert) with
    ⟨hnone, _⟩ | ⟨c, clock, own, deeper, hc, hreport, _, hcovers, _⟩
  · cases hnone
  · cases hc
    have htimely : ∀ o ∈ Sample.reported, o.status ≠ .skipped .timeout := by
      simp [Sample.reported, Sample.clears, Sample.sells, Scope.outcome]
    have hown : ∀ o ∈ own, o ∈ Sample.reported := by
      intro o ho
      rw [show Sample.reported = _ from hreport]
      exact List.mem_append_left _ (List.mem_append_right _ ho)
    refine ⟨inferInstance, _, _, own, deeper, hinsert, hreport, ?_⟩
    exact hcovers.elements Sample.perSaleLine Sample.ofLines ⟨rfl, rfl, rfl, rfl, rfl⟩
      (Sample.goesThrough_perSaleLine clock) fun o ho =>
        htimely o (hown o (List.mem_filter.mp ho).1)

end RecordRules
