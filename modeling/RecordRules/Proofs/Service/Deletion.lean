/-
The deletion of a record and of all that it cascades to.
-/
import RecordRules.Proofs.Evaluation.Cascade
import RecordRules.Proofs.Service.Rejection

namespace RecordRules

open Relation

/-! ## The checks of a deletion -/

section

variable {σ : Type} [RecordStore σ]

/-- A deletion that only cascades has no checks. -/
theorem precheck_delete [LawfulRecordStore σ] {registry : Registry}
    (hcascades : registry.OnlyCascades) (config : Config) (clock : Clock) (store : σ)
    (module : ModuleId) (candidate : Record) :
    (precheck registry config clock store module .delete candidate).1 = [] := by
  refine List.eq_nil_iff_forall_not_mem.mpr fun o ho => ?_
  obtain ⟨c, place, _⟩ :=
    precheck_outcomes registry config clock store module .delete candidate o ho
  obtain ⟨hdelete, _⟩ := hcascades module c.relationship
    (List.mem_of_getElem? place.relationship) c.rule (List.mem_of_getElem? place.rule)
  have hcheck := Mode.runs_checks place.runs
  rw [hdelete] at hcheck
  cases hcheck

end

/-! ## The call -/

namespace Service

variable {s : Service MemoryStore} {root : Record}

/-- The answer to the deletion of a record that is there. -/
theorem deleteRecord_run (hkeyed : s.store.Keyed) (hroot : root ∈ s.store.records)
    (hcascades : s.registry.OnlyCascades) (t : Timing) :
    (deleteRecord t root.module root.id).run s =
      .ok ⟨root, (evaluate s.registry s.config t.propagating
          (s.store.delete root.module root.id).2 root.module .delete root (some [])).1⟩
        { s with store := (evaluate s.registry s.config t.propagating
          (s.store.delete root.module root.id).2 root.module .delete root (some [])).2 } := by
  have hfind := hkeyed.find?_of_mem hroot
  have hrecord : s.record? root.module root.id = some root := by
    unfold record?
    rw [MemoryStore.get_eq, hfind]
    rfl
  have hchecks := precheck_delete hcascades s.config t.checking s.store root.module root
  have hpassed := passed_run s ⟨t.checking, root.module, .delete, root⟩
  have hnone : s.rejections ⟨t.checking, root.module, .delete, root⟩ = [] := by
    unfold rejections
    rw [hchecks]
    rfl
  rw [if_pos hnone, hchecks] at hpassed
  have hdelete : RecordStore.delete s.store root.module root.id =
      .ok (some root, (s.store.delete root.module root.id).2) := by
    rw [MemoryStore.delete_eq, hfind]
  unfold deleteRecord
  rw [EStateM.run_bind, getRecord_ok hrecord]
  dsimp only
  rw [EStateM.run_bind, hpassed]
  dsimp only
  rw [EStateM.run_bind, EStateM.run_get]
  dsimp only
  rw [hdelete]
  rfl

end Service

/-- The deletion of a record deletes exactly the records that cascades lead to from it, cycles
included, if no event lies too deep and the time does not run out.  All other records stay as they
are, and each deleted record but the first is named by exactly one outcome of a cascade. -/
theorem deletion_removes_reachable (s : Service MemoryStore) (t : Timing) (root : Record)
    (hkeyed : s.store.Keyed) (hroot : root ∈ s.store.records)
    (hcascades : s.registry.OnlyCascades)
    (hdepth : s.store.records.length ≤ s.config.maxDepth.getD s.registry.relationshipCount) :
    ∃ change after, (Service.deleteRecord t root.module root.id).run s = .ok change after ∧
      change.record = root ∧ after.registry = s.registry ∧ after.config = s.config ∧
      (.timedOut s.config.timeoutMs ∉ change.report.warnings →
        (∀ r, r ∈ after.store.records ↔
          r ∈ s.store.records ∧ ¬ReflTransGen (Cascades s.registry s.store) root r) ∧
        after.store.records.Sublist s.store.records ∧
        ∀ r ∈ s.store.records, r ∉ after.store.records → r ≠ root →
          NamedOnce s.registry change.report.outcomes r) := by
  refine ⟨_, _, Service.deleteRecord_run hkeyed hroot hcascades t, rfl, rfl, rfl, fun htime => ?_⟩
  obtain ⟨hfinal, hdone, hqueue⟩ := evaluation_cascading hkeyed hdepth hcascades hroot
  have hearly : (evaluation s.registry s.config t.propagating
      (s.store.delete root.module root.id).2 root.module .delete root (some [])).timedOut =
        false := by
    rw [Bool.eq_false_iff]
    exact fun hlate => htime (hfinal.late hlate)
  exact ⟨hfinal.mem_store_iff hroot hdone hqueue hearly, hfinal.left, hfinal.named⟩

namespace Sample

/-- Stock that is part of other stock goes with it. -/
def parts : Relationship :=
  { id := none, base := stock, target := stock, binding := .byMatch "id" "partOf"
    rules := { RuleLists.empty with onDelete := [Rule.ofAction .cascadeDelete] } }

def partOf (id whole : RecordId) : Record :=
  ⟨id, stock, .object [("partOf", .string whole.text)], 0, 0⟩

/-- Two records that are parts of each other, and one that is part of nothing. -/
def loop : Service MemoryStore :=
  { registry :=
      { catalog := .empty
        graph :=
          { slots := [some ⟨⟨stock, "Stock", [parts], 0, 0⟩, [parts]⟩]
            index := [(stock, 0)]
            relationshipCount := 1 }
        fields := .empty
        generation := 0 }
    config := { Config.standard with maxDepth := some 3 }
    store :=
      ⟨[partOf one two, partOf two one, ⟨⟨"3", by decide +kernel⟩, stock, .object [], 0, 0⟩]⟩ }

def loopWarnings : EStateM.Result ServiceError (Service MemoryStore) Change → List Warning
  | .ok change _ => change.report.warnings
  | .error _ _ => []

theorem loop_onlyCascades : loop.registry.OnlyCascades := by
  intro module r hr rule hrule
  have hparts : r = parts := by
    unfold Registry.relationshipsFrom ModuleGraph.relationshipsFrom ModuleGraph.slot? at hr
    by_cases hmodule : module = stock
    · subst hmodule
      exact List.mem_singleton.mp hr
    · simp [loop, List.lookup_cons, beq_eq_false_iff_ne.mpr hmodule] at hr
  subst hparts
  rw [List.mem_singleton.mp hrule]
  refine ⟨rfl, rfl, fun hsole => ?_⟩
  cases hsole

theorem loop_cascades :
    Cascades loop.registry loop.store (partOf one two) (partOf two one) := by
  refine ⟨List.mem_cons_of_mem _ List.mem_cons_self, parts, List.mem_singleton_self _,
    Rule.ofAction .cascadeDelete, List.mem_singleton_self _, by decide +kernel, rfl, none, ?_, ?_⟩
  · refine .whole fun text subfield hkey hparse => ?_
    cases hkey
    cases hparse
  · exact .byMatch ⟨.field "id", rfl, rfl, rfl⟩ rfl rfl (by decide +kernel)

end Sample

/-- One of the two parts is deleted, and the other one goes with it. -/
theorem deletion_removes_reachable_on_sample :
    Sample.loop.store.Keyed ∧ Sample.loop.registry.OnlyCascades ∧
      ∃ change after, (Service.deleteRecord (.steady 5 0) Sample.stock Sample.one).run
          Sample.loop = .ok change after ∧
        Sample.partOf Sample.two Sample.one ∉ after.store.records ∧
        NamedOnce Sample.loop.registry change.report.outcomes
          (Sample.partOf Sample.two Sample.one) := by
  have hkeyed : Sample.loop.store.Keyed := by
    unfold MemoryStore.Keyed
    decide +kernel
  have hwarnings : Sample.loopWarnings ((Service.deleteRecord (.steady 5 0) Sample.stock
      Sample.one).run Sample.loop) = [] := by
    decide +kernel
  obtain ⟨change, after, hrun, _, _, _, hdeleted⟩ := deletion_removes_reachable Sample.loop
    (.steady 5 0) (Sample.partOf Sample.one Sample.two) hkeyed List.mem_cons_self
    Sample.loop_onlyCascades (by decide +kernel)
  have hrun : (Service.deleteRecord (.steady 5 0) Sample.stock Sample.one).run Sample.loop =
      .ok change after := hrun
  have hquiet : change.report.warnings = [] := by
    rw [hrun] at hwarnings
    exact hwarnings
  obtain ⟨hleft, _, hnamed⟩ := hdeleted (by rw [hquiet]; exact List.not_mem_nil)
  have hgone : Sample.partOf Sample.two Sample.one ∉ after.store.records := fun hthere =>
    ((hleft _).mp hthere).2 (.single Sample.loop_cascades)
  refine ⟨hkeyed, Sample.loop_onlyCascades, change, after, hrun, hgone, hnamed _ ?_ hgone ?_⟩
  · exact List.mem_cons_of_mem _ List.mem_cons_self
  · intro heq
    have hid : Sample.two = Sample.one := congrArg Record.id heq
    exact absurd hid (by decide +kernel)

end RecordRules
