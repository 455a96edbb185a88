/-
Where a run can reach.

All that a run reads and writes is in the modules that relationships lead to from that of the root
event.  So two runs from stores that hold the same records there go on alike, and what either store
holds of other modules stays as it is.
-/
import RecordRules.Proofs.Evaluation.Chains
import RecordRules.Proofs.Evaluation.Lockstep
import RecordRules.Proofs.Evaluation.Statuses
import RecordRules.Proofs.Store.Modular

namespace RecordRules

open ModularStore (holdings)
open RecordStore (SameIn)
open Relation

section

variable {σ : Type} [RecordStore σ]

/-- Targets are found by what the store answers about the target module. -/
theorem Binding.targets_congr (b : Binding) (registry : Registry) {store store' : σ}
    {module : ModuleId} (hget : ∀ id, RecordStore.get store' module id =
      RecordStore.get store module id)
    (hlist : RecordStore.list store' module = RecordStore.list store module) (r : Record)
    (element : Option Json) :
    b.targets registry store' module r element = b.targets registry store module r element := by
  unfold Binding.targets fetch RecordStore.findByField
  rw [hlist]
  simp only [hget]

variable [ModularStore σ] {s : Setting} {rootMode : Mode} {run run' : Run σ}

/-! ## What a run leaves alone -/

theorem Write.holdings_of_ne {c : Scope} (h : Write s c run run') {other : ModuleId}
    (hne : other ≠ c.target) : holdings run'.store other = holdings run.store other := by
  cases h with
  | change itemIndex _ _ _ _ hwrite _ =>
    rw [Run.wrote_store]
    exact ModularStore.holdings_mutateField_of_ne hwrite hne
  | delete itemIndex _ hdelete =>
    rw [Run.wrote_store]
    exact ModularStore.holdings_delete_of_ne hdelete hne

/-- A run keeps to the modules that are led to from that of its root event. -/
structure Run.Confined (registry : Registry) (module : ModuleId) (store : σ) (run : Run σ) :
    Prop where
  events : ∀ l ∈ run.layers, ReflTransGen registry.Leads module l.1.1
  others : SameIn (fun m => ¬registry.LeadsOn module m) run.store store

namespace Run

variable {module : ModuleId} {store : σ}

theorem confined_root (registry : Registry) (store : σ) (module : ModuleId) (event : Event)
    (record : Record) (outcomes : List Outcome) :
    (Run.root store module event record outcomes).Confined registry module store where
  events := List.forall_mem_singleton.mpr .refl
  others := .refl _ store

/-- The rules of an event act on modules that are led to. -/
theorem Confined.leadsOn {registry : Registry} (h : run.Confined registry module store)
    {t : Trigger} (ht : t.layer ∈ run.layers) {m : ModuleId} (hm : registry.Leads t.module m) :
    registry.LeadsOn module m := .tail' (h.events t.layer ht) hm

variable [LawfulRecordStore σ]

theorem Confined.step (h : run.Confined s.registry module store)
    (hstep : RunStep s rootMode run run') : run'.Confined s.registry module store := by
  refine ⟨?_, fun other hother => ?_⟩
  · rcases hstep.layers_cases with
      ⟨hlayers, _⟩ | ⟨t, u, hcurrent, hleads, _, ⟨_, hlayers, _⟩ | ⟨_, hlayers, _⟩⟩
    · rw [hlayers]
      exact h.events
    · rw [hlayers]
      exact h.events
    · rw [hlayers]
      refine List.forall_mem_append.mpr ⟨h.events, List.forall_mem_singleton.mpr ?_⟩
      exact (h.events t.layer (layer_mem_layers_of_current? hcurrent)).tail hleads
  · rw [← h.others other hother]
    rcases hstep.cases with hidle | ⟨t, rest, _, rfl⟩ | ⟨t, c, hcurrent, place, _, _, hwrite⟩
    · rw [hidle.store]
    · rfl
    · refine hwrite.holdings_of_ne ?_
      rintro rfl
      exact hother (h.leadsOn (layer_mem_layers_of_current? hcurrent) place.leads)

theorem Confined.reaches (h : run.Confined s.registry module store)
    (hreaches : Reaches s rootMode run run') : run'.Confined s.registry module store := by
  induction hreaches with
  | refl => exact h
  | tail _ hstep ih => exact ih.step hstep

end Run

/-! ## Runs that are alike -/

/-- Two runs differ in their stores alone, and these hold the same records of some modules. -/
def Run.Alike (modules : ModuleId → Prop) (run run' : Run σ) : Prop :=
  ∃ store, SameIn modules run.store store ∧ run' = run.but store run.outcomes run.looks

namespace Run.Alike

variable {modules : ModuleId → Prop}

theorem emit (h : run.Alike modules run') (o : Outcome) :
    (run.emit o).Alike modules (run'.emit o) := by
  obtain ⟨store, hstore, rfl⟩ := h
  exact ⟨store, hstore, rfl⟩

theorem warn (h : run.Alike modules run') (w : Warning) :
    (run.warn w).Alike modules (run'.warn w) := by
  obtain ⟨store, hstore, rfl⟩ := h
  exact ⟨store, hstore, rfl⟩

theorem take (h : run.Alike modules run') (t : Trigger) (rest : List Trigger) :
    (run.take t rest).Alike modules (run'.take t rest) := by
  obtain ⟨store, hstore, rfl⟩ := h
  exact ⟨store, hstore, rfl⟩

theorem queue (h : run.Alike modules run') : run'.queue = run.queue := by
  obtain ⟨store, _, rfl⟩ := h
  rfl

theorem timedOut (h : run.Alike modules run') : run'.timedOut = run.timedOut := by
  obtain ⟨store, _, rfl⟩ := h
  rfl

theorem report (h : run.Alike modules run') : run'.report = run.report := by
  obtain ⟨store, _, rfl⟩ := h
  rfl

theorem store (h : run.Alike modules run') : SameIn modules run.store run'.store := by
  obtain ⟨store, hstore, rfl⟩ := h
  exact hstore

theorem lookAtClock (h : run.Alike modules run') :
    (run.lookAtClock s).Alike modules (run'.lookAtClock s) := by
  obtain ⟨store, hstore, rfl⟩ := h
  unfold Run.lookAtClock but
  dsimp only
  by_cases hup : run.timedOut = true
  · rw [if_pos hup, if_pos hup]
    exact ⟨store, hstore, rfl⟩
  · rw [if_neg hup, if_neg hup]
    split
    · exact ⟨store, hstore, rfl⟩
    · exact ⟨store, hstore, rfl⟩

variable {c : Scope}

/-- A rule that acts on one of the modules does the same to both runs. -/
theorem lockstep (hmodule : modules c.target) :
    Lockstep (σ := σ) s s.clock c (Run.Alike modules) where
  emit := fun _ _ _ h => h.emit _
  targets := fun element h =>
    c.binding.targets_congr s.registry (h.store.get_eq hmodule) (h.store.list_eq hmodule) _ element
  write := by
    rintro run _ itemIndex id field m ⟨store, hstore, rfl⟩
    obtain ⟨store', hstore', hwrite⟩ := writeField_but (R := SameIn modules) (s := s) (k := s.clock)
      rfl c run hstore (hstore.mutateField hmodule id field m _) run.outcomes run.looks
    rw [hwrite]
    refine Alike.emit ⟨store', hstore', ?_⟩ _
    rw [(writeField_reports s run id field m).2, writeField_looks]
  delete := by
    rintro run _ itemIndex id ⟨store, hstore, rfl⟩
    obtain ⟨store', hstore', hdelete⟩ := deleteRecord_but (R := SameIn modules) (s := s) s.clock c
      run hstore (hstore.delete hmodule id) run.outcomes run.looks
    rw [hdelete]
    refine Alike.emit ⟨store', hstore', ?_⟩ _
    rw [(deleteRecord_reports s run id).2, deleteRecord_looks]

theorem turn (h : run.Alike modules run') (hmodule : modules c.target) (mode : Mode) :
    (c.turn s mode run).Alike modules (c.turn s mode run') := by
  have hlook := h.lookAtClock (s := s)
  unfold Scope.turn runRule
  dsimp only
  rw [hlook.timedOut]
  split
  · split
    · exact hlook.emit _
    · split
      · exact (lockstep hmodule).applyRule hlook
      · exact hlook.emit _
  · exact h

theorem next (h : run.Alike modules run') {t : Trigger}
    (ht : ∀ m, s.registry.Leads t.module m → modules m) (rest : List Trigger) :
    (next s rootMode t rest run).Alike modules (RecordRules.next s rootMode t rest run') :=
  runTrigger_lockstep (k := s.clock) (fun w _ _ h => h.warn w)
    (fun c place _ _ h => h.turn (ht c.target place.leads) _) (h.take t rest)

end Run.Alike

/-! ## Whole evaluations -/

variable [LawfulRecordStore σ]

/-- From a run that is alike the evaluation takes as many rounds and ends alike. -/
theorem Drains.alike {final : Run σ} {rounds : Nat} {module : ModuleId} {store : σ}
    (h : Drains s rootMode run rounds final) (hconfined : run.Confined s.registry module store)
    (halike : run.Alike (s.registry.LeadsOn module) run') :
    ∃ final', Drains s rootMode run' rounds final' ∧
      final.Alike (s.registry.LeadsOn module) final' := by
  induction h generalizing run' with
  | done hempty => exact ⟨run', .done (halike.queue.trans hempty), halike⟩
  | @round run final t rest rounds hqueue _ ih =>
    have hwaits : t.layer ∈ run.layers := by
      refine List.mem_map_of_mem (List.mem_append_right _ ?_)
      rw [hqueue]
      exact List.mem_cons_self
    obtain ⟨final', hmore, hfinal⟩ := ih (hconfined.reaches (next_reaches hqueue))
      (halike.next (fun _ => hconfined.leadsOn hwaits) rest)
    exact ⟨final', .round (halike.queue.trans hqueue) hmore, hfinal⟩

/-- Two stores that hold the same records of all modules that are led to from that of a root event
are not told apart by its evaluation: the report is the same, and so is what they hold of these
modules afterwards.  What either holds of other modules is as it was. -/
theorem evaluation_keeps_to_modules_led_to (registry : Registry) (config : Config) (clock : Clock)
    {store store' : σ} (module : ModuleId) (event : Event) (record : Record)
    (prechecked : Option (List Outcome)) (h : SameIn (registry.LeadsOn module) store store') :
    let evaluated (store : σ) :=
      evaluate registry config clock store module event record prechecked
    (evaluated store').1 = (evaluated store).1 ∧
      SameIn (registry.LeadsOn module) (evaluated store).2 (evaluated store').2 ∧
      SameIn (fun m => ¬registry.LeadsOn module m) (evaluated store).2 store ∧
      SameIn (fun m => ¬registry.LeadsOn module m) (evaluated store').2 store' := by
  have hothers (store : σ) := ((Run.confined_root registry store module event record
    (prechecked.getD [])).reaches (s := .ofRoot registry config clock)
      (evaluation_reaches registry config clock store module event record prechecked)).others
  have hstart : (Run.root store module event record (prechecked.getD [])).Alike
      (registry.LeadsOn module) (Run.root store' module event record (prechecked.getD [])) :=
    ⟨store', h, rfl⟩
  obtain ⟨final', hdrains, hfinal⟩ :=
    (evaluation_drains registry config clock store module event record prechecked).alike
      (Run.confined_root registry store module event record _) hstart
  obtain rfl := hdrains.unique
    (evaluation_drains registry config clock store' module event record prechecked)
  exact ⟨hfinal.report, hfinal.store, hothers store, hothers store'⟩

end

/-! ## Two stores with other orders -/

namespace Sample

def withoutOrder : MemoryStore := ⟨[item, other]⟩

/-- The store has the order as well, and orders are not led to. -/
def withOrder : MemoryStore := ⟨[order, item, other]⟩

theorem withoutOrder_sameIn : SameIn (sales.LeadsOn orders) withoutOrder withOrder := by
  intro m hm
  rw [(sales_leadsOn hm).2]
  rfl

end Sample

/-- Stock is written, and the order is left alone where there is one. -/
theorem evaluation_keeps_to_modules_led_to_on_sample :
    LawfulRecordStore MemoryStore ∧
      SameIn (Sample.sales.LeadsOn Sample.orders) Sample.withoutOrder Sample.withOrder ∧
      let evaluated (store : MemoryStore) := evaluate Sample.sales .standard (.steady 5 0) store
        Sample.orders .create Sample.order none
      (evaluated Sample.withoutOrder).2.records.map Record.updatedAt = [5, 0] ∧
        (evaluated Sample.withOrder).1 = (evaluated Sample.withoutOrder).1 ∧
        SameIn (Sample.sales.LeadsOn Sample.orders) (evaluated Sample.withoutOrder).2
          (evaluated Sample.withOrder).2 ∧
        holdings (evaluated Sample.withOrder).2 Sample.orders =
          [MemoryStore.holding Sample.order] := by
  obtain ⟨hreport, hsame, _, hothers⟩ := evaluation_keeps_to_modules_led_to Sample.sales .standard
    (.steady 5 0) Sample.orders .create Sample.order none Sample.withoutOrder_sameIn
  refine ⟨inferInstance, Sample.withoutOrder_sameIn, by rfl, hreport, hsame, ?_⟩
  exact hothers Sample.orders (Sample.sales_acyclic Sample.orders)

end RecordRules
