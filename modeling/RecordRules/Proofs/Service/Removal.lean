/-
What is left of a deleted module.

A service goes on by calls and by operations on its registry.  A module that is deleted takes its
fields, its relationships and its records along, and nothing brings any of them back: whatever is
done next, until the module is created there is nothing of it, rules that lead to it are skipped,
and once it is created it starts from nothing.
-/
import RecordRules.Proofs.Evaluation.Dangling
import RecordRules.Proofs.Service.Coverage
import RecordRules.Proofs.Service.Steps
import RecordRules.Proofs.Store.Purge

namespace RecordRules

open List (Forall₂)
open ModularStore (holdings)
open RecordStore (SameIn)

/-! ## Deeds -/

/-- What is done to a service: a call, or an operation on its registry. -/
inductive Deed where
  | call (request : Request)
  | schema (o : Registry.Operation)

namespace Deed

variable {σ : Type}

/-- The service after a deed, whether it is refused or not. -/
def leaves [RecordStore σ] (s : Service σ) : Deed → Service σ
  | call request =>
    match request.perform.run s with
    | .ok _ after => after
    | .error _ after => after
  | schema o => { s with registry := o.run.leaves s.registry }

/-- The deed creates a module. -/
def Creates (d : Deed) (s : Service σ) (module : ModuleId) : Prop :=
  ∃ o, d = .schema o ∧ o.Creates s.registry module

end Deed

/-! ## What there is of a module -/

namespace Service

variable {σ : Type} [RecordStore σ] [ModularStore σ]

/-- A service has no records of a module. -/
structure NoRecords (s : Service σ) (module : ModuleId) : Prop where
  holdings : holdings s.store module = []
  list : RecordStore.list s.store module = .ok []
  get : ∀ id, RecordStore.get s.store module id = .ok none
  count : RecordStore.count s.store module = 0

/-- A service has nothing of a module. -/
structure Lacks (s : Service σ) (module : ModuleId) : Prop where
  registry : s.registry.Lacks module
  records : s.NoRecords module

/-- A service has a module with nothing in it. -/
structure Bare (s : Service σ) (module : ModuleId) : Prop where
  registry : s.registry.Bare module
  records : s.NoRecords module

/-- All other modules are as they were, with their fields, relationships and records. -/
structure SameBut (module : ModuleId) (s after : Service σ) : Prop where
  registry : Registry.SameBut module s.registry after.registry
  records : SameIn (· ≠ module) s.store after.store
  config : after.config = s.config

/-- The services that deeds lead to from one of which the registry was just built. -/
inductive Lived : Service σ → Prop where
  | start {s : Service σ} (h : s.registry.Started) : Lived s
  | deed {s : Service σ} (before : Lived s) (d : Deed) : Lived (d.leaves s)

/-- The services that deeds lead to, none of which creates a module. -/
inductive Since (module : ModuleId) (s : Service σ) : Service σ → Prop where
  | now : Since module s s
  | deed {later : Service σ} (before : Since module s later) (d : Deed)
      (other : ¬d.Creates later module) : Since module s (d.leaves later)

end Service

/-- Rules that lead to a module are skipped, whatever runs them: each says so once and touches
nothing, and there is one warning for each event and each relationship of it that has rules.  No
record of the module is written. -/
structure Registry.PassesBy (σ : Type) [RecordStore σ] [ModularStore σ] (registry : Registry)
    (module : ModuleId) : Prop where
  rule : ∀ (s : Setting) (c : Scope) (run : Run σ), s.registry = registry → c.target = module →
    c.PassesBy run (runRule s c run)
  outcomes : ∀ (config : Config) (clock : Clock) (store : σ) (root : ModuleId) (event : Event)
      (record : Record) (prechecked : Option (List Outcome)),
    let s := Setting.ofRoot registry config clock
    let final := evaluation registry config clock store root event record prechecked
    ∃ parts, final.report.outcomes = prechecked.getD [] ++ parts.flatten ∧
      Forall₂ (fun t os => s.Skips (modeOf (.ofRoot prechecked) t) module t os) final.evaluated
        parts
  checks : ∀ (config : Config) (clock : Clock) (store : σ) (root : ModuleId) (event : Event)
      (record : Record),
    (Setting.ofCheck registry config clock).Skips .checks module ⟨root, event, record, 0⟩
      (precheck registry config clock store root event record).1
  warnings : ∀ (config : Config) (clock : Clock) (store : σ) (root : ModuleId) (event : Event)
      (record : Record) (prechecked : Option (List Outcome)),
    let s := Setting.ofRoot registry config clock
    let final := evaluation registry config clock store root event record prechecked
    final.report.warnings.filter (Warning.misses module) =
      final.evaluated.flatMap (s.danglings module)
  records : ∀ (config : Config) (clock : Clock) (store : σ) (root : ModuleId) (event : Event)
      (record : Record) (prechecked : Option (List Outcome)),
    holdings (evaluate registry config clock store root event record prechecked).2 module =
      holdings store module

section

variable {σ : Type} [RecordStore σ] [ModularStore σ] [LawfulRecordStore σ] {module : ModuleId}

theorem Registry.passesBy_of_gone {registry : Registry}
    (hgone : registry.hasModule module = false) : registry.PassesBy σ module where
  rule s c run hregistry htarget := by
    refine runRule_passesBy ?_ run
    rw [hregistry, htarget]
    exact hgone
  outcomes := evaluation_skips hgone
  checks config clock store root event record := by
    obtain ⟨os, hos, hskips⟩ := runTrigger_skips (s := .ofCheck registry config clock) hgone .checks
      ⟨root, event, record, 0⟩ (Run.start store)
    rw [show (precheck registry config clock store root event record).1 = os from hos]
    exact hskips
  warnings := evaluation_missing hgone
  records config clock store root event record prechecked :=
    (evaluation_reaches registry config clock store root event record prechecked).holdings_eq hgone

namespace Service

variable {s after later : Service σ}

/-! ## Registries in order -/

omit [ModularStore σ] [LawfulRecordStore σ] in
theorem Steps.inOrder (h : Steps s after) (hs : s.registry.InOrder) : after.registry.InOrder := by
  induction h with
  | refl => exact hs
  | tail _ step ih =>
    cases step with
    | deleteModule hdelete => exact (ih.deleteModule hdelete).1
    | _ => exact ih

omit [ModularStore σ] in
/-- A call is a chain of steps, whether it is refused or not. -/
theorem steps_leaves (s : Service σ) (request : Request) :
    Steps s ((Deed.call request).leaves s) := by
  unfold Deed.leaves
  dsimp only
  cases hrun : request.perform.run s with
  | ok u after => exact perform_steps hrun
  | error e after =>
    rw [(perform_settles s request).unchanged e after hrun]

omit [ModularStore σ] in
theorem Lived.inOrder (h : s.Lived) : s.registry.InOrder := by
  induction h with
  | start h => exact h.inOrder
  | @deed s _ d ih =>
    cases d with
    | call request => exact (steps_leaves s request).inOrder ih
    | schema o => exact ih.leaves o

/-! ## Nothing comes back -/

variable [PurgingStore σ]

omit [LawfulRecordStore σ] in
theorem noRecords_of_holdings (h : holdings s.store module = []) : s.NoRecords module where
  holdings := h
  list := ModularStore.list_of_holdings_nil h
  get := ModularStore.get_of_holdings_nil h
  count := by
    rw [PurgingStore.count_eq, h]
    rfl

/-- The deletion takes everything of the module and leaves all others as they are. -/
theorem Lived.deleteModule (hs : s.Lived) {purged : Nat}
    (h : (Service.deleteModule module).run s = .ok purged after) :
    purged = RecordStore.count s.store module ∧ after.registry.InOrder ∧ after.Lacks module ∧
      SameBut module s after := by
  obtain ⟨m, registry, hdelete, rfl, rfl⟩ := deleteModule_ok h
  obtain ⟨hin, hlacks, hsame⟩ := hs.inOrder.deleteModule hdelete
  refine ⟨?_, hin, ⟨hlacks, noRecords_of_holdings ?_⟩, hsame, fun other hne => ?_, rfl⟩
  · rw [PurgingStore.purge_eq, PurgingStore.count_eq]
  · exact (PurgingStore.holdings_purge s.store module module).trans (if_pos rfl)
  · exact (PurgingStore.holdings_purge_of_ne s.store hne).symm

variable [LawfulReplacement σ]

/-- What a step writes is of other modules. -/
theorem Step.lacks (h : Step s after) (hs : s.registry.InOrder) (hm : s.Lacks module) :
    after.Lacks module := by
  have hnone := hm.records.holdings
  cases h with
  | @insert r store home hinsert =>
    have hne : module ≠ r.module := by
      rintro rfl
      exact Bool.eq_false_iff.mp hm.registry.hasModule home
    refine ⟨hm.registry, noRecords_of_holdings ?_⟩
    exact (PurgingStore.holdings_insert_of_ne hinsert hne).trans hnone
  | @replaceData other id data now r store hreplace =>
    have hne : module ≠ other := by
      rintro rfl
      obtain ⟨old, hold, _⟩ := LawfulReplacement.withData_of_replaceData hreplace
      cases (hm.records.get id).symm.trans hold
    refine ⟨hm.registry, noRecords_of_holdings ?_⟩
    exact (PurgingStore.holdings_replaceData_of_ne hreplace hne).trans hnone
  | @delete other id r store hdelete =>
    have hne : module ≠ other := by
      rintro rfl
      cases (hm.records.get id).symm.trans (LawfulRecordStore.get_of_delete hdelete)
    refine ⟨hm.registry, noRecords_of_holdings ?_⟩
    exact (ModularStore.holdings_delete_of_ne hdelete hne).trans hnone
  | propagate clock root event record prechecked =>
    have hskips : s.registry.PassesBy σ module :=
      Registry.passesBy_of_gone hm.registry.hasModule
    refine ⟨hm.registry, noRecords_of_holdings ?_⟩
    exact (hskips.records s.config clock s.store root event record prechecked).trans hnone
  | @deleteModule other m registry hdelete =>
    have hperform : (Registry.Edit.deleteModule other).perform s.registry = .ok registry := by
      rw [Registry.Edit.perform, hdelete]
      rfl
    have hregistry : registry.Lacks module :=
      hm.registry.edit hs hperform fun _ _ hcreates => by cases hcreates
    refine ⟨hregistry, noRecords_of_holdings ?_⟩
    rw [PurgingStore.holdings_purge, hnone, ite_self]

theorem Steps.lacks (h : Steps s after) (hs : s.registry.InOrder) (hm : s.Lacks module) :
    after.Lacks module := by
  induction h with
  | refl => exact hm
  | tail h step ih => exact step.lacks (Steps.inOrder h hs) ih

/-- Whatever is done, a module that is not there stays away until it is created. -/
theorem Since.lacks (h : Since module s later) (hs : s.registry.InOrder) (hm : s.Lacks module) :
    later.registry.InOrder ∧ later.Lacks module := by
  induction h with
  | now => exact ⟨hs, hm⟩
  | @deed later _ d hother ih =>
    obtain ⟨hin, hlacks⟩ := ih
    cases d with
    | call request =>
      have hsteps := steps_leaves later request
      exact ⟨hsteps.inOrder hin, hsteps.lacks hin hlacks⟩
    | schema o =>
      have hregistry := hlacks.registry.leaves hin fun ho => hother ⟨o, rfl, ho⟩
      exact ⟨hin.leaves o, hregistry, noRecords_of_holdings hlacks.records.holdings⟩

omit [LawfulRecordStore σ] [LawfulReplacement σ] in
theorem Lacks.creates (h : s.Lacks module) (hs : s.registry.InOrder) {d : Deed}
    (hd : d.Creates s module) : (d.leaves s).Bare module := by
  obtain ⟨o, rfl, ho⟩ := hd
  exact ⟨h.registry.creates hs ho, noRecords_of_holdings h.records.holdings⟩

end Service

/-- A module that is deleted leaves nothing behind, and all other modules stay as they are.  Until
it is created again there is nothing of it, whatever is done, and rules that lead to it are skipped
and warned of.  Once it is created, it has no fields, no relationships and no records. -/
theorem deleted_modules_leave_nothing_behind [PurgingStore σ] [LawfulReplacement σ]
    {s after : Service σ} {purged : Nat} (hs : s.Lived)
    (hdelete : (Service.deleteModule module).run s = .ok purged after) :
    purged = RecordStore.count s.store module ∧ after.Lacks module ∧
      Service.SameBut module s after ∧
      ∀ later, Service.Since module after later →
        later.Lacks module ∧ later.registry.PassesBy σ module ∧
          ∀ d : Deed, d.Creates later module → (d.leaves later).Bare module := by
  obtain ⟨hpurged, hin, hlacks, hsame⟩ := hs.deleteModule hdelete
  refine ⟨hpurged, hlacks, hsame, fun later hlater => ?_⟩
  obtain ⟨hlaterIn, hlaterLacks⟩ := hlater.lacks hin hlacks
  refine ⟨hlaterLacks, Registry.passesBy_of_gone hlaterLacks.registry.hasModule, fun d hd => ?_⟩
  exact hlaterLacks.creates hlaterIn hd

end

namespace Sample

def shop : Service MemoryStore := ⟨sales, .standard, ⟨[item, other]⟩⟩

/-- Stock and its two records are gone, and orders still lead to it. -/
def soldOut : Service MemoryStore := (Deed.call (.deleteModule stock)).leaves shop

end Sample

/-- The rule for new orders has no record of stock to change any more, and stock that is created
again is empty. -/
theorem deleted_modules_leave_nothing_behind_on_sample :
    Sample.shop.Lived ∧
      (Service.deleteModule Sample.stock).run Sample.shop = .ok 2 Sample.soldOut ∧
      Sample.soldOut.Lacks Sample.stock ∧ Service.SameBut Sample.stock Sample.shop Sample.soldOut ∧
      (Sample.soldOut.registry.PassesBy MemoryStore Sample.stock ∧
        let next := evaluate Sample.soldOut.registry .standard (.steady 5 0) Sample.soldOut.store
          Sample.orders .create Sample.order none
        next.1.outcomes.map Outcome.status = [.skipped (.notFound (.module Sample.stock))] ∧
          next.1.warnings = [.danglingTarget Sample.orders 0 Sample.stock] ∧
          next.2.records = []) ∧
      ((Deed.schema (.edit (.createModule Sample.stock "Stock" 6))).leaves Sample.soldOut).Bare
        Sample.stock := by
  have hlived : Sample.shop.Lived := .start (Or.inr ⟨_, Sample.sales_ofSnapshot⟩)
  have hdelete : (Service.deleteModule Sample.stock).run Sample.shop = .ok 2 Sample.soldOut := rfl
  obtain ⟨_, hlacks, hsame, hsince⟩ := deleted_modules_leave_nothing_behind hlived hdelete
  obtain ⟨_, hpasses, hcreates⟩ := hsince Sample.soldOut .now
  exact ⟨hlived, hdelete, hlacks, hsame, ⟨hpasses, rfl, rfl, rfl⟩,
    hcreates _ ⟨_, rfl, "Stock", 6, _, rfl, rfl⟩⟩

end RecordRules
