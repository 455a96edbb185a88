/-
The steps of a call.

A call that goes through changes the service in steps: a record of a module that is there is put in,
the data of a record are replaced, a record is deleted, an event propagates, or a module is deleted
with its records.  A call that is refused takes none.  So what every step preserves, every call
does.
-/
import RecordRules.Proofs.Registry.Absence
import RecordRules.Proofs.Service.Answers

namespace RecordRules
namespace Service

open Relation

variable {σ α : Type} {s after : Service σ}

theorem hasModule_of_accepted? {module : ModuleId} {data filled : Json}
    (h : s.accepted? module data = some filled) : s.registry.hasModule module = true := by
  unfold accepted? at h
  split at h
  · next hmodule _ =>
    by_contra hgone
    have hslot := ModuleGraph.slot?_of_not_contains (Bool.eq_false_iff.mpr hgone)
    change s.registry.graph.get module = _ at hmodule
    unfold ModuleGraph.get at hmodule
    rw [hslot] at hmodule
    cases hmodule
  · cases h

theorem answer_ok {x : Call σ α} {a : Unit} (h : (x >>= fun _ => pure ()).run s = .ok a after) :
    ∃ a, x.run s = .ok a after := by
  rw [EStateM.run_bind] at h
  cases hx : x.run s with
  | error e s' =>
    rw [hx] at h
    cases h
  | ok a s' =>
    rw [hx] at h
    cases h
    exact ⟨a, rfl⟩

variable [RecordStore σ]

/-- One step of a call. -/
inductive Step (s : Service σ) : Service σ → Prop where
  | insert {r : Record} {store : σ} (home : s.registry.hasModule r.module = true)
      (insert : RecordStore.insert s.store r = .ok store) : Step s { s with store }
  | replaceData {module : ModuleId} {id : RecordId} {data : Json} {now : Int} {r : Record}
      {store : σ}
      (replace : RecordStore.replaceData s.store module id data now = .ok (r, store)) :
      Step s { s with store }
  | delete {module : ModuleId} {id : RecordId} {r : Record} {store : σ}
      (delete : RecordStore.delete s.store module id = .ok (some r, store)) :
      Step s { s with store }
  | propagate (clock : Clock) (module : ModuleId) (event : Event) (record : Record)
      (prechecked : Option (List Outcome)) :
      Step s { s with
        store := (evaluate s.registry s.config clock s.store module event record prechecked).2 }
  | deleteModule {module : ModuleId} {m : Module} {registry : Registry}
      (delete : s.registry.deleteModule module = .ok (m, registry)) :
      Step s { s with registry, store := (RecordStore.purge s.store module).2 }

abbrev Steps : Service σ → Service σ → Prop := ReflTransGen Step

variable {change : Change}

/-- A module is deleted in one step. -/
theorem deleteModule_ok {module : ModuleId} {purged : Nat}
    (h : (deleteModule module).run s = .ok purged after) :
    ∃ m registry, s.registry.deleteModule module = .ok (m, registry) ∧
      purged = (RecordStore.purge s.store module).1 ∧
      after = { s with registry, store := (RecordStore.purge s.store module).2 } := by
  unfold deleteModule at h
  rw [EStateM.run_bind, EStateM.run_get] at h
  dsimp only at h
  cases hregistry : s.registry.deleteModule module with
  | error e =>
    rw [hregistry] at h
    cases h
  | ok removed =>
    rw [hregistry] at h
    cases h
    exact ⟨removed.1, removed.2, rfl, rfl, rfl⟩

theorem propagated_step {c : Candidate} {clock : Clock} {record : Record} {store : σ}
    (h : (change, after) = s.propagated c clock record store) : Step { s with store } after := by
  cases h
  exact .propagate clock c.module c.event record (some (s.checks c))

section

variable [LawfulRecordStore σ]

theorem insertRecord_steps {t : Timing} {record : Record}
    (h : (insertRecord t record).run s = .ok change after) : Steps s after := by
  obtain ⟨data, store, hdata, _, hinsert, h⟩ := insertRecord_ok h
  have hstep : Step s { s with store } :=
    .insert (r := { record with data }) (hasModule_of_accepted? hdata) hinsert
  exact .tail (.single hstep) (propagated_step h)

theorem updateRecord_steps {t : Timing} {module : ModuleId} {id : RecordId} {data : Json}
    (h : (updateRecord t module id data).run s = .ok change after) : Steps s after := by
  obtain ⟨_, _, _, _, ⟨_, _, rfl⟩ | ⟨_, new, store, _, hreplace, h⟩⟩ := updateRecord_ok h
  · exact .refl
  · have hstep : Step s { s with store } := .replaceData hreplace
    exact .tail (.single hstep) (propagated_step h)

theorem deleteRecord_steps {t : Timing} {module : ModuleId} {id : RecordId}
    (h : (deleteRecord t module id).run s = .ok change after) : Steps s after := by
  obtain ⟨record, store, _, _, hdelete, h⟩ := deleteRecord_ok h
  have hstep : Step s { s with store } := .delete hdelete
  exact .tail (.single hstep) (propagated_step h)

/-- A call that goes through is a chain of steps. -/
theorem perform_steps {request : Request} (h : request.perform.run s = .ok () after) :
    Steps s after := by
  cases request with
  | create t module data fresh =>
    obtain ⟨change, h⟩ := answer_ok h
    exact insertRecord_steps h
  | insert t record =>
    obtain ⟨change, h⟩ := answer_ok h
    exact insertRecord_steps h
  | update t module id data =>
    obtain ⟨change, h⟩ := answer_ok h
    exact updateRecord_steps h
  | delete t module id =>
    obtain ⟨change, h⟩ := answer_ok h
    exact deleteRecord_steps h
  | deleteModule module =>
    obtain ⟨purged, h⟩ := answer_ok h
    obtain ⟨m, registry, hdelete, _, rfl⟩ := deleteModule_ok h
    exact .single (.deleteModule hdelete)

end

end Service
end RecordRules
