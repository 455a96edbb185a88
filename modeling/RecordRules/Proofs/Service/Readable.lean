/-
Whether what a service has accepted can be read again.

A service over rows checks nothing about the texts that it writes.  Rules build new data out of
data that were read, so the data of a row can lie deeper than any data that a caller sent, and
deeper than they are read.  A row reads as the record that was last written to it exactly if the
data of that record survive.  Whether they are in normal form is no matter of the service: they are
if the schemas and the data that it was given are.
-/
import RecordRules.Proofs.Evaluation.Normality
import RecordRules.Proofs.Service.Steps

namespace RecordRules

open TableStore

/-- What was done to the store so far can be told by the records that were last written. -/
def TableStore.IsWritten (t : TableStore) : Prop := ∃ m, t.Written m

/-! ## Runs -/

section

variable {s : Setting}

theorem Write.isWritten {c : Scope} {run run' : Run TableStore} (h : Write s c run run')
    (hstore : run.store.IsWritten) : run'.store.IsWritten := by
  obtain ⟨m, hm⟩ := hstore
  cases h with
  | change _ _ _ _ _ hwrite hchanged =>
    rw [Run.wrote_store]
    exact ⟨_, .mutateField hm hwrite hchanged⟩
  | delete _ _ hdelete =>
    rw [Run.wrote_store]
    exact ⟨_, .delete hm hdelete⟩

theorem RunStep.isWritten {rootMode : Mode} {run run' : Run TableStore}
    (h : RunStep s rootMode run run') (hstore : run.store.IsWritten) : run'.store.IsWritten := by
  rcases h.cases with hidle | ⟨t, rest, _, rfl⟩ | ⟨t, c, _, _, _, _, hwrite⟩
  · rw [hidle.store]
    exact hstore
  · exact hstore
  · exact hwrite.isWritten hstore

theorem Reaches.isWritten {rootMode : Mode} {run run' : Run TableStore}
    (h : Reaches s rootMode run run') (hstore : run.store.IsWritten) : run'.store.IsWritten := by
  induction h with
  | refl => exact hstore
  | tail _ step ih => exact step.isWritten ih

end

/-! ## Calls -/

namespace Service

variable {s after : Service TableStore}

theorem Step.isWritten (h : Step s after) (hstore : s.store.IsWritten) : after.store.IsWritten := by
  obtain ⟨m, hm⟩ := hstore
  cases h with
  | insert _ hinsert => exact ⟨_, .insert hm hinsert⟩
  | replaceData hreplace => exact ⟨_, .replaceData hm hreplace⟩
  | delete hdelete => exact ⟨_, .delete hm hdelete⟩
  | propagate clock module event record prechecked =>
    exact (evaluation_reaches s.registry s.config clock s.store module event record
      prechecked).isWritten ⟨m, hm⟩
  | @deleteModule module _ _ _ => exact ⟨_, .purge module hm⟩

theorem Steps.isWritten (h : Steps s after) (hstore : s.store.IsWritten) :
    after.store.IsWritten := by
  induction h with
  | refl => exact hstore
  | tail _ step ih => exact step.isWritten ih

end Service

/-! ## Calls with data in normal form -/

/-- The data that the call brings, if any, are in normal form. -/
def Request.IsNormal : Request → Prop
  | create _ _ data _ | update _ _ _ data => data.IsNormal
  | insert _ record => record.data.IsNormal
  | _ => True

/-- A registry has no values after a module is deleted that it did not have before. -/
theorem Registry.IsNormal.deleteModule {r r' : Registry} {id : ModuleId} {m : Module}
    (h : r.IsNormal) (hdelete : r.deleteModule id = .ok (m, r')) : r'.IsNormal := by
  obtain ⟨graph, hremove, rfl⟩ := deleteModule_ok hdelete
  refine ⟨fun module rel hrel => h.rules module rel ?_, fun module f hf => h.defaults module f ?_⟩
  · change rel ∈ graph.relationshipsFrom module at hrel
    show rel ∈ r.graph.relationshipsFrom module
    unfold ModuleGraph.relationshipsFrom at hrel ⊢
    cases hslot : graph.slot? module with
    | none =>
      rw [hslot] at hrel
      cases hrel
    | some s =>
      rw [ModuleGraph.slot?_of_remove hremove hslot]
      rwa [hslot] at hrel
  · exact (FieldTable.list_removeOf_sublist r.fields id module).subset hf

namespace Service

/-- The values in the schema and the records in the store are in normal form. -/
structure IsNormal (s : Service TableStore) : Prop where
  registry : s.registry.IsNormal
  store : s.store.IsNormal

namespace IsNormal

variable {s after : Service TableStore} {change : Change} {t : Timing} {module : ModuleId}
  {data : Json}

theorem accepted (h : s.IsNormal) (hdata : data.IsNormal) {filled : Json}
    (haccepted : s.accepted? module data = some filled) : filled.IsNormal := by
  unfold accepted? at haccepted
  split at haccepted
  · next hcheck =>
    cases haccepted
    have hnormal : (checkRecord s.registry.kindOf (s.registry.listFields module) data).1.IsNormal :=
      isNormal_checkRecord (h.registry.defaults module) hdata
    rwa [hcheck] at hnormal
  · cases haccepted

theorem propagated (h : s.IsNormal) {c : Candidate} {clock : Clock} {record : Record}
    {store : TableStore} (hstore : store.IsNormal) (hrecord : record.data.IsNormal)
    (hdone : (change, after) = s.propagated c clock record store) : after.IsNormal := by
  cases hdone
  exact ⟨h.registry, isNormal_evaluate h.registry s.config clock hstore c.module c.event hrecord _⟩

theorem insertRecord (h : s.IsNormal) {record : Record} (hrecord : record.data.IsNormal)
    (hdone : (insertRecord t record).run s = .ok change after) : after.IsNormal := by
  obtain ⟨filled, store, haccepted, _, hinsert, hdone⟩ := insertRecord_ok hdone
  have hfilled := h.accepted hrecord haccepted
  exact h.propagated (h.store.insert hfilled hinsert) hfilled hdone

theorem updateRecord (h : s.IsNormal) (hdata : data.IsNormal) {id : RecordId}
    (hdone : (updateRecord t module id data).run s = .ok change after) : after.IsNormal := by
  obtain ⟨_, filled, _, haccepted, ⟨_, _, rfl⟩ | ⟨_, new, store, _, hreplace, hdone⟩⟩ :=
    updateRecord_ok hdone
  · exact h
  · obtain ⟨hstore, hnew⟩ := h.store.replaceData (h.accepted hdata haccepted) hreplace
    exact h.propagated hstore hnew hdone

theorem deleteRecord (h : s.IsNormal) {id : RecordId}
    (hdone : (deleteRecord t module id).run s = .ok change after) : after.IsNormal := by
  obtain ⟨record, store, _, _, hdelete, hdone⟩ := deleteRecord_ok hdone
  obtain ⟨hstore, hrecord⟩ := h.store.delete hdelete
  exact h.propagated hstore hrecord hdone

theorem perform (h : s.IsNormal) {request : Request} (hrequest : request.IsNormal)
    (hdone : request.perform.run s = .ok () after) : after.IsNormal := by
  cases request with
  | create t module data fresh =>
    obtain ⟨change, hdone⟩ := answer_ok hdone
    have hrecord : (⟨fresh, module, data, t.now, t.now⟩ : Record).data.IsNormal := hrequest
    exact h.insertRecord hrecord hdone
  | insert t record =>
    obtain ⟨change, hdone⟩ := answer_ok hdone
    exact h.insertRecord hrequest hdone
  | update t module id data =>
    obtain ⟨change, hdone⟩ := answer_ok hdone
    exact h.updateRecord hrequest hdone
  | delete t module id =>
    obtain ⟨change, hdone⟩ := answer_ok hdone
    exact h.deleteRecord hdone
  | deleteModule module =>
    obtain ⟨purged, hdone⟩ := answer_ok hdone
    obtain ⟨m, registry, hdelete, _, rfl⟩ := deleteModule_ok hdone
    exact ⟨h.registry.deleteModule hdelete, h.store.purge module⟩

end IsNormal

/-! ## Histories of calls -/

/-- The services that calls which go through lead to from an empty store.  The schema and the
settings may change in between, and only some schemas and calls may be given. -/
inductive Reached (schema : Registry → Prop) (allowed : Request → Prop) :
    Service TableStore → Prop where
  | start (registry : Registry) (config : Config) (given : schema registry) :
    Reached schema allowed ⟨registry, config, .empty⟩
  | reset {s : Service TableStore} (registry : Registry) (config : Config)
      (before : Reached schema allowed s) (given : schema registry) :
    Reached schema allowed ⟨registry, config, s.store⟩
  | call {s after : Service TableStore} (request : Request) (before : Reached schema allowed s)
      (given : allowed request) (done : request.perform.run s = .ok () after) :
    Reached schema allowed after

variable {s : Service TableStore} {schema : Registry → Prop} {allowed : Request → Prop}

theorem Reached.isWritten (h : s.Reached schema allowed) : s.store.IsWritten := by
  induction h with
  | start registry config => exact ⟨.empty, .empty⟩
  | reset registry config _ _ ih => exact ih
  | call _ _ _ done ih => exact (perform_steps done).isWritten ih

theorem Reached.isNormal (h : s.Reached schema allowed)
    (hschema : ∀ registry, schema registry → registry.IsNormal)
    (hallowed : ∀ request, allowed request → request.IsNormal) : s.IsNormal := by
  induction h with
  | start registry config given => exact ⟨hschema registry given, .empty⟩
  | reset registry config _ given ih => exact ⟨hschema registry given, ih.store⟩
  | call request _ given done ih => exact ih.perform (hallowed request given) done

end Service

/-- Of a service that calls have led to from an empty store it can be told which records were last
written, and their data are in normal form if all schemas and data that were given are.  There is a
row for each of them and no other, and the row reads as the record exactly if the data of the record
are in normal form and survive: if they lie no deeper than they are read, and each number in them
is read as an equal number.  A module is listed as it was written exactly if this holds of all its
records, and one row too deep takes the list of its module with it. -/
theorem stored_records_read_iff_survive {schema : Registry → Prop} {allowed : Request → Prop}
    (s : Service TableStore) (h : s.Reached schema allowed) :
    (∃ m, s.store.Written m ∧
      ((∀ registry, schema registry → registry.IsNormal) →
        (∀ request, allowed request → request.IsNormal) → ∀ r ∈ m.records, r.data.IsNormal)) ∧
    ∀ m, s.store.Written m →
      (∀ module id, RecordStore.get s.store module id = .ok none ↔ m.find? module id = none) ∧
      (∀ r ∈ m.records, RecordStore.get s.store r.module r.id = .ok (some r) ↔
        r.data.IsNormal ∧ r.data.Survives) ∧
      (∀ module, RecordStore.list s.store module = .ok (m.list module) ↔
        ∀ r ∈ m.list module, r.data.IsNormal ∧ r.data.Survives) ∧
      ∀ r ∈ m.records, Json.maxNesting < r.data.nesting →
        RecordStore.get s.store r.module r.id = .error .unreadable ∧
          RecordStore.list s.store r.module = .error .unreadable := by
  refine ⟨?_, fun m hm => ⟨hm.get_eq_none_iff, fun r hr => hm.get_eq_iff hr,
    fun module => hm.list_eq_iff, fun r hr hdeep => ?_⟩⟩
  · by_cases hgiven : (∀ registry, schema registry → registry.IsNormal) ∧
      ∀ request, allowed request → request.IsNormal
    · obtain ⟨m, hm, hkept⟩ := (h.isNormal hgiven.1 hgiven.2).store
      exact ⟨m, hm, fun _ _ => hkept.normal⟩
    · obtain ⟨m, hm⟩ := h.isWritten
      exact ⟨m, hm, fun hschema hallowed => absurd ⟨hschema, hallowed⟩ hgiven⟩
  · exact ⟨hm.get_of_too_deep hr hdeep, hm.list_of_too_deep hr hdeep⟩

namespace Sample

/-- Arrays in one another. -/
def shelves : Nat → Json
  | 0 => .null
  | n + 1 => .array [shelves n]

/-- A record whose data lie deeper than they are read. -/
def volume : Record := ⟨one, stock, .object [("shelf", shelves 127)], 0, 0⟩

/-- The call that puts in the record. -/
def shelving : Request := .insert (.steady 5 0) volume

theorem isNormal_shelves : ∀ n, (shelves n).IsNormal
  | 0 => rfl
  | n + 1 => Json.isNormal_array_iff.mpr (List.forall_mem_singleton.mpr (isNormal_shelves n))

theorem isNormal_shelving : shelving.IsNormal :=
  Json.isNormal_object_iff.mpr
    ⟨List.pairwise_singleton .., List.forall_mem_singleton.mpr (isNormal_shelves 127)⟩

/-- What comes of putting in the record. -/
def shelved : EStateM.Result ServiceError (Service TableStore) Unit :=
  shelving.perform.run ⟨registry, .standard, .empty⟩

theorem isNormal_registry : registry.IsNormal where
  rules module r hr event rule hrule := by
    have hmem : r = sale ∨ r = clearance := by
      change r ∈ registry.graph.relationshipsFrom module at hr
      unfold ModuleGraph.relationshipsFrom at hr
      cases hslot : registry.graph.slot? module with
      | none =>
        rw [hslot] at hr
        cases hr
      | some s =>
        rw [hslot] at hr
        change r ∈ s.outgoing at hr
        rcases List.mem_cons.mp (ModuleGraph.mem_slots_of_slot? hslot) with hs | hs
        · cases hs
          exact Or.inl (List.mem_singleton.mp hr)
        · cases List.mem_singleton.mp hs
          exact Or.inr (List.mem_singleton.mp hr)
    rcases hmem with rfl | rfl
    · cases event with
      | create =>
        cases List.mem_singleton.mp hrule
        exact ⟨by rintro _ ⟨⟩; rfl, by rintro _ ⟨⟩⟩
      | update | delete => cases hrule
    · cases event with
      | update =>
        cases List.mem_singleton.mp hrule
        exact ⟨by rintro _ ⟨⟩, by rintro _ ⟨⟩⟩
      | create | delete => cases hrule
  defaults module f hf subfields hsubfields := by
    have hnone : f.subfields = none := by
      change f ∈ ((List.lookup module [(stock, [sold])]).getD []) at hf
      rw [List.lookup_cons] at hf
      split at hf
      · cases List.mem_singleton.mp hf
        rfl
      · cases hf
    rw [hnone] at hsubfields
    cases hsubfields

end Sample

/-- The record is put in, and its row does not read. -/
theorem stored_records_read_iff_survive_on_sample :
    ∃ s : Service TableStore, s.Reached Registry.IsNormal Request.IsNormal ∧
      RecordStore.get s.store Sample.stock Sample.one = .error .unreadable ∧
        ∃ m, s.store.Written m ∧ (∀ r ∈ m.records, r.data.IsNormal) ∧
          ∃ r, m.find? Sample.stock Sample.one = some r := by
  obtain ⟨s, hrun, hstore⟩ : ∃ s, Sample.shelved = .ok () s ∧
      s.store = ⟨[Row.ofRecord Sample.volume]⟩ := ⟨_, rfl, rfl⟩
  have hreached : s.Reached Registry.IsNormal Request.IsNormal :=
    .call _ (.start _ _ Sample.isNormal_registry) Sample.isNormal_shelving hrun
  have hwritten : s.store.Written ⟨[Sample.volume]⟩ := by
    rw [hstore]
    exact .insert .empty (r := Sample.volume) rfl
  have hdeep : Json.maxNesting < Sample.volume.data.nesting := by decide +kernel
  obtain ⟨⟨m, hm, hkept⟩, hall⟩ := stored_records_read_iff_survive s hreached
  obtain ⟨hnone, -, -, -⟩ := hall m hm
  obtain ⟨-, -, -, hunread⟩ := hall _ hwritten
  obtain ⟨hget, -⟩ := hunread _ List.mem_cons_self hdeep
  refine ⟨s, hreached, hget, m, hm, hkept (fun _ h => h) (fun _ h => h), ?_⟩
  refine Option.ne_none_iff_exists'.mp fun hgone => ?_
  cases hget.symm.trans ((hnone Sample.stock Sample.one).mpr hgone)

end RecordRules
