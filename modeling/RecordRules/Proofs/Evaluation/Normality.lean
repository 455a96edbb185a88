/-
Data in normal form.

Data that are read from a row are in normal form, since the reader puts the members of objects in
order.  A rule writes a number, a value that stands in it, or what it reads of a record.  So a run
writes data in normal form, if the values in the schema and the data that were there are.
-/
import RecordRules.Proofs.Evaluation.Schedule
import RecordRules.Proofs.Evaluation.Sources
import RecordRules.Proofs.Evaluation.Walk
import RecordRules.Proofs.Json.Document
import RecordRules.Proofs.Store.Interchange
import RecordRules.Proofs.Store.Written
import RecordRules.Proofs.Validation.Acceptance

namespace RecordRules

/-! ## Reading -/

theorem TableStore.isNormal_of_get {t : TableStore} {module : ModuleId} {id : RecordId} {r : Record}
    (h : RecordStore.get t module id = .ok (some r)) : r.data.IsNormal := by
  obtain ⟨row, _, hread⟩ := row?_of_get h
  exact Json.isNormal_of_parse? (Row.toRecord_ok hread).2.2.1

namespace Record

variable {r : Record} {fields : List Field} {name subfield : String}

theorem isNormal_of_read? (h : r.data.IsNormal) {v : Json} (hv : r.read? name = some v) :
    v.IsNormal := by
  unfold read? at hv
  split at hv
  · next w hw =>
    cases hv
    exact Json.IsNormal.get? h hw
  · split at hv
    · cases hv
      rfl
    · cases hv

theorem isNormal_of_readFrom? (h : r.data.IsNormal) {element : Option Json}
    (helement : ∀ e, element = some e → e.IsNormal) {source : Source} {v : Json}
    (hv : r.readFrom? element source = some v) : v.IsNormal := by
  cases source with
  | field name => exact isNormal_of_read? h hv
  | item subfield =>
    obtain ⟨e, he, hv⟩ := Option.bind_eq_some_iff.mp hv
    exact (helement e he).get? hv

theorem isNormal_of_mem_items (h : r.data.IsNormal) {items : List Item}
    (hitems : r.items subfield fields = .ok (name, items)) {item : Item} (hitem : item ∈ items) :
    item.element.IsNormal := by
  obtain ⟨f, elements, _, _, helements, rfl⟩ := items_ok_iff.mp hitems
  obtain ⟨i, hi⟩ := List.mem_iff_getElem?.mp hitem
  obtain ⟨_, helement, _⟩ := of_getElem?_itemsOf (r := r) hi
  cases helements with
  | absent | null => cases helement
  | array harray =>
    exact Json.isNormal_array_iff.mp (h.get? harray) _ (List.mem_of_getElem? helement)

end Record

/-! ## What a rule writes -/

/-- The values that stand in a rule are in normal form. -/
structure Rule.IsNormal (r : Rule) : Prop where
  value : ∀ v ∈ r.value, v.IsNormal
  delta : ∀ v ∈ r.delta, v.IsNormal

theorem Rule.IsNormal.literal {r : Rule} (h : r.IsNormal) {v : Json} (hv : r.literal = some v) :
    v.IsNormal := by
  have hor (hv : r.delta.or r.value = some v) : v.IsNormal := by
    rcases Option.or_eq_some_iff.mp hv with hv | ⟨_, hv⟩
    · exact h.delta v hv
    · exact h.value v hv
  unfold Rule.literal at hv
  split at hv
  · exact h.delta v hv
  · rcases Option.or_eq_some_iff.mp hv with hv | ⟨_, hv⟩
    · exact hor hv
    · cases hv
      exact Json.isNormal_ofInt 1
  · rcases Option.or_eq_some_iff.mp hv with hv | ⟨_, hv⟩
    · exact hor hv
    · cases hv
      exact Json.isNormal_ofInt 1
  · exact hor hv

/-- The values in a rule and the data of the record that it is applied to are in normal form. -/
structure Scope.IsNormal (c : Scope) : Prop where
  rule : c.rule.IsNormal
  record : c.trigger.record.data.IsNormal

namespace Scope.IsNormal

variable {c : Scope} {source : Option Source}

theorem operand (h : c.IsNormal) {element : Option Json}
    (helement : ∀ e, element = some e → e.IsNormal) {v : Json}
    (hv : c.rule.operand c.trigger.record source element = some v) : v.IsNormal := by
  cases source with
  | none => exact h.rule.literal hv
  | some source => exact Record.isNormal_of_readFrom? h.record helement hv

theorem applications (h : c.IsNormal) {applications : List Application}
    (happlied : c.applications = .ok (source, applications)) {a : Application}
    (ha : a ∈ applications) :
    (∀ v, a.operand = some v → v.IsNormal) ∧
      ∀ item, a.item = some item → item.element.IsNormal := by
  obtain ⟨key, _, _, ⟨_, rfl⟩ | ⟨subfield, name, items, _, hitems, rfl⟩⟩ :=
    applications_cases happlied
  · cases List.mem_singleton.mp ha
    exact ⟨fun v hv => h.operand (by nofun) hv, nofun⟩
  · obtain ⟨item, hitem, rfl⟩ := List.mem_map.mp ha
    have helement := Record.isNormal_of_mem_items h.record hitems hitem
    refine ⟨fun v hv => h.operand ?_ hv, ?_⟩
    · rintro _ ⟨⟩
      exact helement
    · rintro _ ⟨⟩
      exact helement

/-- A snapshot copies values in normal form, and what it keeps of an object is put in order. -/
theorem snapshotValue (h : c.IsNormal) {item : Option Item}
    (hitem : ∀ i, item = some i → i.element.IsNormal) (fields : List String) :
    (snapshotValue c.trigger.record source item fields).IsNormal := by
  have hwhole (r : Record) (hr : r.data.IsNormal) :
      (RecordRules.snapshotValue r none none fields).IsNormal := by
    unfold RecordRules.snapshotValue
    dsimp only
    generalize r.data = data at hr ⊢
    cases data with
    | object members =>
      dsimp only
      split
      · exact hr
      · refine Json.isNormal_object_iff.mpr ⟨Json.ordered_sortMembers _, fun m hm => ?_⟩
        obtain ⟨name, _, hname⟩ := List.mem_filterMap.mp (Json.mem_of_mem_sortMembers hm)
        obtain ⟨v, hv, rfl⟩ := Option.map_eq_some_iff.mp hname
        exact hr.lookup hv
    | _ => exact hr
  -- Whatever is captured is narrowed like all data of a record.
  let captured (data : Json) : Record := { c.trigger.record with data }
  cases item with
  | some item => exact hwhole (captured item.element) (hitem item rfl)
  | none =>
    cases source with
    | none => exact hwhole c.trigger.record h.record
    | some source =>
      refine hwhole (captured ((c.trigger.record.readFrom? none source).getD .null)) ?_
      cases hread : c.trigger.record.readFrom? none source with
      | none => exact rfl
      | some v => exact Record.isNormal_of_readFrom? h.record (by nofun) hread

theorem operandOf (h : c.IsNormal) {applications : List Application}
    (happlied : c.applications = .ok (source, applications)) {a : Application}
    (ha : a ∈ applications) {v : Json} (hv : c.operandOf source a = some v) : v.IsNormal := by
  obtain ⟨hoperand, hitem⟩ := h.applications happlied ha
  unfold Scope.operandOf at hv
  split at hv
  · cases hv
    exact h.snapshotValue hitem _
  · exact hoperand v (Option.eq_some_of_filter_eq_some hv)

theorem mutates (h : c.IsNormal) {m : Mutation} (hm : c.Mutates m) : m.IsNormal := by
  cases hm with
  | operand happlied ha hoperand hmutation =>
    have hv := h.operandOf happlied ha hoperand
    unfold mutationFor at hmutation
    split at hmutation
    · obtain ⟨_, _, rfl⟩ := map_ok hmutation
      trivial
    · obtain ⟨_, _, rfl⟩ := map_ok hmutation
      trivial
    · obtain ⟨_, _, rfl⟩ := map_ok hmutation
      trivial
    · obtain ⟨_, _, hmutation⟩ := bind_ok hmutation
      split at hmutation
      · cases hmutation
      · cases hmutation
        trivial
    · cases hmutation
      exact hv
  | total => trivial

end Scope.IsNormal

/-! ## Runs over rows -/

/-- The records that were last written to the store are in normal form. -/
def TableStore.IsNormal (t : TableStore) : Prop := ∃ m, t.Written m ∧ m.WellKept

namespace TableStore.IsNormal

variable {t t' : TableStore} {module : ModuleId} {id : RecordId} {r : Record}

theorem empty : TableStore.empty.IsNormal := ⟨.empty, .empty, MemoryStore.wellKept_empty⟩

theorem insert (h : t.IsNormal) (hr : r.data.IsNormal) (hinsert : RecordStore.insert t r = .ok t') :
    t'.IsNormal := by
  obtain ⟨m, hm, hkept⟩ := h
  obtain ⟨hnone, _⟩ := insert_ok hinsert
  rw [hm.mirrors.1.row?, Option.map_eq_none_iff] at hnone
  exact ⟨_, .insert hm hinsert, hkept.insert hnone hr⟩

theorem replaceData (h : t.IsNormal) {data : Json} (hdata : data.IsNormal) {now : Int}
    (hreplace : RecordStore.replaceData t module id data now = .ok (r, t')) :
    t'.IsNormal ∧ r.data.IsNormal := by
  obtain ⟨m, hm, hkept⟩ := h
  obtain ⟨old, _, rfl, _⟩ := replaceData_ok hreplace
  exact ⟨⟨_, .replaceData hm hreplace, hkept.replace hdata⟩, hdata⟩

theorem mutateField (h : t.IsNormal) {field : String} {change : Mutation} (hm : change.IsNormal)
    {now : Int} {w : FieldWrite}
    (hmutate : RecordStore.mutateField t module id field change now = .ok (w, t'))
    (hchanged : w.changed = true) : t'.IsNormal ∧ w.record.data.IsNormal := by
  obtain ⟨m, hwritten, hkept⟩ := h
  obtain ⟨old, hold, hw, _⟩ := mutateField_ok hmutate
  have hnew := Record.isNormal_mutate (isNormal_of_get hold) hm hw
  exact ⟨⟨_, .mutateField hwritten hmutate hchanged, hkept.replace hnew⟩, hnew⟩

theorem delete (h : t.IsNormal)
    (hdelete : RecordStore.delete t module id = .ok (some r, t')) :
    t'.IsNormal ∧ r.data.IsNormal := by
  obtain ⟨m, hm, hkept⟩ := h
  exact ⟨⟨_, .delete hm hdelete, hkept.filter _⟩, isNormal_of_get (delete_ok hdelete).1⟩

theorem purge (h : t.IsNormal) (module : ModuleId) : (RecordStore.purge t module).2.IsNormal := by
  obtain ⟨m, hm, hkept⟩ := h
  exact ⟨_, .purge module hm, hkept.filter _⟩

end TableStore.IsNormal

/-- The records in the store are in normal form, and so are those of the events that wait. -/
structure Run.IsNormal (run : Run TableStore) : Prop where
  store : run.store.IsNormal
  queue : ∀ t ∈ run.queue, t.record.data.IsNormal

namespace Run.IsNormal

variable {run : Run TableStore}

theorem schedule {s : Setting} {t : Trigger} (h : run.IsNormal) (ht : t.record.data.IsNormal) :
    (run.schedule s t).IsNormal := by
  refine ⟨schedule_store s run t ▸ h.store, ?_⟩
  rcases run.schedule_cases s t with ⟨_, heq⟩ | ⟨_, _, heq⟩ | ⟨_, _, _, heq⟩ | ⟨_, _, _, heq⟩
  · rw [heq]
    intro u hu
    rcases mem_absorb hu with ⟨hu, _⟩ | ⟨_, hrecord, _⟩
    · exact h.queue u hu
    · rw [hrecord]
      exact ht
  · rw [heq]
    exact h.queue
  · rw [heq]
    exact h.queue
  · rw [heq]
    exact List.forall_mem_append.mpr ⟨h.queue, List.forall_mem_singleton.mpr ht⟩

/-- A rule keeps what it finds in normal form. -/
theorem keeps (s : Setting) {c : Scope} (hc : c.IsNormal) : c.Keeps s Run.IsNormal where
  emit _ _ _ _ _ h := ⟨h.store, h.queue⟩
  write {run} item id field m hm h := by
    suffices hrun : (writeField s c run id field.name m).2.IsNormal from ⟨hrun.store, hrun.queue⟩
    generalize hwrite : writeField s c run id field.name m = answer
    cases writeField_written hwrite with
    | refused => exact ⟨h.store, h.queue⟩
    | changed hmutate hchanged =>
      obtain ⟨hstore, hrecord⟩ := h.store.mutateField (hc.mutates hm.mutates) hmutate hchanged
      exact schedule ⟨hstore, h.queue⟩ hrecord
    | unchanged hmutate hunchanged =>
      rw [LawfulRecordStore.eq_of_unchanged hmutate hunchanged]
      exact ⟨h.store, h.queue⟩
  delete {run} item id _ h := by
    suffices hrun : (deleteRecord s c run id).2.IsNormal from ⟨hrun.store, hrun.queue⟩
    generalize hdelete : deleteRecord s c run id = answer
    cases deleteRecord_deleted hdelete with
    | refused => exact h
    | missing hnone =>
      rw [LawfulRecordStore.eq_of_delete_none hnone]
      exact h
    | deleted hsome =>
      obtain ⟨hstore, hrecord⟩ := h.store.delete hsome
      exact schedule ⟨hstore, h.queue⟩ hrecord

end Run.IsNormal

/-! ## Whole runs -/

/-- The values in the rules of a registry and the defaults of its subfields are in normal form. -/
structure Registry.IsNormal (registry : Registry) : Prop where
  rules : ∀ module, ∀ r ∈ registry.relationshipsFrom module, ∀ event, ∀ rule ∈ r.rules.get event,
    rule.IsNormal
  defaults : ∀ module, Field.DefaultsNormal (registry.listFields module)

theorem Run.IsNormal.next {s : Setting} (hs : s.registry.IsNormal) {rootMode : Mode} {t : Trigger}
    {rest : List Trigger} {run : Run TableStore} (h : run.IsNormal)
    (hqueue : run.queue = t :: rest) : (next s rootMode t rest run).IsNormal := by
  have hwaits := h.queue
  rw [hqueue] at hwaits
  obtain ⟨ht, hrest⟩ := List.forall_mem_cons.mp hwaits
  refine runTrigger_keeps s (fun _ _ _ _ _ _ h => ⟨h.store, h.queue⟩) (fun c place run h => ?_)
    ⟨h.store, hrest⟩
  have hc : c.IsNormal :=
    ⟨hs.rules _ _ (List.mem_of_getElem? place.relationship) _ _ (List.mem_of_getElem? place.rule),
      place.trigger ▸ ht⟩
  have hlook : (run.lookAtClock s).IsNormal := by
    rcases run.lookAtClock_cases s with ⟨looks, heq⟩ | ⟨looks, _, heq⟩
    · rw [heq]
      exact ⟨h.store, h.queue⟩
    · rw [heq]
      exact ⟨h.store, h.queue⟩
  generalize hrun : runRule s c run = run'
  cases runRule_runs hrun with
  | late | gone => exact ⟨hlook.store, hlook.queue⟩
  | applied => exact (Run.IsNormal.keeps s hc).applyRule hlook

/-- An event of a record in normal form leaves data in normal form. -/
theorem isNormal_evaluate {registry : Registry} (hregistry : registry.IsNormal) (config : Config)
    (clock : Clock) {store : TableStore} (hstore : store.IsNormal) (module : ModuleId)
    (event : Event) {record : Record} (hrecord : record.data.IsNormal)
    (prechecked : Option (List Outcome)) :
    (evaluate registry config clock store module event record prechecked).2.IsNormal := by
  have hstart : (Run.root store module event record (prechecked.getD [])).IsNormal := by
    refine ⟨hstore, fun t ht => ?_⟩
    cases List.mem_singleton.mp ht
    exact hrecord
  exact (drain_keeps (.ofRoot registry config clock)
    (fun _ _ _ hqueue h => Run.IsNormal.next hregistry h hqueue) _ hstart).store

end RecordRules
