/-
Data that are submitted again.

The data of a record that was just put in are checked again when they are submitted for an update.
Defaults that the first check has filled in are then looked at for the first time, and the update is
refused exactly if one of them does not fit its subfield.
-/
import RecordRules.Proofs.Registry.Names
import RecordRules.Proofs.Service.Answers

namespace RecordRules

/-- The record that a request is to put in. -/
def Request.fresh? : Request → Option Record
  | create t module data fresh => some ⟨fresh, module, data, t.now, t.now⟩
  | insert _ record => some record
  | update .. | delete .. | deleteModule _ => none

namespace Service

section

variable {σ : Type} {s after : Service σ}

/-- The data are checked against the fields of their module. -/
def checked (s : Service σ) (module : ModuleId) (data : Json) : Json × List Violation :=
  checkRecord s.registry.kindOf (s.registry.listFields module) data

theorem accepted?_eq_some_iff {module : ModuleId} {data filled : Json} :
    s.accepted? module data = some filled ↔
      (∃ m, s.registry.getModule module = .ok m) ∧ s.checked module data = (filled, []) := by
  unfold accepted? checked
  constructor
  · intro h
    split at h
    · next m _ hmodule hcheck =>
      cases h
      exact ⟨⟨m, hmodule⟩, hcheck⟩
    · cases h
  · rintro ⟨⟨m, hmodule⟩, hcheck⟩
    rw [hmodule, hcheck]

theorem validated_invalid {module : ModuleId} {m : Module} {data : Json}
    (hmodule : s.registry.getModule module = .ok m) (hviolations : (s.checked module data).2 ≠ []) :
    (validated module data).run s = .error (.invalid (s.checked module data).2) s := by
  unfold validated
  rw [EStateM.run_bind, EStateM.run_get]
  dsimp only
  rw [hmodule]
  unfold checked at hviolations ⊢
  dsimp only
  split
  · next hcheck =>
    rw [hcheck] at hviolations
    contradiction
  · next hcheck =>
    rw [hcheck]
    rfl

variable [RecordStore σ]

theorem getRecord_not_invalid {module : ModuleId} {id : RecordId} (vs : List Violation) :
    (getRecord module id).run s ≠ .error (.invalid vs) after := by
  unfold getRecord
  rw [EStateM.run_bind, EStateM.run_get]
  dsimp only
  cases RecordStore.get s.store module id with
  | error e => exact fun h => nomatch h
  | ok found =>
    cases found with
    | none => exact fun h => nomatch h
    | some r => exact fun h => nomatch h

variable [LawfulRecordStore σ] {change : Change}

/-- A record that was put in has the data that the check has left. -/
theorem Answers.fresh {request : Request} {record : Record}
    (h : s.Answers request change after) (hfresh : request.fresh? = some record) :
    s.accepted? record.module record.data = some change.record.data ∧
      change.record.module = record.module ∧ change.record.id = record.id ∧
      after.registry = s.registry := by
  have hinsert {t : Timing} {record : Record}
      (h : (insertRecord t record).run s = .ok change after) :
      s.accepted? record.module record.data = some change.record.data ∧
        change.record.module = record.module ∧ change.record.id = record.id ∧
        after.registry = s.registry := by
    obtain ⟨data, store, hdata, _, _, h⟩ := insertRecord_ok h
    cases h
    exact ⟨hdata, rfl, rfl, rfl⟩
  cases h with
  | create h =>
    cases hfresh
    exact hinsert h
  | insert h =>
    cases hfresh
    exact hinsert h
  | update | delete => cases hfresh

/-- What comes after the check of the data of an update does not complain of them. -/
theorem update_not_invalid {t : Timing} {module : ModuleId} {id : RecordId} {data : Json}
    {candidate : Record} (vs : List Violation) :
    (do
      let prechecked ← passed t.checking module .update candidate
      let (new, store) ← stored (RecordStore.replaceData (← get).store module id data t.now)
      keep store
      propagate t.propagating module .update new prechecked : Call σ Change).run s ≠
        .error (.invalid vs) after := by
  rw [EStateM.run_bind, passed_run s ⟨t.checking, module, .update, candidate⟩]
  by_cases hnone : s.rejections ⟨t.checking, module, .update, candidate⟩ = []
  · rw [if_pos hnone]
    dsimp only
    rw [EStateM.run_bind, EStateM.run_get]
    dsimp only
    cases RecordStore.replaceData s.store module id data t.now with
    | error e => exact fun h => nomatch h
    | ok answer => exact fun h => nomatch h
  · rw [if_neg hnone]
    exact fun h => nomatch h

/-- An update of a record that is there complains of the data exactly if the check does. -/
theorem updateRecord_invalid_iff {t : Timing} {module : ModuleId} {m : Module} {id : RecordId}
    {data : Json} (hmodule : s.registry.getModule module = .ok m) (vs : List Violation) :
    (∃ after, (updateRecord t module id data).run s = .error (.invalid vs) after) ↔
      (s.record? module id).isSome = true ∧ vs = (s.checked module data).2 ∧ vs ≠ [] := by
  unfold updateRecord
  cases hrecord : s.record? module id with
  | none =>
    obtain ⟨e, hrun, _⟩ := getRecord_error hrecord
    rw [EStateM.run_bind, hrun]
    refine iff_of_false ?_ fun h => nomatch h.1
    rintro ⟨after, h⟩
    cases h
    exact getRecord_not_invalid vs hrun
  | some before =>
    rw [EStateM.run_bind, getRecord_ok hrecord]
    dsimp only
    by_cases hviolations : (s.checked module data).2 = []
    · have hfilled : s.accepted? module data = some (s.checked module data).1 :=
        accepted?_eq_some_iff.mpr ⟨⟨m, hmodule⟩, Prod.ext rfl hviolations⟩
      rw [EStateM.run_bind, validated_ok hfilled]
      dsimp only
      refine iff_of_false ?_ fun h => h.2.2 (h.2.1.trans hviolations)
      rintro ⟨after, h⟩
      by_cases hsame : (before.data == (s.checked module data).1) = true
      · rw [if_pos hsame] at h
        cases h
      · rw [if_neg hsame] at h
        exact update_not_invalid vs h
    · rw [EStateM.run_bind, validated_invalid hmodule hviolations]
      constructor
      · rintro ⟨after, h⟩
        cases h
        exact ⟨rfl, rfl, hviolations⟩
      · rintro ⟨_, rfl, _⟩
        exact ⟨s, rfl⟩

end

end Service

/-- Data that were accepted stay as they are when they are checked again with their defaults filled
in, and the only violations are of filled-in defaults that do not fit their own subfields.  So when
the data of a record that was just put in are submitted for an update, they are refused exactly if
there is such a default, and if the record is still there to be updated. -/
theorem accepted_data_fail_by_defaults {σ : Type} [RecordStore σ] [LawfulRecordStore σ] :
    (∀ (kindOf : KindOf) (fields : List Field) (data : Json), Field.NamesApart fields →
      (checkRecord kindOf fields data).2 = [] →
        let filled := (checkRecord kindOf fields data).1
        (checkRecord kindOf fields filled).1 = filled ∧
          ∀ v, v ∈ (checkRecord kindOf fields filled).2 ↔ v.OfDefault kindOf fields data) ∧
    ∀ (s after : Service σ) (request : Request) (record : Record) (change : Change),
      s.registry.Grown (fun start => start.fields.NamesApart) (fun _ => True) →
      s.Answers request change after → request.fresh? = some record →
        ∃ vs, (∀ v, v ∈ vs ↔ v.OfDefault s.registry.kindOf (s.registry.listFields record.module)
            record.data) ∧
          ∀ t vs', (∃ last, (Service.updateRecord t record.module record.id
              change.record.data).run after = .error (.invalid vs') last) ↔
            (after.record? record.module record.id).isSome = true ∧ vs' = vs ∧ vs ≠ [] := by
  have hagain (kindOf : KindOf) (fields : List Field) (data : Json)
      (hnames : Field.NamesApart fields) (hfirst : (checkRecord kindOf fields data).2 = []) :
      let filled := (checkRecord kindOf fields data).1
      (checkRecord kindOf fields filled).1 = filled ∧
        ∀ v, v ∈ (checkRecord kindOf fields filled).2 ↔ v.OfDefault kindOf fields data := by
    obtain ⟨hsame, hviolations⟩ := checkRecord_again kindOf hnames data
    refine ⟨hsame, fun v => (hviolations v).trans (or_iff_right ?_)⟩
    rw [hfirst]
    exact List.not_mem_nil
  refine ⟨hagain, fun s after request record change hgrown hanswer hfresh => ?_⟩
  obtain ⟨haccepted, -, -, hregistry⟩ := hanswer.fresh hfresh
  obtain ⟨⟨m, hmodule⟩, hchecked⟩ := Service.accepted?_eq_some_iff.mp haccepted
  have hsecond := (hagain s.registry.kindOf (s.registry.listFields record.module) record.data
    (hgrown.namesApart record.module) (congrArg Prod.snd hchecked)).2
  have hafter : s.checked record.module change.record.data =
      after.checked record.module change.record.data := by
    unfold Service.checked
    rw [hregistry]
  refine ⟨(s.checked record.module change.record.data).2, fun v => ?_, fun t vs' => ?_⟩
  · rw [← hsecond v]
    have hfilled := congrArg Prod.fst hchecked
    unfold Service.checked at hfilled ⊢
    rw [hfilled]
  · rw [Service.updateRecord_invalid_iff (hregistry ▸ hmodule), hafter]
    refine and_congr_right fun _ => ?_
    constructor
    · rintro ⟨rfl, hne⟩
      exact ⟨rfl, hne⟩
    · rintro ⟨rfl, hne⟩
      exact ⟨rfl, hne⟩

namespace Sample

def number : DataTypeId := ⟨"number", by decide +kernel⟩

def table : DataTypeId := ⟨"table", by decide +kernel⟩

/-- A number that is by default none. -/
def quantity : Subfield := { Subfield.ofName "qty" number with default := some (.string "unknown") }

def items : Field :=
  { id := ⟨"items", by decide +kernel⟩, name := "items", module := orders, dataType := table
    isLabel := false, createdAt := 4, updatedAt := 4
    subfields := some [quantity] }

def itemsDraft : FieldDraft :=
  { FieldDraft.ofName orders items.name table with subfields := items.subfields }

def itemized : Registry :=
  { catalog := ⟨[⟨number, "Number", .number, none, true, 1, 1⟩,
      ⟨table, "Table", .array, none, true, 2, 2⟩]⟩
    graph :=
      { slots := [some ⟨⟨orders, "Orders", [], 3, 3⟩, []⟩]
        index := [(orders, 0)]
        relationshipCount := 0 }
    fields := { byModule := [(orders, [items])], owners := [(items.id, orders)] }
    generation := 4 }

theorem itemized_grown :
    itemized.Grown (fun start => start.fields.NamesApart) (fun _ => True) := by
  have hstart : Registry.Grown (fun start => start.fields.NamesApart) (fun _ => True) .empty :=
    .start fun _ => .nil
  have hnumber := hstart.edit (.createDataType "Number" "number" number 1) trivial rfl
  have htable := hnumber.edit (.createDataType "Table" "array" table 2) trivial rfl
  have horders := htable.edit (.createModule orders "Orders" 3) trivial rfl
  exact horders.edit (.createField itemsDraft items.id 4) trivial rfl

/-- An order of one item, before and after it was put in. -/
def itemless : Record := { order with data := .object [("items", .array [.object []])] }

def itemful : Record :=
  { order with data := .object [("items", .array [.object [("qty", .string "unknown")]])] }

def ordering (store : MemoryStore) : Service MemoryStore := ⟨itemized, .standard, store⟩

end Sample

/-- An order whose item gets the default is put in, and its data are then refused. -/
theorem accepted_data_fail_by_defaults_on_sample :
    Sample.itemized.Grown (fun start => start.fields.NamesApart) (fun _ => True) ∧
      (Service.insertRecord (.steady 5 0) Sample.itemless).run (Sample.ordering ⟨[]⟩) =
        .ok ⟨Sample.itemful, .empty⟩ (Sample.ordering ⟨[Sample.itemful]⟩) ∧
      ∃ vs last, (Service.updateRecord (.steady 6 0) Sample.orders Sample.one
        Sample.itemful.data).run (Sample.ordering ⟨[Sample.itemful]⟩) =
          .error (.invalid vs) last := by
  have hinsert : (Service.insertRecord (.steady 5 0) Sample.itemless).run (Sample.ordering ⟨[]⟩) =
      .ok ⟨Sample.itemful, .empty⟩ (Sample.ordering ⟨[Sample.itemful]⟩) := by rfl
  obtain ⟨vs, hvs, hupdate⟩ := (accepted_data_fail_by_defaults (σ := MemoryStore)).2
    (Sample.ordering ⟨[]⟩) (Sample.ordering ⟨[Sample.itemful]⟩) _ Sample.itemless _
    Sample.itemized_grown (.insert hinsert) rfl
  have hmismatch : Complaint.badValue (.typeMismatch "number" "string") ∈
      Sample.quantity.faults Sample.itemized.kindOf (.string "unknown") := by
    decide +kernel
  have hviolation : ⟨.subfield "items" 0 "qty", .badValue (.typeMismatch "number" "string")⟩ ∈ vs :=
    (hvs _).mpr ⟨Sample.items, List.mem_singleton_self _, 0, Sample.quantity, .string "unknown",
      ⟨[Sample.quantity], [.object []], .object [], rfl, rfl, List.mem_singleton_self _,
        rfl, rfl, rfl⟩, _, hmismatch, rfl⟩
  exact ⟨Sample.itemized_grown, hinsert, vs,
    (hupdate (.steady 6 0) vs).mpr ⟨rfl, rfl, List.ne_nil_of_mem hviolation⟩⟩

end RecordRules
