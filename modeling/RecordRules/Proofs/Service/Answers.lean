/-
Calls that go through.

A call that creates, inserts, updates or deletes a record answers with the record and a report.
Unless it was an update to data that are the same, its checks have passed, its write is done, and
the report is of what the event of the written record propagates to, with the outcomes of the checks
at its head.
-/
import RecordRules.Proofs.Service.Rejection

namespace RecordRules
namespace Service

variable {σ α β : Type}

section

variable [RecordStore σ]

/-- A call goes through, with what it answers and the service after it. -/
inductive Answers (s : Service σ) : Request → Change → Service σ → Prop where
  | create {t : Timing} {module : ModuleId} {data : Json} {fresh : RecordId} {change : Change}
      {after : Service σ} (h : (createRecord t module data fresh).run s = .ok change after) :
      Answers s (.create t module data fresh) change after
  | insert {t : Timing} {record : Record} {change : Change} {after : Service σ}
      (h : (insertRecord t record).run s = .ok change after) :
      Answers s (.insert t record) change after
  | update {t : Timing} {module : ModuleId} {id : RecordId} {data : Json} {change : Change}
      {after : Service σ} (h : (updateRecord t module id data).run s = .ok change after) :
      Answers s (.update t module id data) change after
  | delete {t : Timing} {module : ModuleId} {id : RecordId} {change : Change} {after : Service σ}
      (h : (deleteRecord t module id).run s = .ok change after) :
      Answers s (.delete t module id) change after

/-- The outcomes of the checks of a candidate. -/
def checks (s : Service σ) (c : Candidate) : List Outcome :=
  (precheck s.registry s.config c.clock s.store c.module c.event c.record).1

/-- The write that a candidate stands for is done, and its event has propagated in a store. -/
structure CarriesOut (s : Service σ) (c : Candidate) (clock : Clock) (store : σ) (change : Change)
    (after : Service σ) : Prop where
  passed : s.rejections c = []
  id : change.record.id = c.record.id
  module : change.record.module = c.record.module
  data : change.record.data = c.record.data
  report : change.report = (evaluate s.registry s.config clock store c.module c.event change.record
    (some (s.checks c))).1
  after : after = { s with store := (evaluate s.registry s.config clock store c.module c.event
    change.record (some (s.checks c))).2 }

end

/-! ## The parts of a call -/

variable {s after : Service σ} {change : Change}

theorem stored_bind_ok {answer : Except StoreError α} {f : α → Call σ β} {b : β}
    (h : (stored answer >>= f).run s = .ok b after) :
    ∃ a, answer = .ok a ∧ (f a).run s = .ok b after := by
  cases answer with
  | error e => cases h
  | ok a => exact ⟨a, rfl, h⟩

theorem validated_bind_ok {module : ModuleId} {data : Json} {f : Json → Call σ β} {b : β}
    (h : (validated module data >>= f).run s = .ok b after) :
    ∃ filled, s.accepted? module data = some filled ∧ (f filled).run s = .ok b after := by
  rw [EStateM.run_bind] at h
  cases hdata : s.accepted? module data with
  | none =>
    obtain ⟨e, hrun, _⟩ := validated_error hdata
    rw [hrun] at h
    cases h
  | some filled =>
    rw [validated_ok hdata] at h
    exact ⟨filled, rfl, h⟩

variable [RecordStore σ]

theorem getRecord_bind_ok {module : ModuleId} {id : RecordId} {f : Record → Call σ β} {b : β}
    (h : (getRecord module id >>= f).run s = .ok b after) :
    ∃ r, s.record? module id = some r ∧ (f r).run s = .ok b after := by
  rw [EStateM.run_bind] at h
  cases hrecord : s.record? module id with
  | none =>
    obtain ⟨e, hrun, _⟩ := getRecord_error hrecord
    rw [hrun] at h
    cases h
  | some r =>
    rw [getRecord_ok hrecord] at h
    exact ⟨r, rfl, h⟩

/-- What a call answers once a candidate is written, and the service after it: the event of the
record propagates, with the outcomes of the checks at the head of the report. -/
def propagated (s : Service σ) (c : Candidate) (clock : Clock) (record : Record) (store : σ) :
    Change × Service σ :=
  let (report, store) :=
    evaluate s.registry s.config clock store c.module c.event record (some (s.checks c))
  (⟨record, report⟩, { s with store })

theorem CarriesOut.of_propagated {c : Candidate} {clock : Clock} {record : Record} {store : σ}
    (hpassed : s.rejections c = []) (h : (change, after) = s.propagated c clock record store)
    (hid : record.id = c.record.id) (hmodule : record.module = c.record.module)
    (hdata : record.data = c.record.data) : s.CarriesOut c clock store change after := by
  cases h
  exact ⟨hpassed, hid, hmodule, hdata, rfl, rfl⟩

variable [LawfulRecordStore σ]

theorem passed_bind_ok (c : Candidate) {f : List Outcome → Call σ β} {b : β}
    (h : (passed c.clock c.module c.event c.record >>= f).run s = .ok b after) :
    s.rejections c = [] ∧ (f (s.checks c)).run s = .ok b after := by
  rw [EStateM.run_bind, passed_run] at h
  by_cases hnone : s.rejections c = []
  · rw [if_pos hnone] at h
    exact ⟨hnone, h⟩
  · rw [if_neg hnone] at h
    cases h

/-! ## The calls -/

theorem insertRecord_ok {t : Timing} {record : Record}
    (h : (insertRecord t record).run s = .ok change after) :
    ∃ data store, s.accepted? record.module record.data = some data ∧
      let c : Candidate := ⟨t.checking, record.module, .create, { record with data }⟩
      s.rejections c = [] ∧ RecordStore.insert s.store c.record = .ok store ∧
        (change, after) = s.propagated c t.propagating c.record store := by
  unfold insertRecord at h
  dsimp only at h
  obtain ⟨data, hdata, h⟩ := validated_bind_ok h
  obtain ⟨hpassed, h⟩ :=
    passed_bind_ok ⟨t.checking, record.module, .create, { record with data }⟩ h
  obtain ⟨store, hinsert, h⟩ := stored_bind_ok h
  cases h
  exact ⟨data, store, hdata, hpassed, hinsert, rfl⟩

/-- An update to data that are the same does nothing. -/
theorem updateRecord_ok {t : Timing} {module : ModuleId} {id : RecordId} {data : Json}
    (h : (updateRecord t module id data).run s = .ok change after) :
    ∃ before filled, s.record? module id = some before ∧
      s.accepted? module data = some filled ∧
      ((before.data == filled) = true ∧ change.report = .empty ∧ after = s ∨
        (before.data == filled) = false ∧ ∃ new store,
          let c : Candidate := ⟨t.checking, module, .update, { before with data := filled }⟩
          s.rejections c = [] ∧
            RecordStore.replaceData s.store module id filled t.now = .ok (new, store) ∧
            (change, after) = s.propagated c t.propagating new store) := by
  unfold updateRecord at h
  obtain ⟨before, hbefore, h⟩ := getRecord_bind_ok h
  obtain ⟨filled, hfilled, h⟩ := validated_bind_ok h
  refine ⟨before, filled, hbefore, hfilled, ?_⟩
  cases hsame : before.data == filled with
  | true =>
    rw [if_pos hsame] at h
    cases h
    exact Or.inl ⟨rfl, rfl, rfl⟩
  | false =>
    rw [if_neg (Bool.eq_false_iff.mp hsame)] at h
    obtain ⟨hpassed, h⟩ :=
      passed_bind_ok ⟨t.checking, module, .update, { before with data := filled }⟩ h
    obtain ⟨⟨new, store⟩, hreplace, h⟩ := stored_bind_ok h
    cases h
    exact Or.inr ⟨rfl, new, store, hpassed, hreplace, rfl⟩

theorem deleteRecord_ok {t : Timing} {module : ModuleId} {id : RecordId}
    (h : (deleteRecord t module id).run s = .ok change after) :
    ∃ record store, s.record? module id = some record ∧
      let c : Candidate := ⟨t.checking, module, .delete, record⟩
      s.rejections c = [] ∧ RecordStore.delete s.store module id = .ok (some record, store) ∧
        (change, after) = s.propagated c t.propagating record store := by
  unfold deleteRecord at h
  obtain ⟨record, hrecord, h⟩ := getRecord_bind_ok h
  obtain ⟨hpassed, h⟩ := passed_bind_ok ⟨t.checking, module, .delete, record⟩ h
  obtain ⟨⟨deleted, store⟩, hdelete, h⟩ := stored_bind_ok h
  have hfound := LawfulRecordStore.get_of_delete hdelete
  rw [get_of_record? hrecord] at hfound
  cases hfound
  cases h
  exact ⟨record, store, hrecord, hpassed, hdelete, rfl⟩

/-! ## Carrying out a candidate -/

theorem insertRecord_carriesOut {t : Timing} {record : Record}
    (h : (insertRecord t record).run s = .ok change after) :
    ∃ c store, (Request.insert t record).candidate? s = some c ∧
      s.CarriesOut c t.propagating store change after := by
  obtain ⟨data, store, hdata, hpassed, _, h⟩ := insertRecord_ok h
  refine ⟨_, store, ?_, .of_propagated hpassed h rfl rfl rfl⟩
  unfold Request.candidate?
  dsimp only
  rw [hdata]
  rfl

theorem updateRecord_carriesOut [LawfulReplacement σ] {t : Timing} {module : ModuleId}
    {id : RecordId} {data : Json} (h : (updateRecord t module id data).run s = .ok change after) :
    ((Request.update t module id data).candidate? s = none ∧ change.report = .empty ∧ after = s) ∨
      ∃ c store, (Request.update t module id data).candidate? s = some c ∧
        s.CarriesOut c t.propagating store change after := by
  obtain ⟨before, filled, hbefore, hfilled, h⟩ := updateRecord_ok h
  unfold Request.candidate?
  dsimp only
  rw [hbefore, hfilled]
  rcases h with ⟨hsame, h⟩ | ⟨hsame, new, store, hpassed, hreplace, h⟩
  · exact Or.inl ⟨if_pos hsame, h⟩
  · obtain ⟨old, hold, rfl⟩ := LawfulReplacement.withData_of_replaceData hreplace
    -- The record that was found before the checks is the one whose data are replaced.
    cases (get_of_record? hbefore).symm.trans hold
    exact Or.inr ⟨_, store, if_neg (Bool.eq_false_iff.mp hsame),
      .of_propagated hpassed h rfl rfl rfl⟩

theorem deleteRecord_carriesOut {t : Timing} {module : ModuleId} {id : RecordId}
    (h : (deleteRecord t module id).run s = .ok change after) :
    ∃ c store, (Request.delete t module id).candidate? s = some c ∧
      s.CarriesOut c t.propagating store change after := by
  obtain ⟨record, store, hrecord, hpassed, _, h⟩ := deleteRecord_ok h
  refine ⟨_, store, ?_, .of_propagated hpassed h rfl rfl rfl⟩
  unfold Request.candidate?
  dsimp only
  rw [hrecord]
  rfl

/-- A call that goes through has done nothing, or it has carried out what it asked for. -/
theorem Answers.cases [LawfulReplacement σ] {request : Request}
    (h : s.Answers request change after) :
    (request.candidate? s = none ∧ change.report = .empty ∧ after = s) ∨
      ∃ c clock store, request.candidate? s = some c ∧
        s.CarriesOut c clock store change after := by
  cases h with
  | create h =>
    obtain ⟨c, store, hc, hdone⟩ := insertRecord_carriesOut h
    exact Or.inr ⟨c, _, store, hc, hdone⟩
  | insert h =>
    obtain ⟨c, store, hc, hdone⟩ := insertRecord_carriesOut h
    exact Or.inr ⟨c, _, store, hc, hdone⟩
  | update h =>
    refine (updateRecord_carriesOut h).imp_right ?_
    rintro ⟨c, store, hc, hdone⟩
    exact ⟨c, _, store, hc, hdone⟩
  | delete h =>
    obtain ⟨c, store, hc, hdone⟩ := deleteRecord_carriesOut h
    exact Or.inr ⟨c, _, store, hc, hdone⟩

end Service
end RecordRules
