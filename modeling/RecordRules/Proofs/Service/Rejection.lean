/-
Calls that are refused.

A call does nothing before its checks have passed, and the checks change nothing.  After its write
only the event propagates, and what fails there is reported and is no error.  So a call that is
refused leaves the service as it was.
-/
import RecordRules.Proofs.Evaluation.Checks
import RecordRules.Proofs.Evaluation.Termination
import RecordRules.Service

namespace RecordRules

/-! ## Requests -/

inductive Request where
  | create (t : Timing) (module : ModuleId) (data : Json) (fresh : RecordId)
  | insert (t : Timing) (record : Record)
  | update (t : Timing) (module : ModuleId) (id : RecordId) (data : Json)
  | delete (t : Timing) (module : ModuleId) (id : RecordId)
  | deleteModule (module : ModuleId)

/-- What the checks of a call look at: the event and the record as it is going to be. -/
structure Candidate where
  clock : Clock
  module : ModuleId
  event : Event
  record : Record

section

variable {σ : Type}

namespace Service

variable {α : Type} {s : Service σ}

/-! ## Before and after the checks -/

/-- The data with defaults filled in, if they fit the fields of a module that is there. -/
def accepted? (s : Service σ) (module : ModuleId) (data : Json) : Option Json :=
  match s.registry.getModule module,
    checkRecord s.registry.kindOf (s.registry.listFields module) data with
  | .ok _, (data, []) => some data
  | _, _ => none

theorem validated_ok {module : ModuleId} {data data' : Json}
    (h : s.accepted? module data = some data') : (validated module data).run s = .ok data' s := by
  unfold accepted? at h
  split at h
  · next hmodule hcheck =>
    cases h
    unfold validated
    rw [EStateM.run_bind, EStateM.run_get]
    dsimp only
    rw [hmodule, hcheck]
    rfl
  · cases h

theorem validated_error {module : ModuleId} {data : Json} (h : s.accepted? module data = none) :
    ∃ e, (validated module data).run s = .error e s ∧ ∀ os, e ≠ .rejected os := by
  unfold validated
  rw [EStateM.run_bind, EStateM.run_get]
  dsimp only
  split
  · exact ⟨_, rfl, nofun⟩
  · next hmodule =>
    split
    · next hcheck =>
      unfold accepted? at h
      rw [hmodule, hcheck] at h
      cases h
    · exact ⟨_, rfl, nofun⟩

/-- What comes after the checks of a call goes through, or is refused without a trace. -/
def Finishes (s : Service σ) (result : EStateM.Result ServiceError (Service σ) α) : Prop :=
  (∃ a after, result = .ok a after) ∨ ∃ e, result = .error e s ∧ ∀ os, e ≠ .rejected os

theorem Finishes.of_stored {β : Type} {answer : Except StoreError β} {f : β → Call σ α}
    (h : ∀ b, answer = .ok b → Finishes s ((f b).run s)) :
    Finishes s ((stored answer >>= f).run s) := by
  cases hanswer : answer with
  | error e => exact Or.inr ⟨.store e, rfl, nofun⟩
  | ok b => exact h b hanswer

end Service

variable [RecordStore σ]

/-! ## What a call asks for -/

def Request.perform : Request → Call σ Unit
  | create t module data fresh => do let _ ← Service.createRecord t module data fresh; return ()
  | insert t record => do let _ ← Service.insertRecord t record; return ()
  | update t module id data => do let _ ← Service.updateRecord t module id data; return ()
  | delete t module id => do let _ ← Service.deleteRecord t module id; return ()
  | deleteModule module => do let _ ← Service.deleteModule module; return ()

namespace Service

/-- The record of an identifier, if it reads. -/
def record? (s : Service σ) (module : ModuleId) (id : RecordId) : Option Record :=
  (RecordStore.get s.store module id).toOption.join

/-- The outcomes of the checks that do not pass. -/
def rejections (s : Service σ) (c : Candidate) : List Outcome :=
  (precheck s.registry s.config c.clock s.store c.module c.event c.record).1.filter
    Outcome.isRejection

end Service

/-- What the checks of a call look at, if the call gets that far. -/
def Request.candidate? (s : Service σ) : Request → Option Candidate
  | create t module data fresh => do
    let data ← s.accepted? module data
    return ⟨t.checking, module, .create, ⟨fresh, module, data, t.now, t.now⟩⟩
  | insert t record => do
    let data ← s.accepted? record.module record.data
    return ⟨t.checking, record.module, .create, { record with data }⟩
  | update t module id data => do
    let before ← s.record? module id
    let data ← s.accepted? module data
    if before.data == data then none
    else return ⟨t.checking, module, .update, { before with data }⟩
  | delete t module id => do
    return ⟨t.checking, module, .delete, ← s.record? module id⟩
  | deleteModule _ => none

namespace Service

variable {α β : Type} {s : Service σ}

/-! ## How a call ends -/

/-- A call ends as its checks demand: refused, it leaves the service as it was, and it is rejected
exactly if checks that it got to do not pass, with their outcomes. -/
structure Settles (s : Service σ) (candidate? : Option Candidate)
    (result : EStateM.Result ServiceError (Service σ) α) : Prop where
  unchanged : ∀ e after, result = .error e after → after = s
  rejected : ∀ os, (∃ after, result = .error (.rejected os) after) ↔
    ∃ c, candidate? = some c ∧ os = s.rejections c ∧ os ≠ []

theorem Settles.of_refused {e : ServiceError} (h : ∀ os, e ≠ .rejected os) :
    Settles s none (.error e s : EStateM.Result ServiceError (Service σ) α) := by
  refine ⟨?_, ?_⟩
  · intro e' after heq
    cases heq
    rfl
  · intro os
    constructor
    · rintro ⟨after, heq⟩
      cases heq
      exact absurd rfl (h os)
    · rintro ⟨c, hc, _⟩
      cases hc

theorem Settles.of_done (a : α) (after : Service σ) : Settles s none (.ok a after) := by
  refine ⟨?_, ?_⟩
  · intro e after' heq
    cases heq
  · intro os
    constructor
    · rintro ⟨after', heq⟩
      cases heq
    · rintro ⟨c, hc, _⟩
      cases hc

/-! ## The parts of a call -/

theorem get_of_record? {module : ModuleId} {id : RecordId} {r : Record}
    (h : s.record? module id = some r) : RecordStore.get s.store module id = .ok (some r) := by
  unfold record? at h
  cases hget : RecordStore.get s.store module id with
  | error e =>
    rw [hget] at h
    cases h
  | ok found =>
    rw [hget] at h
    exact congrArg Except.ok h

theorem getRecord_ok {module : ModuleId} {id : RecordId} {r : Record}
    (h : s.record? module id = some r) : (getRecord module id).run s = .ok r s := by
  unfold getRecord
  rw [EStateM.run_bind, EStateM.run_get]
  dsimp only
  rw [get_of_record? h]
  rfl

theorem getRecord_error {module : ModuleId} {id : RecordId} (h : s.record? module id = none) :
    ∃ e, (getRecord module id).run s = .error e s ∧ ∀ os, e ≠ .rejected os := by
  unfold record? at h
  unfold getRecord
  rw [EStateM.run_bind, EStateM.run_get]
  dsimp only
  cases hget : RecordStore.get s.store module id with
  | error e => exact ⟨.store e, rfl, nofun⟩
  | ok found =>
    rw [hget] at h
    cases found with
    | none => exact ⟨.recordNotFound id, rfl, nofun⟩
    | some r => cases h

/-- The checks leave the service as it is, and reject the call if one does not pass. -/
theorem passed_run [LawfulRecordStore σ] (s : Service σ) (c : Candidate) :
    (passed c.clock c.module c.event c.record).run s =
      if s.rejections c = [] then
        .ok (precheck s.registry s.config c.clock s.store c.module c.event c.record).1 s
      else .error (.rejected (s.rejections c)) s := by
  have hstore := (precheck_checks s.registry s.config c.clock s.store c.module c.event c.record).1
  unfold passed keep
  rw [EStateM.run_bind, EStateM.run_get]
  dsimp only
  rw [EStateM.run_bind, EStateM.run_modify]
  dsimp only
  rw [hstore]
  unfold rejections
  split
  · next hnone => rw [if_pos hnone]; rfl
  · next hsome => rw [if_neg hsome]; rfl

theorem finishes_propagate (s s' : Service σ) (clock : Clock) (module : ModuleId) (event : Event)
    (record : Record) (prechecked : List Outcome) :
    Finishes s ((propagate clock module event record prechecked).run s') :=
  Or.inl ⟨_, _, rfl⟩

/-- A call that gets to its checks settles if what comes after them finishes. -/
theorem Settles.of_passed [LawfulRecordStore σ] (c : Candidate) {f : List Outcome → Call σ α}
    (h : ∀ os, Finishes s ((f os).run s)) :
    Settles s (some c) ((passed c.clock c.module c.event c.record >>= f).run s) := by
  rw [EStateM.run_bind, passed_run]
  by_cases hnone : s.rejections c = []
  · rw [if_pos hnone]
    refine ⟨?_, ?_⟩
    · intro e after heq
      rcases h _ with ⟨a, after', hok⟩ | ⟨e', herror, _⟩
      · exact absurd (hok.symm.trans heq) nofun
      · cases herror.symm.trans heq
        rfl
    · intro os
      constructor
      · rintro ⟨after, heq⟩
        rcases h _ with ⟨a, after', hok⟩ | ⟨e', herror, hnot⟩
        · exact absurd (hok.symm.trans heq) nofun
        · cases herror.symm.trans heq
          exact absurd rfl (hnot os)
      · rintro ⟨c', hc', hos, hne⟩
        cases hc'
        exact absurd (hos.trans hnone) hne
  · rw [if_neg hnone]
    refine ⟨?_, ?_⟩
    · intro e after heq
      cases heq
      rfl
    · intro os
      constructor
      · rintro ⟨after, heq⟩
        cases heq
        exact ⟨c, rfl, rfl, hnone⟩
      · rintro ⟨c', hc', hos, _⟩
        cases hc'
        rw [hos]
        exact ⟨s, rfl⟩

theorem Settles.of_answer {c? : Option Candidate} {x : Call σ α} (h : Settles s c? (x.run s)) :
    Settles s c? ((x >>= fun _ => pure ()).run s) := by
  have herror : ∀ e after, (x >>= fun _ => pure ()).run s = .error e after ↔
      x.run s = .error e after := by
    intro e after
    rw [EStateM.run_bind]
    cases x.run s with
    | ok a s' => exact ⟨nofun, nofun⟩
    | error e' s' =>
      constructor
      · intro heq
        cases heq
        rfl
      · intro heq
        cases heq
        rfl
  refine ⟨fun e after heq => h.unchanged e after ((herror e after).mp heq), ?_⟩
  intro os
  rw [← h.rejected os]
  exact exists_congr fun after => herror _ after

/-! ## The calls -/

theorem deleteModule_settles (s : Service σ) (module : ModuleId) :
    Settles s ((Request.deleteModule module).candidate? s) ((deleteModule module).run s) := by
  unfold deleteModule
  rw [EStateM.run_bind, EStateM.run_get]
  dsimp only
  cases s.registry.deleteModule module with
  | error e => exact .of_refused nofun
  | ok removed => exact .of_done _ _

section

variable [LawfulRecordStore σ] (s : Service σ)

theorem insertRecord_settles (t : Timing) (record : Record) :
    Settles s ((Request.insert t record).candidate? s) ((insertRecord t record).run s) := by
  unfold insertRecord Request.candidate?
  dsimp only
  cases hdata : s.accepted? record.module record.data with
  | none =>
    obtain ⟨e, hrun, hnot⟩ := validated_error hdata
    rw [EStateM.run_bind, hrun]
    exact .of_refused hnot
  | some data =>
    rw [EStateM.run_bind, validated_ok hdata]
    refine .of_passed ⟨t.checking, record.module, .create, { record with data }⟩ fun os => ?_
    refine .of_stored fun store _ => ?_
    exact finishes_propagate s _ _ _ _ _ _

theorem createRecord_settles (t : Timing) (module : ModuleId) (data : Json) (fresh : RecordId) :
    Settles s ((Request.create t module data fresh).candidate? s)
      ((createRecord t module data fresh).run s) :=
  insertRecord_settles s t ⟨fresh, module, data, t.now, t.now⟩

theorem updateRecord_settles (t : Timing) (module : ModuleId) (id : RecordId) (data : Json) :
    Settles s ((Request.update t module id data).candidate? s)
      ((updateRecord t module id data).run s) := by
  unfold updateRecord Request.candidate?
  dsimp only
  cases hbefore : s.record? module id with
  | none =>
    obtain ⟨e, hrun, hnot⟩ := getRecord_error hbefore
    rw [EStateM.run_bind, hrun]
    exact .of_refused hnot
  | some before =>
    rw [EStateM.run_bind, getRecord_ok hbefore, Option.bind_eq_bind, Option.bind_some]
    dsimp only
    cases hdata : s.accepted? module data with
    | none =>
      obtain ⟨e, hrun, hnot⟩ := validated_error hdata
      rw [EStateM.run_bind, hrun]
      exact .of_refused hnot
    | some data =>
      rw [EStateM.run_bind, validated_ok hdata, Option.bind_eq_bind, Option.bind_some]
      dsimp only
      by_cases hsame : (before.data == data) = true
      · rw [if_pos hsame, if_pos hsame]
        exact .of_done _ _
      · rw [if_neg hsame, if_neg hsame]
        refine .of_passed ⟨t.checking, module, .update, { before with data }⟩ fun os => ?_
        refine .of_stored fun answer _ => ?_
        exact finishes_propagate s _ _ _ _ _ _

theorem deleteRecord_settles (t : Timing) (module : ModuleId) (id : RecordId) :
    Settles s ((Request.delete t module id).candidate? s) ((deleteRecord t module id).run s) := by
  unfold deleteRecord Request.candidate?
  dsimp only
  cases hrecord : s.record? module id with
  | none =>
    obtain ⟨e, hrun, hnot⟩ := getRecord_error hrecord
    rw [EStateM.run_bind, hrun]
    exact .of_refused hnot
  | some record =>
    rw [EStateM.run_bind, getRecord_ok hrecord, Option.bind_eq_bind, Option.bind_some]
    refine .of_passed ⟨t.checking, module, .delete, record⟩ fun os => ?_
    refine .of_stored ?_
    rintro ⟨deleted, store⟩ hdelete
    -- The record that was found before the checks is there to be deleted.
    have hfound := LawfulRecordStore.get_of_delete hdelete
    rw [get_of_record? hrecord] at hfound
    cases hfound
    exact finishes_propagate s _ _ _ _ _ _

theorem perform_settles (request : Request) :
    Settles s (request.candidate? s) (request.perform.run s) := by
  cases request with
  | create t module data fresh => exact (createRecord_settles s t module data fresh).of_answer
  | insert t record => exact (insertRecord_settles s t record).of_answer
  | update t module id data => exact (updateRecord_settles s t module id data).of_answer
  | delete t module id => exact (deleteRecord_settles s t module id).of_answer
  | deleteModule module => exact (deleteModule_settles s module).of_answer

end

end Service

/-- A refused call leaves the service as it was: its registry with the generation, its settings and
its records.  A call is rejected exactly if it got to its checks and some of them do not pass, and
it answers with the outcomes of these; nothing but checks was run for them. -/
theorem refused_call_changes_nothing [LawfulRecordStore σ] (request : Request) (s : Service σ) :
    (∀ e after, request.perform.run s = .error e after → after = s) ∧
      (∀ os, (∃ after, request.perform.run s = .error (.rejected os) after) ↔
        ∃ c, request.candidate? s = some c ∧ os = s.rejections c ∧ os ≠ []) ∧
      ∀ c, ∀ o ∈ s.rejections c, o.action = .validate ∧ o.isRejection = true := by
  have hsettles := Service.perform_settles s request
  refine ⟨hsettles.unchanged, hsettles.rejected, ?_⟩
  intro c o ho
  obtain ⟨hmem, hrejection⟩ := List.mem_filter.mp ho
  exact ⟨(precheck_checks _ _ _ _ _ _ _).2 o hmem, hrejection⟩

end

namespace Sample

def reservation : Relationship :=
  { id := none, base := orders, target := stock, binding := .record one
    rules := { RuleLists.empty with onCreate :=
      [{ Rule.ofAction .validate with
          target := some "$stock-$sold", value := some (.string "exists") }] } }

def service : Service MemoryStore :=
  { registry := { registry with
      graph := { registry.graph with
        slots := [some ⟨⟨orders, "Orders", [reservation], 0, 0⟩, [reservation]⟩,
          some ⟨⟨stock, "Stock", [], 0, 0⟩, []⟩]
        relationshipCount := 1 } }
    config := .standard
    store := ⟨[item, other]⟩ }

end Sample

/-- The order is rejected, and the service is as it was. -/
theorem refused_call_changes_nothing_on_sample :
    LawfulRecordStore MemoryStore ∧
      ∃ os, os ≠ [] ∧ (Request.insert (.steady 5 0) Sample.order).perform.run Sample.service =
        .error (.rejected os) Sample.service := by
  obtain ⟨hunchanged, hrejected, _⟩ :=
    refused_call_changes_nothing (.insert (.steady 5 0) Sample.order) Sample.service
  have hcandidate : (Request.insert (.steady 5 0) Sample.order).candidate? Sample.service =
      some ⟨.steady 5 0, Sample.orders, .create, Sample.order⟩ := by rfl
  have hlength : (Sample.service.rejections
      ⟨.steady 5 0, Sample.orders, .create, Sample.order⟩).length = 1 := by decide +kernel
  have hne := List.ne_nil_of_length_pos (hlength ▸ Nat.one_pos)
  obtain ⟨after, hafter⟩ := (hrejected _).mpr ⟨_, hcandidate, rfl, hne⟩
  refine ⟨inferInstance, _, hne, ?_⟩
  rw [hafter, hunchanged _ _ hafter]

end RecordRules
