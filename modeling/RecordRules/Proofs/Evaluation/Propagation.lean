/-
No change to a record goes unnoticed.

The event of a change waits with the record as the change left it, or there is a warning.  It keeps
up with the store while it waits: a later change of the same record is absorbed, and a change of
another record concerns neither.  So the last event of each record tells how the record ends.
-/
import RecordRules.Proofs.Assoc
import RecordRules.Proofs.Evaluation.Termination

namespace RecordRules

open RecordStore

section

variable {σ : Type}

/-! ## What a run did -/

namespace Run

/-- The run gave a record another value in one of its fields. -/
def Changed (run : Run σ) (module : ModuleId) (id : RecordId) : Prop :=
  ∃ field w, .changed module field w ∈ run.history ∧ w.record.id = id

/-- The run deleted a record, which was as given. -/
def Deleted (run : Run σ) (module : ModuleId) (r : Record) : Prop :=
  .deleted module r ∈ run.history

/-- There is a warning that an event lay too deep. -/
def CutOff (run : Run σ) (k : EventKey) : Prop :=
  ∃ depth, .cycleLimitExceeded k.1 k.2.1 k.2.2 depth ∈ run.warnings

/-- There is a warning that an event had been evaluated before. -/
def Suppressed (run : Run σ) (k : EventKey) : Prop :=
  .revisitSuppressed k.1 k.2.1 k.2.2 ∈ run.warnings

def events (run : Run σ) : List Trigger := run.evaluated ++ run.queue

theorem events_take {run : Run σ} {t : Trigger} {rest : List Trigger}
    (hqueue : run.queue = t :: rest) : (run.take t rest).events = run.events := by
  rw [events, events, evaluated_take, hqueue, List.append_assoc]
  rfl

theorem mem_history_take {run : Run σ} {t : Trigger} {rest : List Trigger} {h : Happening}
    (hnot : h.trigger? = none) : h ∈ (run.take t rest).history ↔ h ∈ run.history := by
  show h ∈ run.history ++ [.evaluated t] ↔ _
  rw [List.mem_append, List.mem_singleton, or_iff_left]
  rintro rfl
  cases hnot

/-! ## Noting a write -/

section

variable {run : Run σ} {s : Setting} {c : Scope} {writes : Nat} {happening : Happening}
  {u : Trigger} {o : Outcome} {store' : σ}

theorem mem_history_wrote {h : Happening} :
    h ∈ (run.wrote s store' writes happening u o).history ↔ h ∈ run.history ∨ h = happening := by
  rw [wrote_history, List.mem_append, List.mem_singleton]

theorem Changed.of_wrote_of_ne (hcauses : happening.Causes u) {module : ModuleId} {id : RecordId}
    (hne : (module, id) ≠ (u.module, u.record.id))
    (h : (run.wrote s store' writes happening u o).Changed module id) : run.Changed module id := by
  obtain ⟨field, w, hmem, hid⟩ := h
  rcases mem_history_wrote.mp hmem with hold | rfl
  · exact ⟨field, w, hold, hid⟩
  · obtain ⟨_, hmodule, _, hrecord⟩ := hcauses
    rw [hmodule, hrecord, hid] at hne
    exact absurd rfl hne

theorem changed_wrote (hcauses : happening.Causes u) (hevent : u.event = .update) :
    (run.wrote s store' writes happening u o).Changed u.module u.record.id := by
  cases happening with
  | evaluated t => exact hcauses.elim
  | changed module field w =>
    obtain ⟨_, rfl, _, hrecord⟩ := hcauses
    rw [hrecord]
    exact ⟨field, w, mem_history_wrote.mpr (Or.inr rfl), rfl⟩
  | deleted module r =>
    rw [hcauses.2.1] at hevent
    cases hevent

theorem deleted_wrote (hcauses : happening.Causes u) (hevent : u.event = .delete) :
    (run.wrote s store' writes happening u o).Deleted u.module u.record := by
  cases happening with
  | evaluated t => exact hcauses.elim
  | changed module field w =>
    rw [hcauses.2.2.1] at hevent
    cases hevent
  | deleted module r =>
    obtain ⟨rfl, _, rfl⟩ := hcauses
    exact mem_history_wrote.mpr (Or.inr rfl)

theorem mem_events_wrote_of_ne (hcauses : happening.Causes u) {v : Trigger} (hv : v ∈ run.events)
    (hkey : v.key ≠ u.key) : v ∈ (run.wrote s store' writes happening u o).events := by
  unfold events
  rw [evaluated_wrote s run store' writes hcauses o]
  rcases List.mem_append.mp hv with hv | hv
  · exact List.mem_append_left _ hv
  · exact List.mem_append_right _ (mem_queue_wrote_of_ne s run store' writes happening u o hv hkey)

theorem mem_events_wrote (hcauses : happening.Causes u) {v : Trigger}
    (hv : v ∈ (run.wrote s store' writes happening u o).events) :
    v ∈ run.events ∨ v.key = u.key := by
  unfold events at hv
  rw [evaluated_wrote s run store' writes hcauses o] at hv
  rcases List.mem_append.mp hv with hv | hv
  · exact Or.inl (List.mem_append_left _ hv)
  · rcases mem_queue_wrote s run store' writes happening u o hv with ⟨hold, _⟩ | ⟨hkey, _⟩
    · exact Or.inl (List.mem_append_right _ hold)
    · exact Or.inr hkey

theorem CutOff.wrote {k : EventKey} (h : run.CutOff k) :
    (run.wrote s store' writes happening u o).CutOff k := by
  obtain ⟨ws, hws⟩ := wrote_warnings s run store' writes happening u o
  obtain ⟨depth, hmem⟩ := h
  refine ⟨depth, ?_⟩
  rw [hws]
  exact List.mem_append_left _ hmem

theorem Suppressed.wrote {k : EventKey} (h : run.Suppressed k) :
    (run.wrote s store' writes happening u o).Suppressed k := by
  obtain ⟨ws, hws⟩ := wrote_warnings s run store' writes happening u o
  unfold Suppressed
  rw [hws]
  exact List.mem_append_left _ h

end

end Run

theorem Trigger.place_eq {u v : Trigger} (h : v.key = u.key) :
    (v.module, v.record.id) = (u.module, u.record.id) :=
  congrArg (fun k => (k.1, k.2.1)) h

theorem Trigger.event_eq {u v : Trigger} (h : v.key = u.key) : v.event = u.event :=
  congrArg (fun k => k.2.2) h

theorem Happening.Causes.congr {h : Happening} {u v : Trigger} (hc : h.Causes u)
    (hkey : v.key = u.key) (hrecord : v.record = u.record) : h.Causes v := by
  have hmodule : v.module = u.module := congrArg Prod.fst hkey
  have hevent := Trigger.event_eq hkey
  cases h with
  | evaluated t => exact hc.elim
  | changed module field w =>
    obtain ⟨hchanged, hm, he, hr⟩ := hc
    exact ⟨hchanged, hmodule.trans hm, hevent.trans he, hrecord.trans hr⟩
  | deleted module r =>
    obtain ⟨hm, he, hr⟩ := hc
    exact ⟨hmodule.trans hm, hevent.trans he, hrecord.trans hr⟩

variable [RecordStore σ]

def Run.AllReadsBack (run : Run σ) : Prop :=
  ∀ module field w, .changed module field w ∈ run.history → ReadsBack σ w.record.data

/-! ## What holds on the way -/

/-- What ties the events of a run to its store and its history at every point. -/
structure Run.Traced (store : σ) (root : Trigger) (run : Run σ) : Prop where
  /-- A record that is there is as it was at the start unless it was changed. -/
  altered : ∀ module id, Holds run.store (module, id) →
    get run.store module id ≠ get store module id → run.Changed module id
  /-- A record that is not there any more was deleted. -/
  lost : ∀ module id, Holds store (module, id) → ¬Holds run.store (module, id) →
    ∃ r, run.Deleted module r ∧ r.id = id
  /-- A record that was changed and is there has an event that carries it as it is. -/
  updates : run.AllReadsBack → ∀ module id r, run.Changed module id →
    get run.store module id = .ok (some r) →
      (∃ u ∈ run.events, u.key = (module, id, .update) ∧ u.record = r) ∨
        run.CutOff (module, id, .update) ∨ run.Suppressed (module, id, .update)
  /-- A record that was deleted has an event that carries it as it was. -/
  deletes : ∀ module r, run.Deleted module r →
    (∃ u ∈ run.events, u.key = (module, r.id, .delete) ∧ u.record = r) ∨
      run.CutOff (module, r.id, .delete)
  /-- The record of a deletion is not there. -/
  gone : ∀ u ∈ run.events, u.event = .delete → get run.store u.module u.record.id = .ok none
  /-- After the root, an event that waits follows from something that the run did. -/
  waiting : (run.history = [] ∧ run.queue = [root]) ∨
    ∀ u ∈ run.queue, ∃ h ∈ run.history, h.Causes u
  /-- So was an event that was evaluated, by the time it was. -/
  caused : ∀ i u, run.history[i]? = some (.evaluated u) →
    (i = 0 ∧ u = root) ∨ ∃ h ∈ run.history.take i, h.Causes u

namespace Run

variable {store : σ} {root : Trigger} {run run' : Run σ}

theorem traced_root (store : σ) (module : ModuleId) (event : Event) (record : Record)
    (outcomes : List Outcome) (hroot : event = .delete → get store module record.id = .ok none) :
    (Run.root store module event record outcomes).Traced store ⟨module, event, record, 0⟩ where
  altered _ _ _ h := absurd rfl h
  lost _ _ h hnot := absurd h hnot
  updates _ _ _ _ := by
    rintro ⟨_, _, hmem, _⟩
    exact absurd hmem List.not_mem_nil
  deletes _ _ h := absurd h List.not_mem_nil
  gone u hu hevent := by
    rw [List.mem_singleton.mp hu] at hevent ⊢
    exact hroot hevent
  waiting := Or.inl ⟨rfl, rfl⟩
  caused i u h := by
    rw [show (Run.root store module event record outcomes).history = [] from rfl] at h
    simp at h

/-! ## Going on without a write -/

theorem Traced.of_idles (h : run.Traced store root) (hidle : run.Idles run') :
    run'.Traced store root := by
  have hevents : run'.events = run.events := by
    rw [events, events, evaluated_congr hidle.history, hidle.queue]
  have hwarnings : ∀ w ∈ run.warnings, w ∈ run'.warnings := by
    obtain ⟨ws, hws⟩ := hidle.warnings
    rw [hws]
    exact fun w hw => List.mem_append_left _ hw
  have hcut : ∀ k, run.CutOff k → run'.CutOff k := fun k ⟨depth, hw⟩ => ⟨depth, hwarnings _ hw⟩
  refine ⟨?_, ?_, ?_, ?_, ?_, ?_, ?_⟩
  · unfold Changed
    rw [hidle.store, hidle.history]
    exact h.altered
  · unfold Deleted
    rw [hidle.store, hidle.history]
    exact h.lost
  · unfold Changed AllReadsBack
    rw [hidle.store, hidle.history, hevents]
    intro hread module id r hchanged hr
    rcases h.updates hread module id r hchanged hr with hu | hc | hs
    · exact Or.inl hu
    · exact Or.inr (Or.inl (hcut _ hc))
    · exact Or.inr (Or.inr (hwarnings _ hs))
  · unfold Deleted
    rw [hidle.history, hevents]
    intro module r hdeleted
    exact (h.deletes module r hdeleted).imp_right (hcut _)
  · rw [hidle.store, hevents]
    exact h.gone
  · rw [hidle.queue, hidle.history]
    exact h.waiting
  · rw [hidle.history]
    exact h.caused

theorem Traced.take (h : run.Traced store root) {t : Trigger} {rest : List Trigger}
    (hqueue : run.queue = t :: rest) : (run.take t rest).Traced store root := by
  have hevents := events_take hqueue
  have hchanged : ∀ module id, (run.take t rest).Changed module id ↔ run.Changed module id := by
    intro module id
    unfold Changed
    simp only [mem_history_take (h := .changed _ _ _) rfl]
  have hdeleted : ∀ module r, (run.take t rest).Deleted module r ↔ run.Deleted module r :=
    fun module r => mem_history_take (h := .deleted module r) rfl
  have hhead : (run.history = [] ∧ t = root ∧ rest = []) ∨
      ∀ u ∈ t :: rest, ∃ e ∈ run.history, e.Causes u := by
    rcases h.waiting with ⟨hempty, hroot⟩ | hcauses
    · rw [hqueue] at hroot
      cases hroot
      exact Or.inl ⟨hempty, rfl, rfl⟩
    · rw [hqueue] at hcauses
      exact Or.inr hcauses
  refine ⟨?_, ?_, ?_, ?_, ?_, ?_, ?_⟩
  · simp only [hchanged]
    exact h.altered
  · simp only [hdeleted]
    exact h.lost
  · intro hread module id r hc hr
    rw [hevents]
    refine h.updates ?_ module id r ((hchanged _ _).mp hc) hr
    exact fun module field w hw => hread module field w ((mem_history_take rfl).mpr hw)
  · simp only [hdeleted, hevents]
    exact h.deletes
  · rw [hevents]
    exact h.gone
  · right
    intro u (hu : u ∈ rest)
    rcases hhead with ⟨_, _, hrest⟩ | hcause
    · rw [hrest] at hu
      exact absurd hu List.not_mem_nil
    · obtain ⟨e, he, hcauses⟩ := hcause u (List.mem_cons_of_mem _ hu)
      exact ⟨e, (mem_history_take hcauses.trigger?).mpr he, hcauses⟩
  · intro i u hi
    have hhistory : (run.take t rest).history = run.history ++ [.evaluated t] := rfl
    rw [hhistory] at hi ⊢
    rcases getElem?_concat_cases hi with ⟨hold, htake⟩ | ⟨hlast, hu, htake⟩
    · rw [htake]
      exact h.caused i u hold
    · rw [htake]
      cases hu
      rcases hhead with ⟨hempty, hroot, _⟩ | hcause
      · exact Or.inl ⟨by rw [hlast, hempty]; rfl, hroot⟩
      · exact Or.inr (hcause t List.mem_cons_self)

/-! ## Writing -/

section

variable {s : Setting} {c : Scope} {writes : Nat} {happening : Happening} {u : Trigger}
  {o : Outcome} {store' : σ}

/-- Data that a change left read back if all that the run wrote do. -/
theorem AllReadsBack.of_wrote (hcauses : happening.Causes u) (hevent : u.event = .update)
    (hread : (run.wrote s store' writes happening u o).AllReadsBack) :
    ReadsBack σ u.record.data := by
  cases happening with
  | evaluated t => exact hcauses.elim
  | changed module field w =>
    rw [hcauses.2.2.2]
    exact hread module field w (mem_history_wrote.mpr (Or.inr rfl))
  | deleted module r =>
    rw [hcauses.2.1] at hevent
    cases hevent

/-- The record of a deletion is not there to be written. -/
theorem Traced.place_ne (h : run.Traced store root) (he : Effect c run store' happening u)
    {v : Trigger} (hv : v ∈ run.events) (hevent : v.event = .delete) :
    (v.module, v.record.id) ≠ (u.module, u.record.id) := by
  intro hplace
  obtain ⟨hmodule, hid⟩ := Prod.mk.inj hplace
  obtain ⟨r, hr⟩ := he.there
  have hgone := h.gone v hv hevent
  rw [hmodule, hid, hr] at hgone
  cases hgone

theorem Traced.altered_wrote (h : run.Traced store root) (he : Effect c run store' happening u)
    (module : ModuleId) (id : RecordId) (hheld : Holds store' (module, id))
    (hne : get store' module id ≠ get store module id) :
    (run.wrote s store' writes happening u o).Changed module id := by
  by_cases hplace : (module, id) = (u.module, u.record.id)
  · obtain ⟨rfl, rfl⟩ := Prod.mk.inj hplace
    exact changed_wrote he.causes (he.event_of_holds hheld)
  · have hsame := he.elsewhere _ _ hplace
    rw [Holds, hsame] at hheld
    rw [hsame] at hne
    obtain ⟨field, w, hmem, hid⟩ := h.altered module id hheld hne
    exact ⟨field, w, mem_history_wrote.mpr (Or.inl hmem), hid⟩

theorem Traced.lost_wrote (h : run.Traced store root) (he : Effect c run store' happening u)
    (module : ModuleId) (id : RecordId) (hheld : Holds store (module, id))
    (hnot : ¬Holds store' (module, id)) :
    ∃ r, (run.wrote s store' writes happening u o).Deleted module r ∧ r.id = id := by
  by_cases hplace : (module, id) = (u.module, u.record.id)
  · obtain ⟨rfl, rfl⟩ := Prod.mk.inj hplace
    exact ⟨u.record, deleted_wrote he.causes (he.event_of_not_holds hnot), rfl⟩
  · rw [Holds, he.elsewhere _ _ hplace] at hnot
    obtain ⟨r, hmem, hid⟩ := h.lost module id hheld hnot
    exact ⟨r, mem_history_wrote.mpr (Or.inl hmem), hid⟩

theorem Traced.updates_wrote (h : run.Traced store root) (he : Effect c run store' happening u)
    (hread : (run.wrote s store' writes happening u o).AllReadsBack) (module : ModuleId)
    (id : RecordId) (r : Record)
    (hchanged : (run.wrote s store' writes happening u o).Changed module id)
    (hr : get store' module id = .ok (some r)) :
    (∃ v ∈ (run.wrote s store' writes happening u o).events,
        v.key = (module, id, .update) ∧ v.record = r) ∨
      (run.wrote s store' writes happening u o).CutOff (module, id, .update) ∨
      (run.wrote s store' writes happening u o).Suppressed (module, id, .update) := by
  by_cases hplace : (module, id) = (u.module, u.record.id)
  · obtain ⟨rfl, rfl⟩ := Prod.mk.inj hplace
    -- The write is of this record and has just left it as it is.
    have hevent : u.event = .update := he.event_of_holds (.of_get hr)
    have hnow := he.updated hevent (AllReadsBack.of_wrote he.causes hevent hread)
    rw [hnow] at hr
    cases hr
    have hkey : u.key = (u.module, u.record.id, .update) := by
      rw [← hevent]
      rfl
    rcases wrote_event s run store' writes happening u o with
      ⟨v, hv, hvkey, hvrecord⟩ | hcut | ⟨_, hseen⟩
    · exact Or.inl ⟨v, List.mem_append_right _ hv, hvkey.trans hkey, hvrecord⟩
    · rw [hevent] at hcut
      exact Or.inr (Or.inl ⟨_, hcut⟩)
    · rw [hevent] at hseen
      exact Or.inr (Or.inr hseen)
  · rw [he.elsewhere _ _ hplace] at hr
    have hread' : run.AllReadsBack := fun module field w hmem =>
      hread module field w (mem_history_wrote.mpr (Or.inl hmem))
    rcases h.updates hread' module id r (hchanged.of_wrote_of_ne he.causes hplace) hr with
      ⟨v, hv, hvkey, hvrecord⟩ | hcut | hseen
    · refine Or.inl ⟨v, mem_events_wrote_of_ne he.causes hv ?_, hvkey, hvrecord⟩
      intro hkey
      have hv : (v.module, v.record.id) = (module, id) := congrArg (fun k => (k.1, k.2.1)) hvkey
      exact hplace (hv.symm.trans (Trigger.place_eq hkey))
    · exact Or.inr (Or.inl hcut.wrote)
    · exact Or.inr (Or.inr hseen.wrote)

theorem Traced.deletes_wrote (h : run.Traced store root) (he : Effect c run store' happening u)
    (hvisited : run.evaluated.map Trigger.key = run.visited) (module : ModuleId) (r : Record)
    (hdeleted : (run.wrote s store' writes happening u o).Deleted module r) :
    (∃ v ∈ (run.wrote s store' writes happening u o).events,
        v.key = (module, r.id, .delete) ∧ v.record = r) ∨
      (run.wrote s store' writes happening u o).CutOff (module, r.id, .delete) := by
  rcases mem_history_wrote.mp hdeleted with hold | rfl
  · rcases h.deletes module r hold with ⟨v, hv, hvkey, hvrecord⟩ | hcut
    · refine Or.inl ⟨v, mem_events_wrote_of_ne he.causes hv ?_, hvkey, hvrecord⟩
      have hevent : v.event = .delete := congrArg (fun k => k.2.2) hvkey
      exact fun hkey => h.place_ne he hv hevent (Trigger.place_eq hkey)
    · exact Or.inr hcut.wrote
  · obtain ⟨rfl, hevent, rfl⟩ := he.causes
    have hkey : u.key = (u.module, u.record.id, .delete) := by
      rw [← hevent]
      rfl
    rcases wrote_event s run store' writes (.deleted u.module u.record) u o with
      ⟨v, hv, hvkey, hvrecord⟩ | hcut | ⟨hseen, _⟩
    · exact Or.inl ⟨v, List.mem_append_right _ hv, hvkey.trans hkey, hvrecord⟩
    · rw [hevent] at hcut
      exact Or.inr ⟨_, hcut⟩
    · -- No deletion of the record can have been evaluated, since it was there.
      rw [← hvisited] at hseen
      obtain ⟨v, hv, hvkey⟩ := List.mem_map.mp hseen
      have hvevent : v.event = .delete := (Trigger.event_eq hvkey).trans hevent
      exact absurd (Trigger.place_eq hvkey) (h.place_ne he (List.mem_append_left _ hv) hvevent)

theorem Traced.gone_wrote (h : run.Traced store root) (he : Effect c run store' happening u)
    {v : Trigger} (hv : v ∈ (run.wrote s store' writes happening u o).events)
    (hevent : v.event = .delete) : get store' v.module v.record.id = .ok none := by
  rcases mem_events_wrote he.causes hv with hold | hkey
  · rw [he.elsewhere _ _ (h.place_ne he hold hevent)]
    exact h.gone v hold hevent
  · obtain ⟨hmodule, hid⟩ := Prod.mk.inj (Trigger.place_eq hkey)
    rw [hmodule, hid]
    exact he.deleted ((Trigger.event_eq hkey).symm.trans hevent)

theorem Traced.of_write [LawfulRecordStore σ] (h : run.Traced store root)
    (hvisited : run.evaluated.map Trigger.key = run.visited) (hstarted : run.history ≠ [])
    (hwrite : Write s c run run') : run'.Traced store root := by
  obtain ⟨store', writes, happening, u, o, rfl, he⟩ := hwrite.effect
  refine ⟨?_, ?_, ?_, h.deletes_wrote he hvisited, ?_, ?_, ?_⟩
  · rw [wrote_store]
    exact h.altered_wrote he
  · rw [wrote_store]
    exact h.lost_wrote he
  · rw [wrote_store]
    exact h.updates_wrote he
  · rw [wrote_store]
    exact fun v => h.gone_wrote he
  · right
    intro v hv
    rcases mem_queue_wrote s run store' writes happening u o hv with ⟨hold, _⟩ | ⟨hkey, hrecord⟩
    · rcases h.waiting with ⟨hempty, _⟩ | hcause
      · exact absurd hempty hstarted
      · obtain ⟨e, hmem, hcauses⟩ := hcause v hold
        exact ⟨e, mem_history_wrote.mpr (Or.inl hmem), hcauses⟩
    · exact ⟨happening, mem_history_wrote.mpr (Or.inr rfl), he.causes.congr hkey hrecord⟩
  · intro i v hi
    rw [wrote_history] at hi ⊢
    rcases getElem?_concat_cases hi with ⟨hold, htake⟩ | ⟨_, hv, _⟩
    · rw [htake]
      exact h.caused i v hold
    · have hnot := he.causes.trigger?
      rw [← hv] at hnot
      cases hnot

end

/-! ## All the way -/

theorem Traced.step [LawfulRecordStore σ] {s : Setting} {rootMode : Mode}
    (h : run.Traced store root) (hvisited : run.evaluated.map Trigger.key = run.visited)
    (hstep : RunStep s rootMode run run') : run'.Traced store root := by
  rcases hstep.cases with hidle | ⟨t, rest, hqueue, rfl⟩ | ⟨t, c, hcurrent, _, _, _, hwrite⟩
  · exact h.of_idles hidle
  · exact h.take hqueue
  · refine h.of_write hvisited ?_ hwrite
    intro hempty
    rw [current?, evaluated, hempty] at hcurrent
    cases hcurrent

theorem Traced.reaches [LawfulRecordStore σ] {s : Setting} {rootMode : Mode}
    (h : run.Traced store root) (horderly : run.Orderly s.registry store root.key)
    (hreach : Reaches s rootMode run run') : run'.Traced store root := by
  induction hreach with
  | refl => exact h
  | tail hreach hstep ih => exact ih.step (horderly.reaches hreach).visited hstep

end Run

theorem filter_key_eq_singleton {α κ : Type} [DecidableEq κ] {key : α → κ} {l : List α}
    (hl : (l.map key).Nodup) {a : α} (ha : a ∈ l) : (l.filter fun b => key b = key a) = [a] := by
  induction l with
  | nil => exact absurd ha List.not_mem_nil
  | cons b rest ih =>
    rw [List.map_cons, List.nodup_cons] at hl
    rcases List.mem_cons.mp ha with rfl | ha
    · have hrest : (rest.filter fun b => key b = key a) = [] := by
        rw [List.filter_eq_nil_iff]
        intro b hb hkey
        have hkey' : key b = key a := by simpa using hkey
        exact hl.1 (hkey' ▸ List.mem_map_of_mem hb)
      rw [List.filter_cons_of_pos (by simp), hrest]
    · have hne : key b ≠ key a := fun hkey => hl.1 (hkey ▸ List.mem_map_of_mem ha)
      rw [List.filter_cons_of_neg (by simpa using hne)]
      exact ih hl.2 ha

/-- No change is lost.  A record differs from the start only if it was changed, and is gone only if
it was deleted.  If it was changed and is still there, its update was evaluated with the record as
it ends, or a warning names it.  If it was deleted, its deletion was evaluated once, with the record
as it was, or a warning names it.  And but for the root, an event was evaluated only after what it
tells of had happened.

A root deletion comes after its record is gone.  The data that the run writes have to read back,
since an event carries the record as it was written. -/
theorem evaluation_loses_no_change [LawfulRecordStore σ] (registry : Registry) (config : Config)
    (clock : Clock) (store : σ) (module : ModuleId) (event : Event) (record : Record)
    (prechecked : Option (List Outcome))
    (hroot : event = .delete → get store module record.id = .ok none)
    (hread : (evaluation registry config clock store module event record prechecked).AllReadsBack) :
    let final := evaluation registry config clock store module event record prechecked
    (∀ m id, Holds final.store (m, id) → get final.store m id ≠ get store m id →
      final.Changed m id) ∧
    (∀ m id, Holds store (m, id) → ¬Holds final.store (m, id) →
      ∃ r, final.Deleted m r ∧ r.id = id) ∧
    (∀ m id r, final.Changed m id → get final.store m id = .ok (some r) →
      (∃ u ∈ final.evaluated, u.key = (m, id, .update) ∧ u.record = r) ∨
        final.CutOff (m, id, .update) ∨ final.Suppressed (m, id, .update)) ∧
    (∀ m r, final.Deleted m r →
      (∃ u, (final.evaluated.filter fun v => v.key = (m, r.id, .delete)) = [u] ∧ u.record = r) ∨
        final.CutOff (m, r.id, .delete)) ∧
    (∀ i u, final.history[i]? = some (.evaluated u) →
      (i = 0 ∧ u = ⟨module, event, record, 0⟩) ∨ ∃ h ∈ final.history.take i, h.Causes u) := by
  intro final
  have horderly := Run.orderly_root registry store module event record (prechecked.getD [])
  have hreach : Reaches (.ofRoot registry config clock) (.ofRoot prechecked) _ final :=
    evaluation_reaches registry config clock store module event record prechecked
  have htraced : final.Traced store ⟨module, event, record, 0⟩ :=
    (Run.traced_root store module event record _ hroot).reaches horderly hreach
  have hevents : final.events = final.evaluated := by
    rw [Run.events, evaluation_queue, List.append_nil]
  have hnodup := evaluation_keys_nodup registry config clock store module event record prechecked
  refine ⟨htraced.altered, htraced.lost, ?_, ?_, htraced.caused⟩
  · rw [← hevents]
    exact htraced.updates hread
  · intro m r hdeleted
    rcases htraced.deletes m r hdeleted with ⟨u, hu, hkey, hrecord⟩ | hcut
    · rw [hevents] at hu
      refine Or.inl ⟨u, ?_, hrecord⟩
      rw [← hkey]
      exact filter_key_eq_singleton hnodup hu
    · exact Or.inr hcut

end

/-- The change that the new order makes is evaluated, and so is the deletion that follows. -/
theorem evaluation_loses_no_change_on_sample :
    (Event.create = .delete →
      get (⟨[Sample.item, Sample.other]⟩ : MemoryStore) Sample.orders Sample.order.id = .ok none) ∧
    Sample.run.AllReadsBack ∧
    ∀ r, Sample.run.Deleted Sample.stock r →
      (∃ u, (Sample.run.evaluated.filter fun v => v.key = (Sample.stock, r.id, .delete)) = [u] ∧
        u.record = r) ∨ Sample.run.CutOff (Sample.stock, r.id, .delete) := by
  have hroot : Event.create = .delete →
      get (⟨[Sample.item, Sample.other]⟩ : MemoryStore) Sample.orders Sample.order.id =
        .ok none := nofun
  have hread : Sample.run.AllReadsBack := fun _ _ w _ => MemoryStore.readsBack w.record.data
  exact ⟨hroot, hread, (evaluation_loses_no_change Sample.registry .standard (.steady 5 0) _
    Sample.orders .create Sample.order none hroot hread).2.2.2.1 Sample.stock⟩

end RecordRules
