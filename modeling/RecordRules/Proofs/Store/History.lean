/-
Records from their insertion to their removal.

Every call either puts in a record where there was none, rewrites one without setting back its time,
or clears away the places that it removes.  So what a store shows after a history of calls is told
by the calls, in whatever order the times stand that they bring.
-/
import RecordRules.Proofs.Store.Purge
import RecordRules.Proofs.Store.Showing

namespace RecordRules

/-! ## What a call does -/

theorem MemoryStore.find?_insert_of_ne (m : MemoryStore) {r : Record} {module : ModuleId}
    {id : RecordId} (h : ¬(r.module = module ∧ r.id = id)) :
    (MemoryStore.mk (insertBefore Record.before r m.records)).find? module id =
      m.find? module id := by
  exact find?_insertBefore_of_neg (p := fun r => decide (r.module = module ∧ r.id = id))
    (decide_eq_false h) m.records

theorem MemoryStore.find?_clear (m : MemoryStore) (gone : ModuleId × RecordId → Bool)
    (module : ModuleId) (id : RecordId) :
    (MemoryStore.mk (m.records.filter fun r => !gone r.place)).find? module id =
      if gone (module, id) then none else m.find? module id := by
  unfold find?
  rw [List.find?_filter]
  split
  · next hgone =>
    refine List.find?_eq_none.mpr fun r _ hr => ?_
    simp only [decide_eq_true_eq] at hr
    obtain ⟨hkept, rfl, rfl⟩ := hr
    rw [show r.place = (r.module, r.id) from rfl, hgone] at hkept
    cases hkept
  · next hkept =>
    congr 1
    funext r
    rw [decide_eq_decide]
    simp only [decide_eq_true_eq]
    refine and_iff_right_of_imp ?_
    rintro ⟨rfl, rfl⟩
    exact Bool.not_eq_true' _ ▸ Bool.eq_false_iff.mpr hkept

namespace StoreCall

/-- The module that the call is about. -/
def module : StoreCall → ModuleId
  | get module _ | replaceData module _ _ _ | mutateField module _ _ _ _ | delete module _
  | list module | count module | findByField module _ _ | purge module => module
  | insert r => r.module

/-- After the call, if it goes through, there is no record at the place. -/
def removes : StoreCall → ModuleId × RecordId → Bool
  | delete module id, place => place = (module, id)
  | purge module, place => place.1 = module
  | _, _ => false

theorem delete_eq_clear (m : MemoryStore) (module : ModuleId) (id : RecordId) :
    (m.delete module id).2 = ⟨m.records.filter fun r => !(delete module id).removes r.place⟩ := by
  refine congrArg MemoryStore.mk (List.filter_congr fun r _ => ?_)
  simp [removes, Record.place]

theorem purge_eq_clear (m : MemoryStore) (module : ModuleId) :
    (m.purge module).2 = ⟨m.records.filter fun r => !(purge module).removes r.place⟩ := by
  refine congrArg MemoryStore.mk (List.filter_congr fun r _ => ?_)
  unfold removes
  rw [decide_not]
  rfl

theorem settle_cases {σ α : Type} {s : σ} {P : σ → Prop} (answer : α → StoreAnswer)
    {x : Except StoreError (α × σ)} (hok : ∀ a t, x = .ok (a, t) → P t)
    (herror : ∀ e, x = .error e → P s) : P (settle s answer x).2 := by
  cases x with
  | ok done => exact hok done.1 done.2 rfl
  | error e => exact herror e rfl

theorem settle_query {σ α : Type} (s : σ) (answer : α → StoreAnswer) (x : Except StoreError α) :
    (settle s answer (x.map (·, s))).2 = s := by
  cases x <;> rfl

section

variable {σ : Type} [RecordStore σ] {s : σ} {c : StoreCall} {m m' : MemoryStore} {module : ModuleId}
  {id : RecordId}

/-- What a call does to a store: nothing, if it only asks or fails, or one of the writes. -/
inductive Does (s : σ) : StoreCall → σ → Prop where
  | nothing {c : StoreCall} (spares : ∀ place, c.removes place = false) : Does s c s
  | refused {module : ModuleId} {id : RecordId} {e : StoreError}
      (refused : RecordStore.delete s module id = .error e) : Does s (.delete module id) s
  | insert {r : Record} {t : σ} (done : RecordStore.insert s r = .ok t) : Does s (.insert r) t
  | replaceData {module : ModuleId} {id : RecordId} {data : Json} {now : Int} {new : Record} {t : σ}
      (done : RecordStore.replaceData s module id data now = .ok (new, t)) :
      Does s (.replaceData module id data now) t
  | mutateField {module : ModuleId} {id : RecordId} {field : String} {change : Mutation} {now : Int}
      {w : FieldWrite} {t : σ}
      (done : RecordStore.mutateField s module id field change now = .ok (w, t)) :
      Does s (.mutateField module id field change now) t
  | delete {module : ModuleId} {id : RecordId} {found : Option Record} {t : σ}
      (done : RecordStore.delete s module id = .ok (found, t)) : Does s (.delete module id) t
  | purge (module : ModuleId) : Does s (.purge module) (RecordStore.purge s module).2

theorem does_run (c : StoreCall) (s : σ) : Does s c (c.run s).2 := by
  cases c with
  | get module id =>
    show Does s _ (settle s _ _).2
    rw [settle_query]
    exact .nothing fun _ => rfl
  | insert r =>
    refine settle_cases _ (fun _ t hdone => .insert ?_) fun _ _ => .nothing fun _ => rfl
    obtain ⟨t', ht', heq⟩ := map_ok hdone
    cases heq
    exact ht'
  | replaceData module id data now =>
    exact settle_cases _ (fun _ _ => .replaceData) fun _ _ => .nothing fun _ => rfl
  | mutateField module id field change now =>
    exact settle_cases _ (fun _ _ => .mutateField) fun _ _ => .nothing fun _ => rfl
  | delete module id => exact settle_cases _ (fun _ _ => .delete) fun _ => .refused
  | list module =>
    show Does s _ (settle s _ _).2
    rw [settle_query]
    exact .nothing fun _ => rfl
  | count module => exact .nothing fun _ => rfl
  | findByField module field value =>
    show Does s _ (settle s _ _).2
    rw [settle_query]
    exact .nothing fun _ => rfl
  | purge module => exact .purge module

/-- The call puts in a record. -/
def PutsIn (s : σ) (c : StoreCall) (r : Record) : Prop :=
  c = .insert r ∧ ∃ t, RecordStore.insert s r = .ok t

/-- What a call does to the records that were written to a store. -/
inductive Turn (s : σ) (c : StoreCall) (m : MemoryStore) : MemoryStore → Prop where
  | put {r : Record} (puts : c.PutsIn s r) (free : m.find? r.module r.id = none)
      (object : r.data.isObject = true) : Turn s c m ⟨insertBefore Record.before r m.records⟩
  | rewrite {old new : Record} (spares : ∀ place, c.removes place = false)
      (hold : m.find? new.module new.id = some old) (created : new.createdAt = old.createdAt)
      (updated : old.updatedAt ≤ new.updatedAt) (object : new.data.isObject = true) :
      Turn s c m (m.replace new)
  | clear : Turn s c m ⟨m.records.filter fun r => !c.removes r.place⟩

namespace Turn

/-- A call that removes nothing may leave everything as it is. -/
theorem idle (h : ∀ place, c.removes place = false) : Turn s c m m := by
  have hall : m.records.filter (fun r => !c.removes r.place) = m.records :=
    List.filter_eq_self.mpr fun r _ => by rw [h]; rfl
  have hclear : Turn s c m ⟨m.records.filter fun r => !c.removes r.place⟩ := .clear
  rwa [hall] at hclear

theorem inShape (h : Turn s c m m') (hm : m.InShape) : m'.InShape := by
  cases h with
  | put _ free object => exact hm.insert free object
  | rewrite _ hold created _ object => exact hm.replace hold created object
  | clear => exact hm.filter _

/-- A record that is not removed stays, and its time does not go back. -/
theorem stays (h : Turn s c m m') {r : Record} (hr : m.find? module id = some r)
    (hspared : c.removes (module, id) = false) :
    ∃ r', m'.find? module id = some r' ∧ r'.createdAt = r.createdAt ∧
      r.updatedAt ≤ r'.updatedAt := by
  cases h with
  | @put born _ free _ =>
    have hne : ¬(born.module = module ∧ born.id = id) := by
      rintro ⟨rfl, rfl⟩
      rw [hr] at free
      cases free
    exact ⟨r, (m.find?_insert_of_ne hne).trans hr, rfl, Int.le_refl _⟩
  | @rewrite old new _ hold created updated _ =>
    by_cases hplace : (module, id) = (new.module, new.id)
    · cases hplace
      rw [hr] at hold
      cases hold
      exact ⟨new, MemoryStore.find?_replace_self hr rfl rfl, created, updated⟩
    · exact ⟨r, (MemoryStore.find?_replace_of_ne hplace).trans hr, rfl, Int.le_refl _⟩
  | clear =>
    rw [MemoryStore.find?_clear, hspared]
    exact ⟨r, hr, rfl, Int.le_refl _⟩

/-- Where a record is after a call, there was one that the call did not remove, or the call put it
in. -/
theorem comes (h : Turn s c m m') {r' : Record} (hr' : m'.find? module id = some r') :
    (∃ r, m.find? module id = some r) ∧ c.removes (module, id) = false ∨
      ∃ born, c.PutsIn s born ∧ born.place = (module, id) := by
  cases h with
  | @put born puts free _ =>
    by_cases hplace : born.module = module ∧ born.id = id
    · exact Or.inr ⟨born, puts, Prod.ext hplace.1 hplace.2⟩
    · refine Or.inl ⟨⟨r', ?_⟩, ?_⟩
      · rwa [m.find?_insert_of_ne hplace] at hr'
      · rw [puts.1]
        rfl
  | @rewrite old new spares hold _ _ _ =>
    refine Or.inl ⟨?_, spares _⟩
    by_cases hplace : (module, id) = (new.module, new.id)
    · cases hplace
      exact ⟨old, hold⟩
    · rw [MemoryStore.find?_replace_of_ne hplace] at hr'
      exact ⟨r', hr'⟩
  | clear =>
    rw [MemoryStore.find?_clear] at hr'
    split at hr'
    · cases hr'
    · next hspared => exact Or.inl ⟨⟨r', hr'⟩, Bool.eq_false_iff.mpr hspared⟩

end Turn

/-! ## Turns of a store -/

section

variable [ShowingStore σ]

open ShowingStore (Shows Readable)

/-- A call that writes a record over the one that it reads. -/
theorem Turn.of_get (h : Shows s m) (hread : Readable s)
    (hspares : ∀ place, c.removes place = false) {r new : Record}
    (hr : RecordStore.get s module id = .ok (some r))
    (hplace : new.place = r.place) (hcreated : new.createdAt = r.createdAt)
    (hupdated : r.updatedAt ≤ new.updatedAt)
    (hobject : new.data.isObject = true) : Turn s c m (m.replace new) := by
  obtain ⟨old, hold, rfl⟩ := ShowingStore.exists_of_get h hread hr
  obtain ⟨hplaceView, hcreatedView, hupdatedView⟩ := ShowingStore.view_keeps (σ := σ) old
  obtain ⟨hmodule, hid⟩ := MemoryStore.key_of_find? hold
  obtain ⟨hmodule', hid'⟩ := Prod.mk.inj (hplace.trans hplaceView)
  refine .rewrite hspares ?_ (hcreated.trans hcreatedView) (hupdatedView ▸ hupdated) hobject
  rw [hmodule', hid', hmodule, hid]
  exact hold

variable [LawfulRecordStore σ] [LawfulReplacement σ]

/-- A call leaves a store that shows what it has done to the records. -/
theorem Does.exists_turn {t : σ} (hdoes : Does s c t) (h : Shows s m) (hread : Readable s)
    (hm : m.InShape) : ∃ m', Shows t m' ∧ Turn s c m m' := by
  cases hdoes with
  | nothing spares => exact ⟨m, h, .idle spares⟩
  | @refused module id e refused =>
    obtain ⟨t, hdelete, -⟩ := ShowingStore.delete_ok h (ShowingStore.get_eq h hread module id)
    rw [refused] at hdelete
    cases hdelete
  | insert done =>
    obtain ⟨hfree, hobject, hshows⟩ := ShowingStore.insert_ok h done
    exact ⟨_, hshows, .put ⟨rfl, _, done⟩ hfree hobject⟩
  | replaceData done =>
    obtain ⟨hobject, hshows⟩ := ShowingStore.replaceData_ok h hm.keyed done
    obtain ⟨r, hr, rfl⟩ := LawfulReplacement.withData_of_replaceData done
    exact ⟨_, hshows, .of_get h hread (fun _ => rfl) hr rfl rfl (Int.le_max_right _ _) hobject⟩
  | @mutateField module id field change now w t done =>
    by_cases hchanged : w.changed = true
    · obtain ⟨r, hr, hw⟩ := LawfulRecordStore.mutate_of_mutateField done
      obtain ⟨hid, hmodule, hcreated, hupdated, _⟩ := Record.mutate_keeps hw
      exact ⟨_, ShowingStore.mutateField_ok h hm.keyed done hchanged,
        .of_get h hread (fun _ => rfl) hr (Prod.ext hmodule hid) hcreated hupdated
          (Record.isObject_mutate hw)⟩
    · have hsame := LawfulRecordStore.eq_of_unchanged done (Bool.eq_false_iff.mpr hchanged)
      exact ⟨m, hsame ▸ h, .idle fun _ => rfl⟩
  | @delete module id found t done =>
    obtain ⟨t', hdelete, hshows⟩ :=
      ShowingStore.delete_ok h (ShowingStore.get_eq h hread module id)
    rw [done] at hdelete
    cases hdelete
    refine ⟨_, hshows, ?_⟩
    rw [delete_eq_clear]
    exact .clear
  | purge module =>
    refine ⟨_, ShowingStore.purge_ok h module, ?_⟩
    rw [purge_eq_clear]
    exact .clear

end

/-! ## What calls leave -/

/-- A call has put in the record, and no later call removes what is at its place. -/
def PutIn (s : σ) (calls : List StoreCall) (born : Record) : Prop :=
  ∃ before after, calls = before ++ .insert born :: after ∧
    (∃ t, RecordStore.insert (runAll before s).2 born = .ok t) ∧
    ∀ c ∈ after, c.removes born.place = false

theorem PutIn.cons {calls : List StoreCall} {born : Record} (h : PutIn (c.run s).2 calls born) :
    PutIn s (c :: calls) born := by
  obtain ⟨before, after, rfl, hdone, hspared⟩ := h
  exact ⟨c :: before, after, rfl, hdone, hspared⟩

theorem runAll_append (calls later : List StoreCall) (s : σ) :
    (runAll (calls ++ later) s).2 = (runAll later (runAll calls s).2).2 := by
  induction calls generalizing s with
  | nil => rfl
  | cons c rest ih => exact ih _

/-- What calls do to the records that were written to a store: what they do not remove stays, with
the time of its creation and without going back, and whatever is there in the end was there before
or was put in. -/
structure Leave (s : σ) (calls : List StoreCall) (m m' : MemoryStore) : Prop where
  stays (module : ModuleId) (id : RecordId) (r : Record) : m.find? module id = some r →
    (∀ c ∈ calls, c.removes (module, id) = false) →
      ∃ r', m'.find? module id = some r' ∧ r'.createdAt = r.createdAt ∧ r.updatedAt ≤ r'.updatedAt
  comes (module : ModuleId) (id : RecordId) (r' : Record) : m'.find? module id = some r' →
    (∃ r, m.find? module id = some r) ∧ (∀ c ∈ calls, c.removes (module, id) = false) ∨
      ∃ born, PutIn s calls born ∧ born.place = (module, id)

theorem Turn.leave {calls : List StoreCall} {m'' : MemoryStore} (h : Turn s c m m')
    (hrest : Leave (c.run s).2 calls m' m'') : Leave s (c :: calls) m m'' where
  stays module id r hr hspared := by
    obtain ⟨hc, hcalls⟩ := List.forall_mem_cons.mp hspared
    obtain ⟨r', hr', hcreated, hupdated⟩ := h.stays hr hc
    obtain ⟨r'', hr'', hcreated', hupdated'⟩ := hrest.stays module id r' hr' hcalls
    exact ⟨r'', hr'', hcreated'.trans hcreated, Int.le_trans hupdated hupdated'⟩
  comes module id r'' hr'' := by
    rcases hrest.comes module id r'' hr'' with ⟨⟨r', hr'⟩, hcalls⟩ | ⟨born, hborn, hplace⟩
    · rcases h.comes hr' with ⟨hr, hc⟩ | ⟨born, ⟨rfl, hdone⟩, hplace⟩
      · exact Or.inl ⟨hr, List.forall_mem_cons.mpr ⟨hc, hcalls⟩⟩
      · exact Or.inr ⟨born, ⟨[], calls, rfl, hdone, hplace ▸ hcalls⟩, hplace⟩
    · exact Or.inr ⟨born, hborn.cons, hplace⟩

section

variable [ShowingStore σ]

open ShowingStore (Shows Readable view place_view)

/-- A history of calls after each of which the store can be read. -/
def ReadableAlong (calls : List StoreCall) (s : σ) : Prop :=
  ∀ before, before <+: calls → Readable (runAll before s).2

theorem ReadableAlong.split {before after : List StoreCall}
    (h : ReadableAlong (before ++ after) s) :
    ReadableAlong before s ∧ ReadableAlong after (runAll before s).2 := by
  refine ⟨fun calls hcalls => h calls (hcalls.trans (List.prefix_append _ _)),
    fun calls hcalls => ?_⟩
  rw [← runAll_append]
  exact h _ ((List.prefix_append_right_inj before).mpr hcalls)

variable [LawfulRecordStore σ] [LawfulReplacement σ]

/-- What a history of calls leaves. -/
theorem exists_leave {calls : List StoreCall} (h : Shows s m) (hm : m.InShape)
    (hread : ReadableAlong calls s) :
    ∃ m', Shows (runAll calls s).2 m' ∧ m'.InShape ∧ Leave s calls m m' := by
  -- One turn for each call, and the shape carries over to the next.
  induction calls generalizing s m with
  | nil =>
    refine ⟨m, h, hm, fun module id r hr _ => ⟨r, hr, rfl, Int.le_refl _⟩, fun module id r hr => ?_⟩
    exact Or.inl ⟨⟨r, hr⟩, fun _ hc => absurd hc List.not_mem_nil⟩
  | cons c rest ih =>
    obtain ⟨m', hshows, hturn⟩ := (c.does_run s).exists_turn h (hread [] List.nil_prefix) hm
    have hreadRest : ReadableAlong rest (c.run s).2 := fun before hbefore =>
      hread (c :: before) (List.prefix_cons_inj c |>.mpr hbefore)
    obtain ⟨m'', hshows', hm'', hrest⟩ := ih hshows (hturn.inShape hm) hreadRest
    exact ⟨m'', hshows', hm'', hturn.leave hrest⟩

/-- What was written and is not removed is read in the end. -/
theorem exists_kept {calls : List StoreCall} (h : Shows s m) (hm : m.InShape)
    (hread : ReadableAlong calls s) {r : Record} (hr : m.find? module id = some r)
    (hspared : ∀ c ∈ calls, c.removes (module, id) = false) :
    ∃ r', RecordStore.get (runAll calls s).2 module id = .ok (some r') ∧
      r'.place = (module, id) ∧ r'.createdAt = r.createdAt ∧ r.updatedAt ≤ r'.updatedAt := by
  obtain ⟨m', hshows, _, hleave⟩ := exists_leave h hm hread
  obtain ⟨r', hr', hcreated, hupdated⟩ := hleave.stays module id r hr hspared
  obtain ⟨_, hcreatedView, hupdatedView⟩ := ShowingStore.view_keeps (σ := σ) r'
  refine ⟨view σ r', ?_, place_view hr', hcreatedView.trans hcreated, hupdatedView ▸ hupdated⟩
  rw [ShowingStore.get_eq hshows (hread calls (List.prefix_refl calls)), hr']
  rfl

/-- A record that was put in is there as long as it is not removed. -/
theorem exists_of_putIn {calls : List StoreCall} (hempty : Shows s .empty)
    (hread : ReadableAlong calls s) {b : Record} (hb : PutIn s calls b) :
    ∃ r, RecordStore.get (runAll calls s).2 b.module b.id = .ok (some r) ∧
      r.createdAt = b.createdAt ∧ b.updatedAt ≤ r.updatedAt := by
  obtain ⟨before, after, rfl, ⟨t, hinsert⟩, hspared⟩ := hb
  obtain ⟨hreadBefore, hreadInsert⟩ := hread.split
  obtain ⟨m, hshows, hm, _⟩ := exists_leave hempty MemoryStore.inShape_empty hreadBefore
  obtain ⟨hfree, hobject, hshows⟩ := ShowingStore.insert_ok hshows hinsert
  have hm := hm.insert hfree hobject
  have hrun : ((insert b).run (runAll before s).2).2 = t := by
    show (settle _ _ ((RecordStore.insert (runAll before s).2 b).map ((), ·))).2 = t
    rw [hinsert]
    rfl
  have hlast : (runAll (before ++ insert b :: after) s).2 = (runAll after t).2 := by
    rw [runAll_append, runAll, hrun]
  have hreadAfter : ReadableAlong after t := by
    have hsplit : ReadableAlong ([insert b] ++ after) (runAll before s).2 := hreadInsert
    have hsplit := hsplit.split.2
    rwa [runAll, hrun] at hsplit
  have hfound := hm.keyed.find?_of_mem (mem_insertBefore.mpr (Or.inl rfl))
  obtain ⟨r, hr, _, hcreated, hupdated⟩ := exists_kept hshows hm hreadAfter hfound hspared
  exact ⟨r, hlast ▸ hr, hcreated, hupdated⟩

end

end

end StoreCall

/-! ## The history of a store -/

section

variable {σ : Type} [RecordStore σ]

open StoreCall

/-- What a store tells after a history of calls. -/
structure TrueToHistory (start : σ) (calls : List StoreCall) : Prop where
  /-- A record is read at its own place, and its data are an object. -/
  sound (module : ModuleId) (id : RecordId) :
    ∃ found, RecordStore.get (runAll calls start).2 module id = .ok found ∧
      ∀ r ∈ found, r.place = (module, id) ∧ r.data.isObject = true
  /-- There is a record exactly where one was put in and not removed since, and it has the times of
  that one, but for later changes. -/
  live (module : ModuleId) (id : RecordId) :
    (∃ r, RecordStore.get (runAll calls start).2 module id = .ok (some r)) ↔
      ∃ born, PutIn start calls born ∧ born.place = (module, id)
  born (b : Record) : PutIn start calls b →
    ∃ r, RecordStore.get (runAll calls start).2 b.module b.id = .ok (some r) ∧
      r.createdAt = b.createdAt ∧ b.updatedAt ≤ r.updatedAt
  /-- From one moment to a later one a record that is not removed keeps its place and the time of
  its creation, and the time of its last change does not go back. -/
  keeps (earlier later : List StoreCall) : calls = earlier ++ later →
    ∀ module id r, RecordStore.get (runAll earlier start).2 module id = .ok (some r) →
      (∀ c ∈ later, c.removes (module, id) = false) →
        ∃ r', RecordStore.get (runAll calls start).2 module id = .ok (some r') ∧
          r'.place = r.place ∧ r'.createdAt = r.createdAt ∧ r.updatedAt ≤ r'.updatedAt
  /-- A module is listed from its oldest record on, with all its records and no others, and they
  are counted and purged as many as they are. -/
  lists (module : ModuleId) :
    ∃ rs, RecordStore.list (runAll calls start).2 module = .ok rs ∧
      rs.Pairwise (fun a b => a.before b = true) ∧
      (∀ r, r ∈ rs ↔
        r.module = module ∧ RecordStore.get (runAll calls start).2 module r.id = .ok (some r)) ∧
      RecordStore.count (runAll calls start).2 module = rs.length ∧
      (RecordStore.purge (runAll calls start).2 module).1 = rs.length
  /-- A call on one module changes no answer about another. -/
  apart (c : StoreCall) (other : ModuleId) : c.module ≠ other →
    RecordStore.list (c.run (runAll calls start).2).2 other =
        RecordStore.list (runAll calls start).2 other ∧
      RecordStore.count (c.run (runAll calls start).2).2 other =
        RecordStore.count (runAll calls start).2 other ∧
      ∀ id, RecordStore.get (c.run (runAll calls start).2).2 other id =
        RecordStore.get (runAll calls start).2 other id

variable [ModularStore σ] [PurgingStore σ]

open ModularStore (holdings)

/-- A call leaves all other modules alone. -/
theorem StoreCall.Does.holdings_of_ne {c : StoreCall} {s t : σ} (h : c.Does s t) {other : ModuleId}
    (hne : c.module ≠ other) : holdings t other = holdings s other := by
  have hne := hne.symm
  cases h with
  | nothing _ | refused _ => rfl
  | insert done => exact PurgingStore.holdings_insert_of_ne done hne
  | replaceData done => exact PurgingStore.holdings_replaceData_of_ne done hne
  | mutateField done => exact ModularStore.holdings_mutateField_of_ne done hne
  | delete done => exact ModularStore.holdings_delete_of_ne done hne
  | purge module => exact PurgingStore.holdings_purge_of_ne s hne

theorem StoreCall.answers_run_of_ne (c : StoreCall) (s : σ) {other : ModuleId}
    (h : c.module ≠ other) :
    RecordStore.list (c.run s).2 other = RecordStore.list s other ∧
      RecordStore.count (c.run s).2 other = RecordStore.count s other ∧
      ∀ id, RecordStore.get (c.run s).2 other id = RecordStore.get s other id := by
  have hsame := (c.does_run s).holdings_of_ne h
  refine ⟨?_, ?_, fun id => ?_⟩
  · rw [ModularStore.list_eq, ModularStore.list_eq, hsame]
  · rw [PurgingStore.count_eq, PurgingStore.count_eq, hsame]
  · rw [ModularStore.get_eq, ModularStore.get_eq, hsame]

variable [ShowingStore σ]

open ShowingStore (Shows Readable view before_view place_view exists_of_get)

theorem exists_list {s : σ} {m : MemoryStore} (h : Shows s m) (hread : Readable s) (hm : m.InShape)
    (module : ModuleId) :
    ∃ rs, RecordStore.list s module = .ok rs ∧ rs.Pairwise (fun a b => a.before b = true) ∧
      (∀ r, r ∈ rs ↔ r.module = module ∧ RecordStore.get s module r.id = .ok (some r)) ∧
      RecordStore.count s module = rs.length ∧ (RecordStore.purge s module).1 = rs.length := by
  have hcount : RecordStore.count s module = ((m.list module).map (view σ)).length := by
    rw [List.length_map, ShowingStore.count_eq h]
  have hpurge : (RecordStore.purge s module).1 = RecordStore.count s module := by
    rw [PurgingStore.purge_eq, PurgingStore.count_eq]
  refine ⟨_, ShowingStore.list_eq h hread module, ?_, fun r => ?_, hcount, hpurge.trans hcount⟩
  · refine List.pairwise_map.mpr ((hm.list_ordered module).imp fun {a b} hab => ?_)
    rwa [before_view]
  · constructor
    · intro hr
      obtain ⟨old, hold, rfl⟩ := List.mem_map.mp hr
      obtain ⟨hmem, hmodule⟩ := List.mem_filter.mp hold
      obtain rfl := of_decide_eq_true hmodule
      have hfound := hm.keyed.find?_of_mem hmem
      obtain ⟨hmodule, hid⟩ := Prod.mk.inj (place_view (σ := σ) hfound)
      refine ⟨hmodule, ?_⟩
      rw [ShowingStore.get_eq h hread, hid, hfound]
      rfl
    · rintro ⟨_, hr⟩
      obtain ⟨old, hold, hview⟩ := exists_of_get h hread hr
      rw [hview]
      refine List.mem_map_of_mem (List.mem_filter.mpr ⟨MemoryStore.mem_of_find? hold, ?_⟩)
      exact decide_eq_true (MemoryStore.key_of_find? hold).1

variable [LawfulRecordStore σ] [LawfulReplacement σ]

/-- A store that was empty at first tells its history. -/
theorem trueToHistory {start : σ} {calls : List StoreCall} (hstart : Shows start .empty)
    (hread : ReadableAlong calls start) : TrueToHistory start calls := by
  obtain ⟨m, hshows, hm, hleave⟩ := exists_leave hstart MemoryStore.inShape_empty hread
  have hlast : Readable (runAll calls start).2 := hread calls (List.prefix_refl calls)
  refine
    { sound := fun module id => ?_
      live := fun module id => ⟨?_, ?_⟩
      born := fun b => exists_of_putIn hstart hread
      keeps := ?_
      lists := exists_list hshows hlast hm
      apart := fun c _ => c.answers_run_of_ne (runAll calls start).2 }
  · refine ⟨_, ShowingStore.get_eq hshows hlast module id, fun r hr => ?_⟩
    obtain ⟨old, hold, rfl⟩ := Option.mem_map.mp hr
    have hmem := MemoryStore.mem_of_find? hold
    exact ⟨place_view hold,
      (ShowingStore.isObject_view hshows hlast hmem).trans (hm.objects _ hmem)⟩
  · rintro ⟨r, hr⟩
    obtain ⟨old, hold, _⟩ := exists_of_get hshows hlast hr
    rcases hleave.comes _ _ _ hold with ⟨⟨_, hnothing⟩, _⟩ | hborn
    · cases hnothing
    · exact hborn
  · rintro ⟨b, hb, hplace⟩
    obtain ⟨rfl, rfl⟩ := Prod.mk.inj hplace
    obtain ⟨r, hr, _⟩ := exists_of_putIn hstart hread hb
    exact ⟨r, hr⟩
  · rintro earlier later rfl module id r hr hspared
    obtain ⟨hreadEarlier, hreadLater⟩ := hread.split
    obtain ⟨m₁, hshows₁, hm₁, _⟩ := exists_leave hstart MemoryStore.inShape_empty hreadEarlier
    obtain ⟨old, hold, rfl⟩ :=
      exists_of_get hshows₁ (hreadEarlier _ (List.prefix_refl earlier)) hr
    obtain ⟨_, hcreatedView, hupdatedView⟩ := ShowingStore.view_keeps (σ := σ) old
    rw [runAll_append, place_view hold, hcreatedView, hupdatedView]
    exact exists_kept hshows₁ hm₁ hreadLater hold hspared

end

/-- Both stores tell their histories after any calls, failing ones included and whatever the clock
shows: the one as it is, the other as long as the data of its rows lie no deeper than they are
read. -/
theorem stores_are_true_to_their_history (calls : List StoreCall) :
    TrueToHistory MemoryStore.empty calls ∧
      ((∀ before, before <+: calls → (StoreCall.runAll before TableStore.empty).2.Shallow) →
        TrueToHistory TableStore.empty calls) :=
  ⟨trueToHistory rfl fun _ _ => trivial, fun hshallow => trueToHistory rfl hshallow⟩

/-- The pen keeps the time at which it was put in, though the clock shows earlier times later. -/
theorem stores_are_true_to_their_history_on_sample :
    (∀ before, before <+: Sample.calls →
        (StoreCall.runAll before TableStore.empty).2.Shallow) ∧
      ∃ r, RecordStore.get (StoreCall.runAll Sample.calls TableStore.empty).2
          (Sample.pen .null).module (Sample.pen .null).id = .ok (some r) ∧
        r.createdAt = 4 ∧ 4 ≤ r.updatedAt := by
  have hrows : ∀ n, (StoreCall.runAll (Sample.calls.take n) TableStore.empty).2.rows = [] ∨
      ∃ name, (StoreCall.runAll (Sample.calls.take n) TableStore.empty).2.rows =
        [Row.ofRecord (Sample.pen (Sample.named name))]
    | 0 => Or.inl rfl
    | 1 => Or.inr ⟨"pen", by decide +kernel⟩
    | 2 => Or.inr ⟨"pen", by decide +kernel⟩
    | 3 => Or.inr ⟨"ink", by decide +kernel⟩
    | 4 => Or.inr ⟨"ink", by decide +kernel⟩
    | n + 5 => by
      rw [List.take_of_length_le (by simp [Sample.calls])]
      exact Or.inr ⟨"ink", by decide +kernel⟩
  have hshallow : ∀ before, before <+: Sample.calls →
      (StoreCall.runAll before TableStore.empty).2.Shallow := by
    intro before hbefore row hrow
    rw [List.prefix_iff_eq_take.mp hbefore] at hrow
    rcases hrows before.length with h | ⟨name, h⟩
    · rw [h] at hrow
      cases hrow
    · rw [h] at hrow
      obtain rfl := List.mem_singleton.mp hrow
      exact ⟨Sample.named name, rfl, show 1 ≤ 127 by omega⟩
  have hput : StoreCall.PutIn TableStore.empty Sample.calls (Sample.pen (Sample.named "pen")) :=
    ⟨[], Sample.calls.tail, rfl, ⟨_, rfl⟩, by decide +kernel⟩
  obtain ⟨r, hr, hcreated, hupdated⟩ :=
    ((stores_are_true_to_their_history Sample.calls).2 hshallow).born
      (Sample.pen (Sample.named "pen")) hput
  exact ⟨hshallow, r, hr, hcreated, hupdated⟩

end RecordRules
