/-
Deletions that spread.

Where all rules on deletions are plain cascades, the deletion of a record spreads along a relation
between the records of the start: a rule selects a record for one that is deleted.  The run works
through this graph breadth first.  Nothing is ever read on a record that it has changed, so what a
rule selects in the shrunken store is what it selects among the records of the start, as far as
these are still there.
-/
import RecordRules.Proofs.Evaluation.Propagation
import RecordRules.Proofs.Evaluation.Selection

namespace RecordRules

open Relation

/-! ## The relation -/

/-- All rules on deletions delete, read no source, and have targets that are selected one by one. -/
def Registry.OnlyCascades (registry : Registry) : Prop :=
  ∀ module, ∀ r ∈ registry.relationshipsFrom module, ∀ rule ∈ r.rules.onDelete,
    rule.action = .cascadeDelete ∧ rule.source = none ∧ rule.binding.getD r.binding ≠ .sole

/-- A rule of a relationship selects a record for one that is deleted. -/
def Rule.Hits (registry : Registry) (deleted : Record) (r : Relationship) (rule : Rule)
    (target : Record) : Prop :=
  registry.hasModule r.target = true ∧ target.module = r.target ∧ ∃ element,
    (rule.binding.getD r.binding).ResolvedOn registry deleted element ∧
      (rule.binding.getD r.binding).Selects registry deleted element target

/-- The deletion of a record deletes another record of a store. -/
def Cascades (registry : Registry) (store : MemoryStore) (deleted target : Record) : Prop :=
  target ∈ store.records ∧ ∃ r ∈ registry.relationshipsFrom deleted.module,
    ∃ rule ∈ r.rules.onDelete, rule.Hits registry deleted r target

/-! ## Outcomes that name a record -/

/-- The module that the relationship of an outcome leads to. -/
def Registry.targetOf? (registry : Registry) (o : Outcome) : Option ModuleId :=
  (registry.relationshipsFrom o.module)[o.relationshipIndex]?.map (·.target)

/-- An outcome tells that a rule deleted a record. -/
structure Outcome.Names (registry : Registry) (o : Outcome) (r : Record) : Prop where
  applied : o.isApplied = true
  action : o.action = .cascadeDelete
  record : o.targetRecord = some r.id
  module : registry.targetOf? o = some r.module

/-- Exactly one outcome of a list names a record. -/
def NamedOnce (registry : Registry) (os : List Outcome) (r : Record) : Prop :=
  ∃ before o after, os = before ++ o :: after ∧ o.Names registry r ∧
    (∀ o' ∈ before, ¬o'.Names registry r) ∧ ∀ o' ∈ after, ¬o'.Names registry r

section

variable {registry : Registry} {os : List Outcome} {o : Outcome} {r r' : Record}

theorem Outcome.Names.place_eq (h : o.Names registry r) (h' : o.Names registry r') :
    r.place = r'.place :=
  Prod.ext (Option.some.inj (h.module.symm.trans h'.module))
    (Option.some.inj (h.record.symm.trans h'.record))

theorem NamedOnce.append (h : NamedOnce registry os r) (ho : ¬o.Names registry r) :
    NamedOnce registry (os ++ [o]) r := by
  obtain ⟨before, o', after, rfl, hnames, hbefore, hafter⟩ := h
  refine ⟨before, o', after ++ [o], by simp, hnames, hbefore, fun o'' ho'' => ?_⟩
  rcases List.mem_append.mp ho'' with hold | hnew
  · exact hafter o'' hold
  · rw [List.mem_singleton.mp hnew]
    exact ho

theorem namedOnce_append (h : ∀ o' ∈ os, ¬o'.Names registry r) (ho : o.Names registry r) :
    NamedOnce registry (os ++ [o]) r :=
  ⟨os, o, [], rfl, ho, h, List.forall_mem_nil _⟩

end

/-! ## Deleting from a store -/

theorem MemoryStore.Keyed.mem_delete {m : MemoryStore} (h : m.Keyed) {r : Record}
    (hr : r ∈ m.records) (r' : Record) :
    r' ∈ (m.delete r.module r.id).2.records ↔ r' ∈ m.records ∧ r' ≠ r := by
  refine List.mem_filter.trans (and_congr_right fun hr' => ?_)
  rw [decide_eq_true_iff, not_iff_not]
  constructor
  · rintro ⟨hmodule, hid⟩
    exact List.inj_on_of_nodup_map h hr' hr (Prod.ext hmodule hid)
  · rintro rfl
    exact ⟨rfl, rfl⟩

theorem MemoryStore.length_delete_lt {m : MemoryStore} {r : Record} (hr : r ∈ m.records) :
    (m.delete r.module r.id).2.records.length < m.records.length :=
  List.length_filter_lt_length_iff_exists.mpr ⟨r, hr, by simp⟩

theorem Miss.isApplied_status {o : Outcome} {miss : Miss} (h : o.status = miss.status) :
    o.isApplied = false := by
  unfold Outcome.isApplied
  rw [h]
  cases miss <;> rfl

theorem Outcome.not_names_of_isApplied {registry : Registry} {o : Outcome} {r : Record}
    (h : o.isApplied = false) : ¬o.Names registry r := by
  intro hnames
  have happlied := hnames.applied
  rw [h] at happlied
  cases happlied

namespace Run

/-! ## What holds on the way -/

/-- What holds at every point of a run that spreads the deletion of a root record of a store. -/
structure Cascading (s : Setting) (store : MemoryStore) (root : Record) (run : Run MemoryStore) :
    Prop where
  left : run.store.records.Sublist store.records
  gone : root ∉ run.store.records
  /-- Events are deletions, and an event lies no deeper than there are deleted records before it. -/
  events : ∀ t ∈ run.events, t.event = .delete ∧ t.module = t.record.module ∧
    t.record ∈ store.records ∧ t.record ∉ run.store.records ∧
    t.depth + run.store.records.length < store.records.length
  visited : run.evaluated.map Trigger.key = run.visited
  removed : ∀ r ∈ store.records, r ∉ run.store.records →
    ReflTransGen (Cascades s.registry store) root r ∧ ∃ t ∈ run.events, t.record = r
  named : ∀ r ∈ store.records, r ∉ run.store.records → r ≠ root →
    NamedOnce s.registry run.outcomes r
  unnamed : ∀ r ∈ store.records, r ∈ run.store.records ∨ r = root →
    ∀ o ∈ run.outcomes, ¬o.Names s.registry r
  late : run.timedOut = true → .timedOut s.config.timeoutMs ∈ run.warnings

/-- A run goes on with no more records, no fewer events and no more time. -/
structure Narrows (run run' : Run MemoryStore) : Prop where
  store : ∀ r ∈ run'.store.records, r ∈ run.store.records
  events : ∀ t ∈ run.events, t ∈ run'.events
  time : run'.timedOut = false → run.timedOut = false

/-- A run goes on, and unless the time runs out, no record that is left is one of a sort. -/
structure Clears (s : Setting) (store : MemoryStore) (root : Record) (sort : Record → Prop)
    (run run' : Run MemoryStore) : Prop where
  cascading : run'.Cascading s store root
  narrows : run.Narrows run'
  cleared : run'.timedOut = false → ∀ r ∈ run'.store.records, ¬sort r

section

variable {s : Setting} {store : MemoryStore} {root : Record} {run run' run'' : Run MemoryStore}
  {P Q : Record → Prop}

theorem Narrows.trans (h : run.Narrows run') (h' : run'.Narrows run'') : run.Narrows run'' :=
  ⟨fun r hr => h.store r (h'.store r hr), fun t ht => h'.events t (h.events t ht),
    fun htime => h.time (h'.time htime)⟩

theorem Cascading.clears_nothing (h : run.Cascading s store root) :
    run.Clears s store root (fun _ => False) run :=
  ⟨h, ⟨fun _ hr => hr, fun _ ht => ht, id⟩, fun _ _ _ => id⟩

theorem Clears.mono (h : run.Clears s store root P run') (hsub : ∀ r, Q r → P r) :
    run.Clears s store root Q run' :=
  ⟨h.cascading, h.narrows, fun htime r hr hq => h.cleared htime r hr (hsub r hq)⟩

theorem Clears.trans (h : run.Clears s store root P run') (h' : run'.Clears s store root Q run'') :
    run.Clears s store root (fun r => P r ∨ Q r) run'' := by
  refine ⟨h'.cascading, h.narrows.trans h'.narrows, fun htime r hr hsort => ?_⟩
  rcases hsort with hp | hq
  · exact h.cleared (h'.narrows.time htime) r (h'.narrows.store r hr) hp
  · exact h'.cleared htime r hr hq

/-- What a run clears for each item of a list it clears for the list. -/
theorem Clears.foldl {α : Type} {f : Run MemoryStore → α → Run MemoryStore}
    {sort : α → Record → Prop} {t : Trigger} {l : List α}
    (h : ∀ a ∈ l, ∀ run : Run MemoryStore, run.Cascading s store root → t ∈ run.events →
      run.Clears s store root (sort a) (f run a))
    (hrun : run.Cascading s store root) (ht : t ∈ run.events) :
    run.Clears s store root (fun r => ∃ a ∈ l, sort a r) (l.foldl f run) := by
  induction l generalizing run with
  | nil => exact hrun.clears_nothing.mono fun r ⟨a, ha, _⟩ => absurd ha List.not_mem_nil
  | cons a rest ih =>
    obtain ⟨ha, hrest⟩ := List.forall_mem_cons.mp h
    have hfirst := ha run hrun ht
    refine (hfirst.trans (ih hrest hfirst.cascading (hfirst.narrows.events t ht))).mono ?_
    rintro r ⟨b, hb, hsort⟩
    rcases List.mem_cons.mp hb with rfl | hb
    · exact Or.inl hsort
    · exact Or.inr ⟨b, hb, hsort⟩

/-! ## Going on without a deletion -/

/-- An outcome that names no record does no harm. -/
theorem Cascading.emit (h : run.Cascading s store root) {o : Outcome} (ho : o.isApplied = false) :
    run.Clears s store root (fun _ => False) (run.emit o) := by
  refine ⟨⟨h.left, h.gone, h.events, h.visited, h.removed, fun r hr hgone hne => ?_,
    fun r hr hleft o' ho' => ?_, h.late⟩, ⟨fun _ hr => hr, fun _ ht => ht, id⟩, fun _ _ _ => id⟩
  · exact (h.named r hr hgone hne).append (Outcome.not_names_of_isApplied ho)
  · rcases List.mem_append.mp ho' with hold | hnew
    · exact h.unnamed r hr hleft o' hold
    · rw [List.mem_singleton.mp hnew]
      exact Outcome.not_names_of_isApplied ho

theorem Cascading.warn (h : run.Cascading s store root) (w : Warning) :
    run.Clears s store root (fun _ => False) (run.warn w) :=
  ⟨⟨h.left, h.gone, h.events, h.visited, h.removed, h.named, h.unnamed,
    fun hlate => List.mem_append_left _ (h.late hlate)⟩, ⟨fun _ hr => hr, fun _ ht => ht, id⟩,
    fun _ _ _ => id⟩

theorem Cascading.lookAtClock (h : run.Cascading s store root) :
    run.Clears s store root (fun _ => False) (run.lookAtClock s) := by
  unfold Run.lookAtClock
  split
  · exact h.clears_nothing
  · next hearly =>
    have hearly := Bool.eq_false_iff.mpr hearly
    dsimp only
    split
    · refine ⟨⟨h.left, h.gone, h.events, h.visited, h.removed, h.named, h.unnamed, fun _ => ?_⟩,
        ⟨fun _ hr => hr, fun _ ht => ht, fun _ => hearly⟩, fun _ _ _ => id⟩
      exact List.mem_append_right _ (List.mem_singleton_self _)
    · refine ⟨⟨h.left, h.gone, h.events, h.visited, h.removed, h.named, h.unnamed, fun hlate => ?_⟩,
        ⟨fun _ hr => hr, fun _ ht => ht, fun _ => hearly⟩, fun _ _ _ => id⟩
      exact h.late hlate

theorem Cascading.take (h : run.Cascading s store root) {t : Trigger} {rest : List Trigger}
    (hqueue : run.queue = t :: rest) : (run.take t rest).Cascading s store root := by
  have hevents := events_take hqueue
  refine ⟨h.left, h.gone, ?_, ?_, ?_, h.named, h.unnamed, h.late⟩
  · rw [hevents]
    exact h.events
  · rw [evaluated_take, List.map_append, h.visited]
    rfl
  · rw [hevents]
    exact h.removed

/-! ## Deleting a record -/

theorem Cascading.keyed (h : run.Cascading s store root) (hkeyed : store.Keyed) :
    run.store.Keyed :=
  List.Nodup.sublist (h.left.map _) hkeyed

/-- A record that is there is not that of an event. -/
theorem Cascading.key_ne (h : run.Cascading s store root) (hkeyed : store.Keyed) {r : Record}
    (hr : r ∈ run.store.records) {t : Trigger} (ht : t ∈ run.events) :
    t.key ≠ (r.module, r.id, .delete) := by
  intro hkey
  obtain ⟨_, hmodule, hstart, hgone, _⟩ := h.events t ht
  obtain ⟨hm, hkey⟩ := Prod.mk.inj hkey
  obtain ⟨hid, _⟩ := Prod.mk.inj hkey
  have hplace : t.record.place = r.place := Prod.ext (hmodule.symm.trans hm) hid
  have heq : t.record = r :=
    List.inj_on_of_nodup_map hkeyed hstart (h.left.subset hr) hplace
  exact hgone (heq ▸ hr)

/-- A run goes on by the deletion of a record, which joins the queue and is told by an outcome. -/
structure Deletes (run : Run MemoryStore) (r : Record) (depth : Nat) (o : Outcome)
    (run' : Run MemoryStore) : Prop where
  store : run'.store = (run.store.delete r.module r.id).2
  events : run'.events = run.events ++ [⟨r.module, .delete, r, depth⟩]
  evaluated : run'.evaluated = run.evaluated
  visited : run'.visited = run.visited
  outcomes : run'.outcomes = run.outcomes ++ [o]
  warnings : run'.warnings = run.warnings
  timedOut : run'.timedOut = run.timedOut

/-- A record that is there has no event, and its deletion does not lie too deep. -/
theorem Cascading.wrote_deletes (h : run.Cascading s store root) (hkeyed : store.Keyed)
    (hdepth : store.records.length ≤ s.maxDepth) {r : Record} (hr : r ∈ run.store.records)
    {t : Trigger} (ht : t ∈ run.events) (o : Outcome) :
    run.Deletes r (t.depth + 1) o (run.wrote s (run.store.delete r.module r.id).2 run.writes
      (.deleted r.module r) ⟨r.module, .delete, r, t.depth + 1⟩ o) := by
  have hcauses : Happening.Causes (.deleted r.module r)
      ⟨r.module, .delete, r, t.depth + 1⟩ := ⟨rfl, rfl, rfl⟩
  have hevaluated := evaluated_wrote s run (run.store.delete r.module r.id).2 run.writes hcauses o
  rcases wrote_cases s run (run.store.delete r.module r.id).2 run.writes (.deleted r.module r)
      ⟨r.module, .delete, r, t.depth + 1⟩ o with
    ⟨hwaits, _⟩ | ⟨_, hdeep, _⟩ | ⟨_, _, hseen, _⟩ | ⟨_, _, _, hqueue, hwarnings⟩
  · obtain ⟨u, hu, hkey⟩ := List.mem_map.mp hwaits
    exact absurd hkey (h.key_ne hkeyed hr (List.mem_append_right _ hu))
  · obtain ⟨_, _, _, _, hbound⟩ := h.events t ht
    have hpos := List.length_pos_of_mem hr
    have hdeep : s.maxDepth < t.depth + 1 := hdeep
    omega
  · rw [← h.visited] at hseen
    obtain ⟨u, hu, hkey⟩ := List.mem_map.mp hseen
    exact absurd hkey (h.key_ne hkeyed hr (List.mem_append_left _ hu))
  · refine ⟨wrote_store .., ?_, hevaluated, wrote_visited .., wrote_outcomes .., hwarnings,
      wrote_timedOut ..⟩
    rw [Run.events, hqueue, hevaluated, Run.events, List.append_assoc]

namespace Deletes

variable {r : Record} {t : Trigger} {o : Outcome}

theorem mem_store (hd : run.Deletes r (t.depth + 1) o run') (h : run.Cascading s store root)
    (hkeyed : store.Keyed) (hr : r ∈ run.store.records) (r' : Record) :
    r' ∈ run'.store.records ↔ r' ∈ run.store.records ∧ r' ≠ r := by
  rw [hd.store]
  exact (h.keyed hkeyed).mem_delete hr r'

theorem gone_or_eq (hd : run.Deletes r (t.depth + 1) o run') (h : run.Cascading s store root)
    (hkeyed : store.Keyed) (hr : r ∈ run.store.records) {r' : Record}
    (hgone : r' ∉ run'.store.records) : r' ∉ run.store.records ∨ r' = r := by
  rw [hd.mem_store h hkeyed hr, not_and, not_not] at hgone
  by_cases hthere : r' ∈ run.store.records
  · exact Or.inr (hgone hthere)
  · exact Or.inl hthere

/-- Each event is still that of a record that is gone, and lies no deeper than there are such. -/
theorem forall_events (hd : run.Deletes r (t.depth + 1) o run') (h : run.Cascading s store root)
    (hkeyed : store.Keyed) (ht : t ∈ run.events) (hr : r ∈ run.store.records) :
    ∀ u ∈ run'.events, u.event = .delete ∧ u.module = u.record.module ∧ u.record ∈ store.records ∧
      u.record ∉ run'.store.records ∧
        u.depth + run'.store.records.length < store.records.length := by
  have hmem := hd.mem_store h hkeyed hr
  have hlength : run'.store.records.length < run.store.records.length := by
    rw [hd.store]
    exact MemoryStore.length_delete_lt hr
  obtain ⟨_, _, _, _, hbound⟩ := h.events t ht
  rw [hd.events]
  intro u hu
  rcases List.mem_append.mp hu with hu | hu
  · obtain ⟨hevent, hmodule, hstart, hgone, hbound⟩ := h.events u hu
    exact ⟨hevent, hmodule, hstart, fun hthere => hgone ((hmem _).mp hthere).1, by omega⟩
  · rw [List.mem_singleton.mp hu]
    exact ⟨rfl, rfl, h.left.subset hr, fun hthere => ((hmem r).mp hthere).2 rfl,
      by dsimp only; omega⟩

/-- The deletion of a record that another one cascades to keeps what holds on the way. -/
theorem cascading (hd : run.Deletes r (t.depth + 1) o run') (h : run.Cascading s store root)
    (hkeyed : store.Keyed) (ht : t ∈ run.events) (hr : r ∈ run.store.records)
    (hhit : Cascades s.registry store t.record r) (ho : o.Names s.registry r) :
    run'.Cascading s store root := by
  have hmem := hd.mem_store h hkeyed hr
  have hother (r' : Record) (hr' : r' ∈ store.records) (hne : r' ≠ r) : ¬o.Names s.registry r' :=
    fun hnames => hne
      (List.inj_on_of_nodup_map hkeyed hr' (h.left.subset hr) (hnames.place_eq ho))
  refine ⟨?_, fun hroot => h.gone ((hmem root).mp hroot).1, hd.forall_events h hkeyed ht hr, ?_,
    fun r' hr' hgone => ?_, fun r' hr' hgone hne => ?_, fun r' hr' hleft o' ho' => ?_, ?_⟩
  · rw [hd.store]
    exact List.filter_sublist.trans h.left
  · rw [hd.visited, hd.evaluated]
    exact h.visited
  · rw [hd.events]
    rcases hd.gone_or_eq h hkeyed hr hgone with hold | rfl
    · obtain ⟨hreach, u, hu, hrecord⟩ := h.removed r' hr' hold
      exact ⟨hreach, u, List.mem_append_left _ hu, hrecord⟩
    · obtain ⟨_, _, hstart, hgone, _⟩ := h.events t ht
      exact ⟨(h.removed t.record hstart hgone).1.tail hhit, _,
        List.mem_append_right _ (List.mem_singleton_self _), rfl⟩
  · rw [hd.outcomes]
    by_cases heq : r' = r
    · rw [heq]
      exact namedOnce_append (h.unnamed r (h.left.subset hr) (Or.inl hr)) ho
    · have hold := (hd.gone_or_eq h hkeyed hr hgone).resolve_right heq
      exact (h.named r' hr' hold hne).append (hother r' hr' heq)
  · rw [hd.outcomes] at ho'
    have hne : r' ≠ r := by
      rcases hleft with hthere | rfl
      · exact ((hmem r').mp hthere).2
      · exact fun heq => h.gone (heq ▸ hr)
    rcases List.mem_append.mp ho' with hold | hnew
    · exact h.unnamed r' hr' (hleft.imp_left fun hthere => ((hmem r').mp hthere).1) o' hold
    · rw [List.mem_singleton.mp hnew]
      exact hother r' hr' hne
  · rw [hd.timedOut, hd.warnings]
    exact h.late

end Deletes

/-- The outcome of a deletion that names a record of the start names the deleted one. -/
theorem Cascading.deleted (h : run.Cascading s store root) (hkeyed : store.Keyed)
    (hdepth : store.records.length ≤ s.maxDepth) {t : Trigger} (ht : t ∈ run.events) {r : Record}
    (hr : r ∈ run.store.records) (hhit : Cascades s.registry store t.record r) {o : Outcome}
    (ho : o.Names s.registry r) :
    run.Clears s store root (· = r) (run.wrote s (run.store.delete r.module r.id).2 run.writes
      (.deleted r.module r) ⟨r.module, .delete, r, t.depth + 1⟩ o) := by
  have hd := h.wrote_deletes hkeyed hdepth hr ht o
  have hmem := hd.mem_store h hkeyed hr
  refine ⟨hd.cascading h hkeyed ht hr hhit ho, ⟨fun r' hr' => ((hmem r').mp hr').1, ?_, ?_⟩,
    fun _ r' hr' => ((hmem r').mp hr').2⟩
  · rw [hd.events]
    exact fun u hu => List.mem_append_left _ hu
  · rw [hd.timedOut]
    exact id

end

end Run

/-! ## Running a cascade -/

section

variable {s : Setting} {store : MemoryStore} {root : Record} {run : Run MemoryStore} {mode : Mode}
  {t : Trigger} {c : Scope}

theorem Scope.InPlace.names (h : c.InPlace s mode t) (hdelete : c.rule.action = .cascadeDelete)
    {r : Record} (hmodule : r.module = c.target) (itemIndex : Option Nat) :
    (c.outcome itemIndex (some r.id) (.applied true)).Names s.registry r := by
  refine ⟨rfl, hdelete, rfl, ?_⟩
  have hplace := h.relationship
  rw [← h.trigger] at hplace
  show (s.registry.relationshipsFrom c.trigger.module)[c.relationshipIndex]?.map _ = some r.module
  rw [hplace, hmodule]
  rfl

/-- What a rule hits is what its binding selects in the module that is there. -/
def Scope.Hits (c : Scope) (registry : Registry) (target : Record) : Prop :=
  c.rule.Hits registry c.trigger.record c.relationship target

/-- What one application of a rule is about. -/
def Scope.Selects (c : Scope) (registry : Registry) (a : Application) (target : Record) : Prop :=
  target.module = c.target ∧
    c.binding.Selects registry c.trigger.record (a.item.map (·.element)) target

variable (hkeyed : store.Keyed) (hdepth : store.records.length ≤ s.maxDepth)
  (hplace : c.InPlace s mode t) (hdelete : c.rule.action = .cascadeDelete)
  (hsource : c.rule.source = none) (hsole : c.binding ≠ .sole)
  (hrule : c.rule ∈ c.relationship.rules.onDelete)

include hkeyed hdepth hplace hdelete hrule

theorem deleteRecord_clears (h : run.Cascading s store root) (ht : t ∈ run.events) {r : Record}
    (hr : r ∈ store.records) (hhit : c.Hits s.registry r) (itemIndex : Option Nat) :
    run.Clears s store root (· = r) ((deleteRecord s c run r.id).2.emit
      (c.outcome itemIndex (some r.id) (deleteRecord s c run r.id).1)) := by
  have hmodule := hhit.2.1
  have htarget : c.target = r.module := hmodule.symm
  have heq : RecordStore.delete run.store c.target r.id =
      .ok (run.store.find? r.module r.id, (run.store.delete r.module r.id).2) := by
    rw [htarget]
    rfl
  unfold deleteRecord
  rw [heq]
  cases hfind : run.store.find? r.module r.id with
  | none =>
    have hsame : (run.store.delete r.module r.id).2 = run.store :=
      LawfulRecordStore.eq_of_delete_none (hfind ▸ (htarget ▸ heq))
    have hgone : r ∉ run.store.records := fun hthere => by
      rw [(h.keyed hkeyed).find?_of_mem hthere] at hfind
      cases hfind
    have hemit := h.emit (o := c.outcome itemIndex (some r.id)
      (.skipped (.notFound (.record r.id c.target)))) rfl
    dsimp only
    rw [hsame]
    exact ⟨hemit.cascading, hemit.narrows, fun _ r' hr' heq => hgone (heq ▸ hr')⟩
  | some found =>
    obtain ⟨hthere, hplaced⟩ := And.intro (MemoryStore.mem_of_find? hfind)
      (MemoryStore.key_of_find? hfind)
    have hfound : found = r :=
      List.inj_on_of_nodup_map hkeyed (h.left.subset hthere) hr
        (Prod.ext hplaced.1 hplaced.2)
    rw [hfound] at hthere
    have hcascades : Cascades s.registry store t.record r := by
      obtain ⟨_, hhome, _⟩ := h.events t ht
      refine ⟨hr, c.relationship, ?_, c.rule, hrule, hplace.trigger ▸ hhit⟩
      rw [← hhome]
      exact List.mem_of_getElem? hplace.relationship
    have hnames := hplace.names hdelete hmodule itemIndex
    have hdeleted := h.deleted hkeyed hdepth ht hthere hcascades hnames
    rw [hfound, htarget, hplace.trigger]
    exact hdeleted

theorem actOnAll_clears (operand : Option Json) (itemIndex : Option Nat) (targets : List Record)
    (htargets : ∀ r ∈ targets, r ∈ store.records ∧ c.Hits s.registry r)
    (h : run.Cascading s store root) (ht : t ∈ run.events) :
    run.Clears s store root (· ∈ targets) (actOnAll s c none operand itemIndex targets run) := by
  induction targets generalizing run with
  | nil => exact h.clears_nothing.mono fun r hr => absurd hr List.not_mem_nil
  | cons r rest ih =>
    obtain ⟨⟨hr, hhit⟩, hrest⟩ := List.forall_mem_cons.mp htargets
    unfold actOnAll
    rw [act_deletes hdelete]
    have hfirst := deleteRecord_clears hkeyed hdepth hplace hdelete hrule h ht hr hhit itemIndex
    refine (hfirst.trans (ih hrest hfirst.cascading (hfirst.narrows.events t ht))).mono ?_
    exact fun r' hr' => List.mem_cons.mp hr'

include hsole

/-- One application deletes what the binding selects for its element. -/
theorem applyOnce_clears (source : Option Source) (a : Application)
    (hhome : s.registry.hasModule c.target = true)
    (hresolved : c.binding.ResolvedOn s.registry c.trigger.record (a.item.map (·.element)))
    (h : run.Cascading s store root) (ht : t ∈ run.events) :
    run.Clears s store root (c.Selects s.registry a) (applyOnce s c none source run a) := by
  have hneeds : c.rule.action.needsOperand = false := by rw [hdelete]; rfl
  have htargets (r : Record) : (∃ ts, c.binding.targets s.registry run.store c.target
        c.trigger.record (a.item.map (·.element)) = .ok ts ∧ r ∈ ts) ↔
      r ∈ run.store.records ∧ c.Selects s.registry a r :=
    (h.keyed hkeyed).mem_targets hsole
  have hoperand : ¬(c.rule.action.needsOperand && (c.operandOf source a).isNone) = true := by
    rw [hneeds, Bool.false_and]
    exact Bool.false_ne_true
  cases hfound : c.binding.targets s.registry run.store c.target c.trigger.record
      (a.item.map (·.element)) with
  | error miss =>
    rw [applyOnce_error hoperand hfound]
    have hemit := h.emit (o := c.outcome (a.item.map (·.index)) none miss.status)
      (Miss.isApplied_status rfl)
    refine ⟨hemit.cascading, hemit.narrows, fun _ r hr hselects => ?_⟩
    obtain ⟨ts, hts, _⟩ := (htargets r).mpr ⟨hr, hselects⟩
    rw [hfound] at hts
    cases hts
  | ok targets =>
    rw [applyOnce_ok hoperand hfound]
    have hall (r : Record) (hr : r ∈ targets) : r ∈ store.records ∧ c.Hits s.registry r := by
      obtain ⟨hthere, hmodule, hselects⟩ := (htargets r).mp ⟨targets, hfound, hr⟩
      exact ⟨h.left.subset hthere, hhome, hmodule, _, hresolved, hselects⟩
    have hclears := actOnAll_clears hkeyed hdepth hplace hdelete hrule
      (c.operandOf source a) (a.item.map (·.index)) targets hall h ht
    refine ⟨hclears.cascading, hclears.narrows, fun htime r hr hselects => ?_⟩
    obtain ⟨ts, hts, hmem⟩ := (htargets r).mpr ⟨hclears.narrows.store r hr, hselects⟩
    rw [hfound] at hts
    cases hts
    exact hclears.cleared htime r hr hmem

include hsource

theorem applyRule_clears (hhome : s.registry.hasModule c.target = true)
    (h : run.Cascading s store root) (ht : t ∈ run.events) :
    run.Clears s store root (c.Hits s.registry) (applyRule s c run) := by
  have hfields : c.fields = s.registry.listFields c.trigger.record.module := by
    obtain ⟨_, hmodule, _⟩ := h.events t ht
    rw [hplace.fields, hmodule, hplace.trigger]
  have htarget : c.targetField s.registry = .ok none := by
    unfold Scope.targetField
    rw [hdelete]
    rfl
  have happlied (r : Record) (hhit : c.Hits s.registry r) :
      ∃ source applications, c.applications = .ok (source, applications) ∧
        ∃ a ∈ applications, c.Selects s.registry a r := by
    obtain ⟨_, hmodule, element, hresolved, hselects⟩ := hhit
    obtain ⟨source, applications, happlications, a, ha, rfl⟩ :=
      Scope.applications_of_resolvedOn hsource hfields hresolved hselects.parse_key
    exact ⟨source, applications, happlications, a, ha, hmodule, hselects⟩
  generalize hrun : applyRule s c run = run'
  cases applyRule_applies hrun with
  | unknown hother => cases hdelete.symm.trans hother
  | noField _ hmiss => cases htarget.symm.trans hmiss
  | noApplications _ _ hmiss =>
    refine (h.emit (Miss.isApplied_status rfl)).mono fun r hhit => ?_
    obtain ⟨source, applications, hok, _⟩ := happlied r hhit
    cases hmiss.symm.trans hok
  | noItems _ _ hnone =>
    refine (h.emit rfl).mono fun r hhit => ?_
    obtain ⟨source, applications, hok, a, ha, _⟩ := happlied r hhit
    cases hnone.symm.trans hok
    cases ha
  | sums _ hfield => cases htarget.symm.trans hfield
  | @each _ source applications _ hfield hok =>
    cases htarget.symm.trans hfield
    have hfold : run.Clears s store root (fun r => ∃ a ∈ applications, c.Selects s.registry a r)
        (applications.foldl (applyOnce s c none source) run) :=
      Run.Clears.foldl (fun a ha run h ht => applyOnce_clears hkeyed hdepth hplace hdelete hsole
        hrule source a hhome (Scope.resolvedOn_of_applications hsource hfields hok ha) h ht) h ht
    refine hfold.mono fun r hhit => ?_
    obtain ⟨source', applications', hok', hselected⟩ := happlied r hhit
    cases hok.symm.trans hok'
    exact hselected

end

/-! ## Going through the schema -/

section

variable {s : Setting} {store : MemoryStore} {root : Record} {run : Run MemoryStore} {mode : Mode}
  {t : Trigger} (hkeyed : store.Keyed) (hdepth : store.records.length ≤ s.maxDepth)
  (hcascades : s.registry.OnlyCascades)

include hkeyed hdepth hcascades

theorem runRule_clears {c : Scope} (hplace : c.InPlace s mode t) (h : run.Cascading s store root)
    (ht : t ∈ run.events) : run.Clears s store root (c.Hits s.registry) (runRule s c run) := by
  obtain ⟨hevent, hmodule, _⟩ := h.events t ht
  have hrule : c.rule ∈ c.relationship.rules.onDelete := by
    have hrule := List.mem_of_getElem? hplace.rule
    rw [hevent] at hrule
    exact hrule
  obtain ⟨hdelete, hsource, hsole⟩ := hcascades t.module c.relationship
    (List.mem_of_getElem? hplace.relationship) c.rule hrule
  have hlook := h.lookAtClock
  have ht' := hlook.narrows.events t ht
  generalize hrun : runRule s c run = run'
  cases runRule_runs hrun with
  | late hlate =>
    have hemit := hlook.cascading.emit (o := c.outcome none none (.skipped .timeout)) rfl
    refine ⟨hemit.cascading, hlook.narrows.trans hemit.narrows, fun htime => ?_⟩
    rw [hemit.narrows.time htime] at hlate
    cases hlate
  | applied _ hhome =>
    refine (hlook.trans (applyRule_clears hkeyed hdepth hplace hdelete hsource hsole hrule hhome
      hlook.cascading ht')).mono fun r hhit => Or.inr hhit
  | gone _ hgone =>
    refine (hlook.trans (hlook.cascading.emit rfl)).mono fun r hhit => ?_
    cases hhit.1.symm.trans hgone

theorem runRules_clears (hmode : mode ≠ .checks) {relationshipIndex : Nat} {r : Relationship}
    (hplace : (s.registry.relationshipsFrom t.module)[relationshipIndex]? = some r)
    {index : Nat} {rules : List Rule} (hrules : (r.rules.get t.event).drop index = rules)
    (h : run.Cascading s store root) (ht : t ∈ run.events) :
    run.Clears s store root (fun target => ∃ rule ∈ rules, rule.Hits s.registry t.record r target)
      (runRules s mode t (s.registry.listFields t.module) relationshipIndex r index rules run) := by
  induction rules generalizing index run with
  | nil => exact h.clears_nothing.mono fun _ ⟨_, hrule, _⟩ => absurd hrule List.not_mem_nil
  | cons rule rest ih =>
    obtain ⟨hrule, hrest⟩ := getElem?_of_drop_cons hrules
    obtain ⟨hevent, _⟩ := h.events t ht
    have hruns : mode.runs rule.action = true := by
      have hmem := List.mem_of_getElem? hrule
      rw [hevent] at hmem
      obtain ⟨hdelete, _⟩ := hcascades t.module r (List.mem_of_getElem? hplace) rule hmem
      rw [hdelete]
      cases mode with
      | checks => exact absurd rfl hmode
      | everything => rfl
      | afterChecks => rfl
    unfold runRules
    rw [if_pos hruns]
    have hfirst := runRule_clears hkeyed hdepth hcascades
      (c := ⟨t, relationshipIndex, r, s.registry.listFields t.module, index, rule⟩)
      ⟨rfl, hplace, rfl, hrule, hruns⟩ h ht
    refine (hfirst.trans (ih hrest hfirst.cascading (hfirst.narrows.events t ht))).mono ?_
    rintro target ⟨rule', hrule', hhit⟩
    rcases List.mem_cons.mp hrule' with rfl | hrule'
    · exact Or.inl hhit
    · exact Or.inr ⟨rule', hrule', hhit⟩

theorem runRelationship_clears (hmode : mode ≠ .checks) {index : Nat} {r : Relationship}
    (hplace : (s.registry.relationshipsFrom t.module)[index]? = some r)
    (h : run.Cascading s store root) (ht : t ∈ run.events) :
    run.Clears s store root
      (fun target => ∃ rule ∈ r.rules.onDelete, rule.Hits s.registry t.record r target)
      (runRelationship s mode t (s.registry.listFields t.module) index r run) := by
  obtain ⟨hevent, _⟩ := h.events t ht
  unfold runRelationship
  dsimp only
  have hrules : r.rules.get t.event = r.rules.onDelete := by rw [hevent]; rfl
  rw [← hrules]
  split
  · exact runRules_clears hkeyed hdepth hcascades hmode hplace rfl h ht
  · have hwarn := h.warn (.danglingTarget t.module index r.target)
    exact (hwarn.trans (runRules_clears hkeyed hdepth hcascades hmode hplace rfl hwarn.cascading
      ht)).mono fun _ => Or.inr

theorem runRelationships_clears (hmode : mode ≠ .checks) {index : Nat}
    {relationships : List Relationship}
    (hplaces : (s.registry.relationshipsFrom t.module).drop index = relationships)
    (h : run.Cascading s store root) (ht : t ∈ run.events) :
    run.Clears s store root (fun target => ∃ r ∈ relationships, ∃ rule ∈ r.rules.onDelete,
        rule.Hits s.registry t.record r target)
      (runRelationships s mode t (s.registry.listFields t.module) index relationships run) := by
  induction relationships generalizing index run with
  | nil => exact h.clears_nothing.mono fun _ ⟨_, hr, _⟩ => absurd hr List.not_mem_nil
  | cons r rest ih =>
    obtain ⟨hplace, hrest⟩ := getElem?_of_drop_cons hplaces
    have hfirst := runRelationship_clears hkeyed hdepth hcascades hmode hplace h ht
    unfold runRelationships
    refine (hfirst.trans (ih hrest hfirst.cascading (hfirst.narrows.events t ht))).mono ?_
    rintro target ⟨r', hr', hhit⟩
    rcases List.mem_cons.mp hr' with rfl | hr'
    · exact Or.inl hhit
    · exact Or.inr ⟨r', hr', hhit⟩

/-- Evaluating a deletion deletes the records that it cascades to. -/
theorem runTrigger_clears (hmode : mode ≠ .checks) (h : run.Cascading s store root)
    (ht : t ∈ run.events) :
    run.Clears s store root (Cascades s.registry store t.record) (runTrigger s mode t run) := by
  obtain ⟨_, hmodule, _⟩ := h.events t ht
  refine (runRelationships_clears hkeyed hdepth hcascades hmode rfl h ht).mono ?_
  rintro target ⟨_, hhit⟩
  rw [hmodule]
  exact hhit

/-! ## Going through the queue -/

/-- Unless the time is up, the evaluated deletions have deleted all that they cascade to. -/
def Run.Exhausted (registry : Registry) (store : MemoryStore) (run : Run MemoryStore) : Prop :=
  run.timedOut = false → ∀ t ∈ run.evaluated, ∀ r ∈ run.store.records,
    ¬Cascades registry store t.record r

theorem drain_cascading {rootMode : Mode} (hmode : rootMode ≠ .checks) (rounds : Nat)
    (h : run.Cascading s store root) (hdone : run.Exhausted s.registry store) :
    (drain s rootMode rounds run).Cascading s store root ∧
      (drain s rootMode rounds run).Exhausted s.registry store := by
  refine drain_keeps s (P := fun run => run.Cascading s store root ∧
    run.Exhausted s.registry store) (fun t rest run hqueue ⟨h, hdone⟩ => ?_) rounds ⟨h, hdone⟩
  have htake := h.take hqueue
  have ht : t ∈ (run.take t rest).events := by
    rw [Run.events_take hqueue]
    exact List.mem_append_right _ (hqueue ▸ List.mem_cons_self)
  have hmode' : modeOf rootMode t ≠ .checks := by
    unfold modeOf
    split
    · exact hmode
    · exact nofun
  have hnext := runTrigger_clears hkeyed hdepth hcascades hmode' htake ht
  refine ⟨hnext.cascading, fun htime u hu r hr hhit => ?_⟩
  rw [evaluated_next] at hu
  rcases List.mem_append.mp hu with hu | hu
  · exact hdone (hnext.narrows.time htime) u hu r (hnext.narrows.store r hr) hhit
  · rw [List.mem_singleton.mp hu] at hhit
    exact hnext.cleared htime r hr hhit

end

/-! ## The deletion of a record -/

section

variable {s : Setting} {store : MemoryStore} {root : Record} {run : Run MemoryStore}

/-- After everything has been evaluated in time, exactly the records are left that the deletion of
the root does not lead to. -/
theorem Run.Cascading.mem_store_iff (h : run.Cascading s store root) (hroot : root ∈ store.records)
    (hdone : run.Exhausted s.registry store) (hqueue : run.queue = [])
    (htime : run.timedOut = false) (r : Record) :
    r ∈ run.store.records ↔
      r ∈ store.records ∧ ¬ReflTransGen (Cascades s.registry store) root r := by
  have hgone (r : Record) (hreach : ReflTransGen (Cascades s.registry store) root r) :
      r ∈ store.records ∧ r ∉ run.store.records := by
    induction hreach with
    | refl => exact ⟨hroot, h.gone⟩
    | tail _ hstep ih =>
      obtain ⟨_, t, ht, hrecord⟩ := h.removed _ ih.1 ih.2
      rw [Run.events, hqueue, List.append_nil] at ht
      refine ⟨hstep.1, fun hthere => hdone htime t ht _ hthere ?_⟩
      rw [hrecord]
      exact hstep
  constructor
  · exact fun hr => ⟨h.left.subset hr, fun hreach => (hgone r hreach).2 hr⟩
  · rintro ⟨hr, hnot⟩
    by_contra hthere
    exact hnot (h.removed r hr hthere).1

/-- The run that follows on the deletion of the root. -/
theorem evaluation_cascading {registry : Registry} {config : Config} {clock : Clock}
    (hkeyed : store.Keyed)
    (hdepth : store.records.length ≤ (Setting.ofRoot registry config clock).maxDepth)
    (hcascades : registry.OnlyCascades) (hroot : root ∈ store.records) :
    let final := evaluation registry config clock (store.delete root.module root.id).2 root.module
      .delete root (some [])
    final.Cascading (.ofRoot registry config clock) store root ∧
      final.Exhausted registry store ∧ final.queue = [] := by
  intro final
  have hmem := hkeyed.mem_delete hroot
  have hgone : root ∉ (store.delete root.module root.id).2.records :=
    fun hthere => ((hmem root).mp hthere).2 rfl
  have hroot_of_gone (r : Record) (hr : r ∈ store.records)
      (hgone : r ∉ (store.delete root.module root.id).2.records) : r = root := by
    by_contra hne
    exact hgone ((hmem r).mpr ⟨hr, hne⟩)
  have hstart : (Run.root (store.delete root.module root.id).2 root.module .delete root
      []).Cascading (.ofRoot registry config clock) store root := by
    refine ⟨List.filter_sublist, hgone, fun t ht => ?_, rfl, fun r hr hgone' => ?_,
      fun r hr hgone' hne => absurd (hroot_of_gone r hr hgone') hne,
      fun _ _ _ => List.forall_mem_nil _, nofun⟩
    · rw [List.mem_singleton.mp ht]
      refine ⟨rfl, rfl, hroot, hgone, ?_⟩
      rw [Nat.zero_add]
      exact MemoryStore.length_delete_lt hroot
    · rw [hroot_of_gone r hr hgone']
      exact ⟨.refl, _, List.mem_singleton_self _, rfl⟩
  have hmode : Mode.ofRoot (some []) ≠ .checks := nofun
  obtain ⟨hfinal, hdone⟩ := drain_cascading (s := .ofRoot registry config clock) hkeyed hdepth
    hcascades hmode (maxEvents registry (store.delete root.module root.id).2) hstart
    fun _ t ht => absurd ht List.not_mem_nil
  exact ⟨hfinal, hdone, evaluation_queue registry config clock _ root.module .delete root (some [])⟩

end

end RecordRules
