/-
What the operations on a run do.

The evaluated events of a run are read off its history.  `Run.schedule` is the only operation that
fills the queue, and `Run.schedule_cases` says all that it can do.
-/
import RecordRules.Evaluation.Evaluator

namespace RecordRules

/-! ## Reading the history -/

namespace Happening

def trigger? : Happening → Option Trigger
  | evaluated t => some t
  | _ => none

/-- The event follows from what was done to its record. -/
def Causes : Happening → Trigger → Prop
  | evaluated _, _ => False
  | changed module _ write, u =>
    write.changed = true ∧ u.module = module ∧ u.event = .update ∧ u.record = write.record
  | deleted module record, u => u.module = module ∧ u.event = .delete ∧ u.record = record

theorem Causes.trigger? {h : Happening} {u : Trigger} (hc : h.Causes u) : h.trigger? = none := by
  cases h with
  | evaluated t => exact hc.elim
  | changed module field write => rfl
  | deleted module record => rfl

theorem Causes.event_ne_create {h : Happening} {u : Trigger} (hc : h.Causes u) :
    u.event ≠ .create := by
  cases h with
  | evaluated t => exact hc.elim
  | changed module field write =>
    rw [hc.2.2.1]
    decide
  | deleted module record =>
    rw [hc.2.1]
    decide

end Happening

namespace Run

variable {σ : Type}

def evaluated (run : Run σ) : List Trigger := run.history.filterMap Happening.trigger?

def current? (run : Run σ) : Option Trigger := run.evaluated.getLast?

theorem evaluated_take (t : Trigger) (rest : List Trigger) (run : Run σ) :
    (run.take t rest).evaluated = run.evaluated ++ [t] := by
  simp [evaluated, take, note, Happening.trigger?]

theorem current?_take (t : Trigger) (rest : List Trigger) (run : Run σ) :
    (run.take t rest).current? = some t := by
  rw [current?, evaluated_take, List.getLast?_concat]

theorem evaluated_congr {run run' : Run σ} (h : run'.history = run.history) :
    run'.evaluated = run.evaluated := by
  rw [evaluated, evaluated, h]

theorem current?_congr {run run' : Run σ} (h : run'.evaluated = run.evaluated) :
    run'.current? = run.current? := by
  rw [current?, current?, h]

/-! ## Keys -/

/-- The keys of the events that were evaluated or wait. -/
def keys (run : Run σ) : List EventKey := run.visited ++ run.queue.map Trigger.key

theorem keys_take {run : Run σ} {t : Trigger} {rest : List Trigger}
    (hqueue : run.queue = t :: rest) : (run.take t rest).keys = run.keys := by
  rw [keys, keys, hqueue]
  simp [take, note]

end Run

/-- The key and the depth of an event that a warning says lay too deep. -/
def Warning.limit? : Warning → Option (EventKey × Nat)
  | .cycleLimitExceeded module record event depth => some ((module, record, event), depth)
  | _ => none

theorem Warning.limit?_eq_some_iff {w : Warning} {k : EventKey} {depth : Nat} :
    w.limit? = some (k, depth) ↔ w = .cycleLimitExceeded k.1 k.2.1 k.2.2 depth := by
  obtain ⟨module, record, event⟩ := k
  cases w <;> simp [limit?, and_assoc]

namespace Run

/-- The keys and the depths of the events that lay too deep. -/
def limits (run : Run σ) : List (EventKey × Nat) := run.warnings.filterMap Warning.limit?

theorem mem_limits_iff {run : Run σ} {k : EventKey} {depth : Nat} :
    (k, depth) ∈ run.limits ↔ .cycleLimitExceeded k.1 k.2.1 k.2.2 depth ∈ run.warnings := by
  simp [limits, Warning.limit?_eq_some_iff]

/-! ## Queueing an event -/

theorem schedule_eq (s : Setting) (run : Run σ) (t : Trigger) :
    ∃ queue warnings, run.schedule s t = { run with queue, warnings } := by
  unfold schedule
  split
  · exact ⟨_, _, rfl⟩
  · split
    · exact ⟨_, _, rfl⟩
    · split
      · exact ⟨_, _, rfl⟩
      · exact ⟨_, _, rfl⟩

@[simp] theorem schedule_store (s : Setting) (run : Run σ) (t : Trigger) :
    (run.schedule s t).store = run.store := by
  obtain ⟨queue, warnings, h⟩ := schedule_eq s run t
  rw [h]

@[simp] theorem schedule_outcomes (s : Setting) (run : Run σ) (t : Trigger) :
    (run.schedule s t).outcomes = run.outcomes := by
  obtain ⟨queue, warnings, h⟩ := schedule_eq s run t
  rw [h]

@[simp] theorem schedule_visited (s : Setting) (run : Run σ) (t : Trigger) :
    (run.schedule s t).visited = run.visited := by
  obtain ⟨queue, warnings, h⟩ := schedule_eq s run t
  rw [h]

@[simp] theorem schedule_timedOut (s : Setting) (run : Run σ) (t : Trigger) :
    (run.schedule s t).timedOut = run.timedOut := by
  obtain ⟨queue, warnings, h⟩ := schedule_eq s run t
  rw [h]

@[simp] theorem schedule_looks (s : Setting) (run : Run σ) (t : Trigger) :
    (run.schedule s t).looks = run.looks := by
  obtain ⟨queue, warnings, h⟩ := schedule_eq s run t
  rw [h]

@[simp] theorem schedule_history (s : Setting) (run : Run σ) (t : Trigger) :
    (run.schedule s t).history = run.history := by
  obtain ⟨queue, warnings, h⟩ := schedule_eq s run t
  rw [h]

/-- An event that is queued is absorbed by one that waits, is cut off with a warning, or joins the
queue at its end. -/
theorem schedule_cases (s : Setting) (run : Run σ) (t : Trigger) :
    (t.key ∈ run.queue.map Trigger.key ∧
        run.schedule s t = { run with queue := absorb t run.queue }) ∨
      (t.key ∉ run.queue.map Trigger.key ∧ s.maxDepth < t.depth ∧
        run.schedule s t =
          run.warn (.cycleLimitExceeded t.module t.record.id t.event t.depth)) ∨
      (t.key ∉ run.queue.map Trigger.key ∧ t.depth ≤ s.maxDepth ∧ t.key ∈ run.visited ∧
        run.schedule s t = run.warn (.revisitSuppressed t.module t.record.id t.event)) ∨
      (t.key ∉ run.queue.map Trigger.key ∧ t.depth ≤ s.maxDepth ∧ t.key ∉ run.visited ∧
        run.schedule s t = { run with queue := run.queue ++ [t] }) := by
  have hwaits : (run.queue.any fun u => u.key = t.key) = true ↔
      t.key ∈ run.queue.map Trigger.key := by
    simp
  unfold schedule
  by_cases hw : t.key ∈ run.queue.map Trigger.key
  · left
    exact ⟨hw, if_pos (hwaits.mpr hw)⟩
  · right
    rw [if_neg fun h => hw (hwaits.mp h)]
    by_cases hd : s.maxDepth < t.depth
    · left
      exact ⟨hw, hd, if_pos hd⟩
    · right
      rw [if_neg hd]
      by_cases hv : t.key ∈ run.visited
      · left
        exact ⟨hw, Nat.le_of_not_lt hd, hv, if_pos (List.contains_iff_mem.mpr hv)⟩
      · right
        exact ⟨hw, Nat.le_of_not_lt hd, hv, if_neg fun h => hv (List.contains_iff_mem.mp h)⟩

/-! ## Absorbing a newer state -/

theorem map_key_absorb (t : Trigger) (queue : List Trigger) :
    (absorb t queue).map Trigger.key = queue.map Trigger.key := by
  unfold absorb
  rw [List.map_map]
  refine List.map_congr_left fun u _ => ?_
  rw [Function.comp_apply]
  split
  · next h =>
    have hid : t.record.id = u.record.id := (congrArg (fun k => k.2.1) h).symm
    show (u.module, t.record.id, u.event) = (u.module, u.record.id, u.event)
    rw [hid]
  · rfl

/-- An event that waits after absorbing waited before, or has the new state of its record. -/
theorem mem_absorb {t u : Trigger} {queue : List Trigger} (h : u ∈ absorb t queue) :
    (u ∈ queue ∧ u.key ≠ t.key) ∨
      (u.key = t.key ∧ u.record = t.record ∧ ∃ v ∈ queue, v.key = t.key ∧ u.depth = v.depth) := by
  obtain ⟨v, hv, rfl⟩ := List.mem_map.mp h
  by_cases hkey : v.key = t.key
  · right
    have hid : t.record.id = v.record.id := (congrArg (fun k => k.2.1) hkey).symm
    rw [if_pos hkey]
    refine ⟨?_, rfl, v, hv, hkey, rfl⟩
    rw [← hkey]
    show (v.module, t.record.id, v.event) = (v.module, v.record.id, v.event)
    rw [hid]
  · left
    rw [if_neg hkey]
    exact ⟨hv, hkey⟩

theorem mem_absorb_of_ne {t u : Trigger} {queue : List Trigger} (hu : u ∈ queue)
    (hkey : u.key ≠ t.key) : u ∈ absorb t queue :=
  List.mem_map.mpr ⟨u, hu, if_neg hkey⟩

/-- If an event of a key waits, then after absorbing one waits with the new state. -/
theorem exists_mem_absorb {t : Trigger} {queue : List Trigger}
    (h : t.key ∈ queue.map Trigger.key) :
    ∃ u ∈ absorb t queue, u.key = t.key ∧ u.record = t.record := by
  rw [← map_key_absorb t] at h
  obtain ⟨u, hu, hkey⟩ := List.mem_map.mp h
  refine ⟨u, hu, hkey, ?_⟩
  rcases mem_absorb hu with ⟨_, hne⟩ | ⟨_, hrecord, _⟩
  · exact absurd hkey hne
  · exact hrecord

/-! ## Looking at the clock -/

/-- Looking at the clock changes nothing but the count of looks, or finds that the time is up. -/
theorem lookAtClock_cases (s : Setting) (run : Run σ) :
    (∃ looks, run.lookAtClock s = { run with looks }) ∨
      ∃ looks, run.timedOut = false ∧ run.lookAtClock s =
        { run with
          looks
          timedOut := true
          warnings := run.warnings ++ [.timedOut s.config.timeoutMs] } := by
  unfold lookAtClock
  split
  · exact Or.inl ⟨run.looks, rfl⟩
  · next hearly =>
    dsimp only
    split
    · exact Or.inr ⟨_, Bool.eq_false_iff.mpr hearly, rfl⟩
    · exact Or.inl ⟨_, rfl⟩

/-- Looking at the clock may use up the time, and adds at most a warning. -/
theorem lookAtClock_eq (s : Setting) (run : Run σ) :
    ∃ looks timedOut ws,
      run.lookAtClock s = { run with looks, timedOut, warnings := run.warnings ++ ws } := by
  rcases lookAtClock_cases s run with ⟨looks, h⟩ | ⟨looks, _, h⟩
  · exact ⟨looks, run.timedOut, [], by rw [h, List.append_nil]⟩
  · exact ⟨looks, true, _, h⟩

/-! ## Doing nothing to records -/

/-- A run goes on without touching records or events.  What it reports are no changes, and it warns
of no event that lies too deep. -/
structure Idles (run run' : Run σ) : Prop where
  store : run'.store = run.store
  queue : run'.queue = run.queue
  visited : run'.visited = run.visited
  history : run'.history = run.history
  outcomes : ∃ os, run'.outcomes = run.outcomes ++ os ∧ ∀ o ∈ os, o.status ≠ .applied true
  warnings : ∃ ws, run'.warnings = run.warnings ++ ws
  limits : run'.limits = run.limits

theorem Idles.of_lookAtClock (s : Setting) (run : Run σ) : run.Idles (run.lookAtClock s) := by
  rcases lookAtClock_cases s run with ⟨looks, h⟩ | ⟨looks, _, h⟩
  · rw [h]
    exact ⟨rfl, rfl, rfl, rfl, ⟨[], by simp, by simp⟩, ⟨[], by simp⟩, rfl⟩
  · rw [h]
    exact ⟨rfl, rfl, rfl, rfl, ⟨[], by simp, by simp⟩, ⟨_, rfl⟩,
      by simp [Run.limits, Warning.limit?]⟩

theorem Idles.of_warn (run : Run σ) {w : Warning} (h : w.limit? = none) : run.Idles (run.warn w) :=
  ⟨rfl, rfl, rfl, rfl, ⟨[], by simp [warn], by simp⟩, ⟨[w], rfl⟩, by simp [Run.limits, warn, h]⟩

theorem Idles.of_emit (run : Run σ) (writes : Nat) {o : Outcome} (h : o.status ≠ .applied true) :
    run.Idles ({ run with writes }.emit o) :=
  ⟨rfl, rfl, rfl, rfl, ⟨[o], rfl, by simpa using h⟩, ⟨[], by simp [emit]⟩, rfl⟩

/-! ## Changing a record -/

/-- The run after a change to a record, which is noted, queued as an event and reported. -/
def wrote (s : Setting) (run : Run σ) (store : σ) (writes : Nat) (h : Happening) (u : Trigger)
    (o : Outcome) : Run σ :=
  (({ run with store, writes }.note h).schedule s u).emit o

section

variable (s : Setting) (run : Run σ) (store : σ) (writes : Nat) (h : Happening) (u : Trigger)
  (o : Outcome)

@[simp] theorem wrote_store : (run.wrote s store writes h u o).store = store := by
  simp [wrote, note, emit]

@[simp] theorem wrote_outcomes :
    (run.wrote s store writes h u o).outcomes = run.outcomes ++ [o] := by
  simp [wrote, note, emit]

@[simp] theorem wrote_visited : (run.wrote s store writes h u o).visited = run.visited := by
  simp [wrote, note, emit]

@[simp] theorem wrote_history : (run.wrote s store writes h u o).history = run.history ++ [h] := by
  simp [wrote, note, emit]

@[simp] theorem wrote_timedOut : (run.wrote s store writes h u o).timedOut = run.timedOut := by
  simp [wrote, note, emit]

theorem evaluated_wrote {h : Happening} {u : Trigger} (hc : h.Causes u) (o : Outcome) :
    (run.wrote s store writes h u o).evaluated = run.evaluated := by
  simp [evaluated, hc.trigger?]

theorem wrote_cases :
    (u.key ∈ run.queue.map Trigger.key ∧
        (run.wrote s store writes h u o).queue = absorb u run.queue ∧
        (run.wrote s store writes h u o).warnings = run.warnings) ∨
      (u.key ∉ run.queue.map Trigger.key ∧ s.maxDepth < u.depth ∧
        (run.wrote s store writes h u o).queue = run.queue ∧
        (run.wrote s store writes h u o).warnings =
          run.warnings ++ [.cycleLimitExceeded u.module u.record.id u.event u.depth]) ∨
      (u.key ∉ run.queue.map Trigger.key ∧ u.depth ≤ s.maxDepth ∧ u.key ∈ run.visited ∧
        (run.wrote s store writes h u o).queue = run.queue ∧
        (run.wrote s store writes h u o).warnings =
          run.warnings ++ [.revisitSuppressed u.module u.record.id u.event]) ∨
      (u.key ∉ run.queue.map Trigger.key ∧ u.depth ≤ s.maxDepth ∧ u.key ∉ run.visited ∧
        (run.wrote s store writes h u o).queue = run.queue ++ [u] ∧
        (run.wrote s store writes h u o).warnings = run.warnings) := by
  unfold wrote
  rcases schedule_cases s ({ run with store, writes }.note h) u with
    ⟨hwaits, heq⟩ | ⟨hfree, hdeep, heq⟩ | ⟨hfree, hdepth, hseen, heq⟩ | ⟨hfree, hdepth, hnew, heq⟩
  · rw [heq]
    exact Or.inl ⟨hwaits, rfl, rfl⟩
  · rw [heq]
    exact Or.inr (Or.inl ⟨hfree, hdeep, rfl, rfl⟩)
  · rw [heq]
    exact Or.inr (Or.inr (Or.inl ⟨hfree, hdepth, hseen, rfl, rfl⟩))
  · rw [heq]
    exact Or.inr (Or.inr (Or.inr ⟨hfree, hdepth, hnew, rfl, rfl⟩))

theorem wrote_warnings : ∃ ws, (run.wrote s store writes h u o).warnings = run.warnings ++ ws := by
  rcases wrote_cases s run store writes h u o with
    ⟨_, _, hw⟩ | ⟨_, _, _, hw⟩ | ⟨_, _, _, _, hw⟩ | ⟨_, _, _, _, hw⟩
  · exact ⟨[], by rw [hw, List.append_nil]⟩
  · exact ⟨_, hw⟩
  · exact ⟨_, hw⟩
  · exact ⟨[], by rw [hw, List.append_nil]⟩

/-- The event of a change adds its key at the end or leaves the keys as they are. -/
theorem keys_wrote :
    (run.wrote s store writes h u o).keys = run.keys ∨
      (u.key ∉ run.keys ∧ (run.wrote s store writes h u o).keys = run.keys ++ [u.key]) := by
  unfold keys
  rw [wrote_visited]
  rcases wrote_cases s run store writes h u o with
    ⟨_, hq, _⟩ | ⟨_, _, hq, _⟩ | ⟨_, _, _, hq, _⟩ | ⟨hfree, _, hnew, hq, _⟩
  · rw [hq, map_key_absorb]
    exact Or.inl rfl
  · rw [hq]
    exact Or.inl rfl
  · rw [hq]
    exact Or.inl rfl
  · rw [hq, List.map_append, ← List.append_assoc]
    refine Or.inr ⟨?_, rfl⟩
    rw [List.mem_append, not_or]
    exact ⟨hnew, hfree⟩

/-- An event that waits after a change waited before, or carries what the change left. -/
theorem mem_queue_wrote {v : Trigger} (hv : v ∈ (run.wrote s store writes h u o).queue) :
    (v ∈ run.queue ∧ v.key ≠ u.key) ∨ (v.key = u.key ∧ v.record = u.record) := by
  have hold : u.key ∉ run.queue.map Trigger.key → v ∈ run.queue →
      v ∈ run.queue ∧ v.key ≠ u.key := by
    intro hfree hv
    exact ⟨hv, fun hkey => hfree (hkey ▸ List.mem_map_of_mem hv)⟩
  rcases wrote_cases s run store writes h u o with
    ⟨_, hq, _⟩ | ⟨hfree, _, hq, _⟩ | ⟨hfree, _, _, hq, _⟩ | ⟨hfree, _, _, hq, _⟩
  · rw [hq] at hv
    rcases mem_absorb hv with h | ⟨hkey, hrecord, _⟩
    · exact Or.inl h
    · exact Or.inr ⟨hkey, hrecord⟩
  · rw [hq] at hv
    exact Or.inl (hold hfree hv)
  · rw [hq] at hv
    exact Or.inl (hold hfree hv)
  · rw [hq] at hv
    rcases List.mem_append.mp hv with hv | hv
    · exact Or.inl (hold hfree hv)
    · rw [List.mem_singleton.mp hv]
      exact Or.inr ⟨rfl, rfl⟩

theorem mem_queue_wrote_of_ne {v : Trigger} (hv : v ∈ run.queue) (hkey : v.key ≠ u.key) :
    v ∈ (run.wrote s store writes h u o).queue := by
  rcases wrote_cases s run store writes h u o with
    ⟨_, hq, _⟩ | ⟨_, _, hq, _⟩ | ⟨_, _, _, hq, _⟩ | ⟨_, _, _, hq, _⟩
  · rw [hq]
    exact mem_absorb_of_ne hv hkey
  · rw [hq]
    exact hv
  · rw [hq]
    exact hv
  · rw [hq]
    exact List.mem_append_left _ hv

/-- The event of a change waits with what the change left, or there is a warning. -/
theorem wrote_event :
    (∃ v ∈ (run.wrote s store writes h u o).queue, v.key = u.key ∧ v.record = u.record) ∨
      .cycleLimitExceeded u.module u.record.id u.event u.depth ∈
        (run.wrote s store writes h u o).warnings ∨
      (u.key ∈ run.visited ∧ .revisitSuppressed u.module u.record.id u.event ∈
        (run.wrote s store writes h u o).warnings) := by
  rcases wrote_cases s run store writes h u o with
    ⟨hwaits, hq, _⟩ | ⟨_, _, _, hw⟩ | ⟨_, _, hseen, _, hw⟩ | ⟨_, _, _, hq, _⟩
  · rw [hq]
    exact Or.inl (exists_mem_absorb hwaits)
  · rw [hw]
    exact Or.inr (Or.inl (List.mem_append_right _ (List.mem_singleton_self _)))
  · rw [hw]
    exact Or.inr (Or.inr ⟨hseen, List.mem_append_right _ (List.mem_singleton_self _)⟩)
  · rw [hq]
    exact Or.inl ⟨u, List.mem_append_right _ (List.mem_singleton_self _), rfl, rfl⟩

end

end Run
end RecordRules
