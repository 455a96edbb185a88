/-
The state of a run.

A run evaluates one root event and everything that it propagates to.  Events wait in a queue; an
event that is evaluated is marked as visited and does not come back.  An event that still waits
takes in the newer state of its record instead of being queued twice.  What the run does to events
and to records is noted in its history.
-/
import RecordRules.Evaluation.Binding
import RecordRules.Evaluation.Config

namespace RecordRules

/-- What tells events of a run apart: the module, the record and what happened. -/
abbrev EventKey := ModuleId × RecordId × Event

/-- An event that is to be evaluated. -/
structure Trigger where
  module : ModuleId
  event : Event
  /-- The record as the event left it, or as it was when it was deleted. -/
  record : Record
  depth : Nat

def Trigger.key (t : Trigger) : EventKey := (t.module, t.record.id, t.event)

/-- What stays the same throughout a run. -/
structure Setting where
  registry : Registry
  config : Config
  clock : Clock
  maxDepth : Nat

/-- Something that a run did. -/
inductive Happening where
  | evaluated (t : Trigger)
  /-- A field of a record of a module was given another value. -/
  | changed (module : ModuleId) (field : String) (write : FieldWrite)
  | deleted (module : ModuleId) (record : Record)

/-- The state of a run. -/
structure Run (σ : Type) where
  store : σ
  outcomes : List Outcome
  warnings : List Warning
  queue : List Trigger
  visited : List EventKey
  timedOut : Bool
  looks : Nat
  writes : Nat
  history : List Happening

namespace Run

variable {σ : Type}

def start (store : σ) : Run σ :=
  { store, outcomes := [], warnings := [], queue := [], visited := [], timedOut := false
    looks := 0, writes := 0, history := [] }

def emit (run : Run σ) (o : Outcome) : Run σ := { run with outcomes := run.outcomes ++ [o] }

def warn (run : Run σ) (w : Warning) : Run σ := { run with warnings := run.warnings ++ [w] }

def note (run : Run σ) (h : Happening) : Run σ := { run with history := run.history ++ [h] }

/-- Looks at the clock, unless the time is known to be up. -/
def lookAtClock (s : Setting) (run : Run σ) : Run σ :=
  if run.timedOut then run
  else
    let late := s.config.timeoutMs ≤ s.clock.elapsed run.looks run.writes
    let run := { run with looks := run.looks + 1 }
    if late then { run with timedOut := true }.warn (.timedOut s.config.timeoutMs) else run

/-- A waiting event gets the newer state of its record. -/
def absorb (t : Trigger) (queue : List Trigger) : List Trigger :=
  queue.map fun u => if u.key = t.key then { u with record := t.record } else u

/-- Queues an event, unless it waits already, lies too deep or has been evaluated. -/
def schedule (s : Setting) (run : Run σ) (t : Trigger) : Run σ :=
  if run.queue.any fun u => u.key = t.key then { run with queue := absorb t run.queue }
  else if s.maxDepth < t.depth then
    run.warn (.cycleLimitExceeded t.module t.record.id t.event t.depth)
  else if run.visited.contains t.key then
    run.warn (.revisitSuppressed t.module t.record.id t.event)
  else { run with queue := run.queue ++ [t] }

def report (run : Run σ) : Report := ⟨run.outcomes, run.warnings⟩

end Run
end RecordRules
