/-
Settings of the rule evaluator, and the clock that it looks at.
-/
import RecordRules.Json.Document

namespace RecordRules

/-- Settings of the rule evaluator. -/
structure Config where
  /-- How far an event may propagate.  Without a limit it is the number of relationships. -/
  maxDepth : Option Nat
  /-- The budget of one root event and all it propagates to, in milliseconds. -/
  timeoutMs : Nat
  /-- Whether increments and decrements over array elements are added up for each target record
  and written once. -/
  coalesces : Bool
deriving DecidableEq

namespace Config

def standard : Config := { maxDepth := none, timeoutMs := 30000, coalesces := false }

def ofJson? (v : Json.Tree) : Option Config := do
  let [maxDepth, timeoutMs, coalesces] ← Json.parts?
    [["maxDepth"], ["timeoutMs"], ["coalesceItemArithmetic"]] v | none
  return {
    maxDepth := ← Json.optional .nat maxDepth
    timeoutMs := ← Json.defaulted standard.timeoutMs .nat timeoutMs
    coalesces := ← Json.defaulted standard.coalesces .bool coalesces }

def toJson (c : Config) : Json :=
  Json.document [
    Json.part "maxDepth" (.orNull (c.maxDepth.map Json.ofNat)),
    Json.part "timeoutMs" (.ofNat c.timeoutMs),
    Json.part "coalesceItemArithmetic" (.bool c.coalesces)]

end Config

/-- What a run sees of the time.  Both readings may be anything; no order is assumed. -/
structure Clock where
  /-- The milliseconds since the start of the run at a look, given the number of looks and of field
  writes before it. -/
  elapsed : (looks writes : Nat) → Nat
  /-- The time of day at a field write, given the number of field writes before it. -/
  now : (writes : Nat) → Int

/-- A clock that stands still but for a number of milliseconds at every field write. -/
def Clock.steady (now : Int) (perWrite : Nat) : Clock :=
  { elapsed := fun _ writes => perWrite * writes, now := fun _ => now }

end RecordRules
