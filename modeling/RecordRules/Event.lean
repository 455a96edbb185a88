/-
Events in the life of a record.

Every write raises one of three events for the record's module, and rules are listed by event.
-/

namespace RecordRules

/-- What happened to a record. -/
inductive Event where
  | create
  | update
  | delete
deriving DecidableEq, Inhabited

structure UnknownEvent where
  text : String
deriving DecidableEq

def UnknownEvent.message (e : UnknownEvent) : String := s!"unknown event type: {e.text}"

namespace Event

def name : Event → String
  | create => "onCreate"
  | update => "onUpdate"
  | delete => "onDelete"

def ofName? (s : String) : Option Event :=
  if s = "onCreate" then some create
  else if s = "onUpdate" then some update
  else if s = "onDelete" then some delete
  else none

/-- Reads the name of an event, in full or without its first word. -/
def parse (s : String) : Except UnknownEvent Event :=
  if s = "onCreate" ∨ s = "create" then .ok create
  else if s = "onUpdate" ∨ s = "update" then .ok update
  else if s = "onDelete" ∨ s = "delete" then .ok delete
  else .error ⟨s⟩

end Event
end RecordRules
