/-
Kinds of data.

A data type gives a name to one of six kinds of value, and its kind is fixed for good.
-/
import RecordRules.Text.Blank

namespace RecordRules

/-- What values of a data type look like. -/
inductive Kind where
  | string
  | number
  | boolean
  | date
  | array
  | object
deriving DecidableEq, Inhabited

structure InvalidKind where
  text : String
deriving DecidableEq

def InvalidKind.message (e : InvalidKind) : String := s!"invalid data type kind: {e.text}"

namespace Kind

def name : Kind → String
  | string => "string"
  | number => "number"
  | boolean => "boolean"
  | date => "date"
  | array => "array"
  | object => "object"

def ofName? (s : String) : Option Kind :=
  [string, number, boolean, date, array, object].find? fun k => k.name == s

/-- Reads the name of a kind in any case, with blanks around it; `bool` is short for boolean. -/
def parse (s : String) : Except InvalidKind Kind :=
  let word := Text.lowered (Text.trimmed s)
  match ofName? (if word = "bool" then "boolean" else word) with
  | some k => .ok k
  | none => .error ⟨s⟩

end Kind
end RecordRules
