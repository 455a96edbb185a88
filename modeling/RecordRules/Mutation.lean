/-
Changes of a single field.

A mutation computes the new value of a field from the current one.  Arithmetic reads a missing
value as zero and writes whole results as integers.
-/
import RecordRules.Json.Document
import RecordRules.Value

namespace RecordRules

/-- One change of one field. -/
inductive Mutation where
  | set (value : Json)
  | add (amount : Binary64)
  | multiply (factor : Binary64)
  | divide (divisor : Binary64)

namespace Mutation

/-- The number a field holds.  Missing and null count as zero. -/
def currentNumber : Option Json → Except ValueError Binary64
  | none | some .null => .ok (Binary64.ofInt 0)
  | some value =>
    match value.number? with
    | some x => .ok x
    | none => .error (.mismatch "number" value)

def apply (m : Mutation) (current : Option Json) : Except ValueError Json :=
  match m with
  | set value => .ok value
  | add amount => do Json.ofBinary64 ((← currentNumber current) + amount)
  | multiply factor => do Json.ofBinary64 ((← currentNumber current) * factor)
  | divide divisor =>
    if divisor.isZero then .error .divisionByZero
    else do Json.ofBinary64 ((← currentNumber current) / divisor)

def isArithmetic : Mutation → Bool
  | set _ => false
  | _ => true

/-! ## Documents -/

/-- What kind of mutation a document holds; the amount or the value stands beside it. -/
inductive Operation where
  | set
  | add
  | multiply
  | divide
deriving DecidableEq

def Operation.name : Operation → String
  | set => "set"
  | add => "add"
  | multiply => "multiply"
  | divide => "divide"

def Operation.ofName? (s : String) : Option Operation :=
  [set, add, multiply, divide].find? fun o => o.name == s

def readAmount (v : Option Json.Tree) : Option Binary64 :=
  (Json.required .finite v).map .finite

def ofJson? (v : Json.Tree) : Option Mutation := do
  let [operation, value] ← Json.parts? [["op"], ["value"]] v | none
  match ← Json.required (.choice Operation.ofName?) operation with
  | .set => return set (← Json.required .any value)
  | .add => return add (← readAmount value)
  | .multiply => return multiply (← readAmount value)
  | .divide => return divide (← readAmount value)

/-- An amount as JSON; one that is no number has no written form but null. -/
def amountToJson : Binary64 → Json
  | .finite x => .number (.float x)
  | _ => .null

def toJson (m : Mutation) : Json :=
  let (operation, value) :=
    match m with
    | set value => (Operation.set, value)
    | add amount => (.add, amountToJson amount)
    | multiply factor => (.multiply, amountToJson factor)
    | divide divisor => (.divide, amountToJson divisor)
  Json.document [Json.part "op" (.string operation.name), Json.part "value" value]

end Mutation
end RecordRules
