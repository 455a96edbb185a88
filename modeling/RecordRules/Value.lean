/-
Values of a kind.

Records hold JSON, because their shape is settled by data.  `Value.ofJson` reads a JSON value as
one of a given kind, or says why it is none: numbers may come as text, and dates come as timestamps
or plain dates.  `Value.ofPlainJson` reads without a kind, and `Value.toJson` goes back.
-/
import RecordRules.Kind
import RecordRules.Calendar
import RecordRules.Json.Text

namespace RecordRules

/-! ## Errors -/

/-- Why an operation on a value has no result. -/
inductive ValueError where
  | typeMismatch (expected found : String)
  | divisionByZero
  | nonFinite (result : Binary64)
deriving DecidableEq

namespace ValueError

def mismatch (expected : String) (found : Json) : ValueError := typeMismatch expected found.sort

def message : ValueError → String
  | typeMismatch expected found => s!"type mismatch: expected {expected}, found {found}"
  | divisionByZero => "arithmetic error: division by zero"
  | nonFinite result => s!"arithmetic error: non-finite result {result.plainText}"

end ValueError

/-! ## Numbers -/

def Text.number? (s : String) : Option Binary64.Finite :=
  match Binary64.parse? (Text.trim s.toList) with
  | some (.finite x) => some x
  | _ => none

/-- Reads a JSON value as a number.  A text may spell one. -/
def Json.number? : Json → Option Binary64.Finite
  | .number n =>
    match n.toBinary64 with
    | .finite x => some x
    | _ => none
  | .string s => Text.number? s
  | _ => none

/-- Equality of values that also counts equal numbers, written in any way, as equal.  Null equals
nothing but null. -/
def Json.looselyEqual (a b : Json) : Bool :=
  if a == b then true
  else if a.isNull || b.isNull then false
  else
    match a.number?, b.number? with
    | some x, some y => x == y
    | _, _ => false

/-- The greatest whole magnitude up to which no two integers round to the same binary64 number. -/
def maxExactInteger : Nat := 9007199254740991

/-- The JSON number of a finite number: an integer if it is whole and in the exact range. -/
def Json.ofFinite (x : Binary64.Finite) : Json :=
  if x.isWhole ∧ x.truncate.natAbs ≤ maxExactInteger then Json.ofInt x.truncate
  else .number (.float x)

/-- The JSON number of a result of arithmetic, which has to be finite. -/
def Json.ofBinary64 : Binary64 → Except ValueError Json
  | .finite x => .ok (Json.ofFinite x)
  | x => .error (.nonFinite x)

/-! ## Values -/

/-- A value as its kind reads it. -/
inductive Value where
  | null
  | string (s : String)
  | number (x : Binary64.Finite)
  | bool (b : Bool)
  | date (m : Moment)
  | array (items : List Value)
  | object (members : List (String × Value))
deriving Inhabited

namespace Value

mutual

/-- Reads a JSON value without a kind.  Texts stay texts. -/
def ofPlainJson : Json → Value
  | .null => null
  | .bool b => bool b
  | .number n =>
    match n.toBinary64 with
    | .finite x => number x
    | _ => null
  | .string s => string s
  | .array items => array (ofPlainItems items)
  | .object members => object (ofPlainMembers members)

def ofPlainItems : List Json → List Value
  | [] => []
  | v :: rest => ofPlainJson v :: ofPlainItems rest

def ofPlainMembers : List (String × Json) → List (String × Value)
  | [] => []
  | (k, v) :: rest => (k, ofPlainJson v) :: ofPlainMembers rest

end

/-- Reads a JSON value as one of a kind.  Null is a value of every kind. -/
def ofJson (kind : Kind) (json : Json) : Except ValueError Value :=
  match kind, json with
  | _, .null => .ok null
  | .string, .string s => .ok (string s)
  | .number, json =>
    match json.number? with
    | some x => .ok (number x)
    | none => .error (.mismatch kind.name json)
  | .boolean, .bool b => .ok (bool b)
  | .date, .string s =>
    match Moment.parse? s with
    | some m => .ok (date m)
    | none => .error (.mismatch kind.name json)
  | .array, .array items => .ok (array (ofPlainItems items))
  | .object, .object members => .ok (object (ofPlainMembers members))
  | kind, json => .error (.mismatch kind.name json)

mutual

/-- The JSON of a value.  Dates become timestamps in UTC. -/
def toJson : Value → Json
  | null => .null
  | string s => .string s
  | number x => Json.ofFinite x
  | bool b => .bool b
  | date m => .string m.text
  | array items => .array (toJsonItems items)
  | object members => .object (toJsonMembers members)

def toJsonItems : List Value → List Json
  | [] => []
  | v :: rest => toJson v :: toJsonItems rest

def toJsonMembers : List (String × Value) → List (String × Json)
  | [] => []
  | (k, v) :: rest => (k, toJson v) :: toJsonMembers rest

end

/-- The text that shows a value, if there is anything to show. -/
def displayText : Value → Option String
  | null => none
  | string s => some s
  | v =>
    match v.toJson with
    | .string s => some s
    | json => some json.text

end Value
end RecordRules
