/-
Operands of rules, and what an action does with them.
-/
import RecordRules.Evaluation.Report

namespace RecordRules

/-- A reason for which a rule, or one application of it, stops early. -/
inductive Miss where
  | skip (reason : SkipReason)
  | fail (e : RuleError)

def Miss.status : Miss → Status
  | skip reason => .skipped reason
  | fail e => .failed e

/-- A store that does not find a record makes a rule skip; its other refusals make it fail. -/
def Miss.ofStore : StoreError → Miss
  | .notFound id => skip (.notFound (.written id))
  | .value e => fail (.value e)
  | e => fail (.store e)

/-! ## Literal operands -/

/-- The operand of a rule that names no source.  A delta goes before a value, and increments and
decrements take one if there is neither.  The value of a check is its operator. -/
def Rule.literal (r : Rule) : Option Json :=
  match r.action with
  | .validate => r.delta
  | .increment | .decrement => (r.delta.or r.value).or (some (.ofInt 1))
  | _ => r.delta.or r.value

/-! ## Mutations -/

def operandNumber (operand : Json) : Except RuleError Binary64 :=
  match operand.number? with
  | some x => .ok x
  | none => .error (.value (.mismatch "number" operand))

/-- What an increment or a decrement adds. -/
def signedAmount (a : Action) (operand : Json) : Except RuleError Binary64 := do
  let n ← operandNumber operand
  return if a = .decrement then -n else n

def mutationFor (a : Action) (operand : Json) : Except RuleError Mutation :=
  match a with
  | .increment | .decrement => (signedAmount a operand).map .add
  | .multiply => (operandNumber operand).map .multiply
  | .divide => do
    let n ← operandNumber operand
    if n.isZero then .error (.value .divisionByZero) else return .divide n
  | _ => .ok (.set operand)

/-- Arithmetic needs a number field, or one whose kind is not known. -/
def checkNumeric (kind : Option Kind) : Except RuleError Unit :=
  match kind with
  | none | some .number => .ok ()
  | some k => .error (.value (.typeMismatch Kind.number.name k.name))

/-- A value that is set has to be of the kind of the field, if that is known. -/
def checkKind (value : Json) (kind : Option Kind) : Except RuleError Unit :=
  match kind with
  | none => .ok ()
  | some k =>
    match Value.ofJson k value with
    | .ok _ => .ok ()
    | .error e => .error (.value e)

def Mutation.checkFor (m : Mutation) (kind : Option Kind) : Except RuleError Unit :=
  match m with
  | .set value => checkKind value kind
  | _ => checkNumeric kind

/-! ## Snapshots -/

/-- The members of an object that are listed, in the order of their keys. -/
def listedMembers (names : List String) (members : List (String × Json)) : List (String × Json) :=
  Json.sortMembers (names.filterMap fun name => (members.lookup name).map fun v => (name, v))

/-- What a snapshot copies: the array element at hand, or else the value of the source, or else the
data of the record.  An object is narrowed to the listed fields. -/
def snapshotValue (r : Record) (source : Option Source) (item : Option Item)
    (fields : List String) : Json :=
  let captured :=
    match item, source with
    | some item, _ => item.element
    | none, some source => (r.readFrom? none source).getD .null
    | none, none => r.data
  match captured with
  | .object members =>
    if fields.isEmpty then .object members else .object (listedMembers fields members)
  | v => v

/-! ## Checks -/

namespace Comparison

def ofName? (s : String) : Option Comparison :=
  if s = "lt" ∨ s = "<" then some less
  else if s = "lte" ∨ s = "<=" then some lessOrEqual
  else if s = "gt" ∨ s = ">" then some greater
  else if s = "gte" ∨ s = ">=" then some greaterOrEqual
  else if s = "eq" ∨ s = "==" then some equal
  else if s = "ne" ∨ s = "!=" then some notEqual
  else if s = "exists" then some present
  else none

/-- Reads the operator of a check; one that names none asks for "at most". -/
def ofValue : Option Json → Except RuleError Comparison
  | none => .ok lessOrEqual
  | some (.string s) =>
    match ofName? (Text.lowered (Text.trimmed s)) with
    | some c => .ok c
    | none => .error (.invalidOperator s)
  | some v => .error (.invalidOperator v.text)

/-- The order of two values: as numbers if both are, else as texts. -/
def order? (a b : Json) : Option Ordering :=
  match a.number?, b.number? with
  | some x, some y => some (compare x.toInt y.toInt)
  | _, _ =>
    match a, b with
    | .string s, .string t => some (compare s t)
    | _, _ => none

def accepts (c : Comparison) (o : Ordering) : Bool :=
  match c with
  | less => o == .lt
  | lessOrEqual => o != .gt
  | greater => o == .gt
  | _ => o != .lt

def bothEqual : Option Json → Option Json → Bool
  | some a, some b => a.looselyEqual b
  | _, _ => false

/-- Checks an operand against the value of the target field.  Null counts as missing. -/
def check (c : Comparison) (operand target : Option Json) : Except RuleError Unit :=
  let target := target.filter fun v => !v.isNull
  let operand := operand.filter fun v => !v.isNull
  let verdict (passed : Bool) : Except RuleError Unit :=
    if passed then .ok () else .error (.checkFailed (.refuted c operand target))
  match c with
  | present => if target.isSome then .ok () else .error (.checkFailed .targetMissing)
  | equal => verdict (bothEqual operand target)
  | notEqual => verdict (!bothEqual operand target)
  | c =>
    match operand, target with
    | some a, some b =>
      match order? a b with
      | some o => verdict (c.accepts o)
      | none => .error (.unordered a b)
    | _, _ => .error (.checkFailed .valueMissing)

end Comparison
end RecordRules
