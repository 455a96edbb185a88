/-
Finding the target records of a rule.
-/
import RecordRules.Evaluation.Operand
import RecordRules.Registry.Basic

namespace RecordRules

def found (what : Absent) : Option Record → Except Miss (List Record)
  | some r => .ok [r]
  | none => .error (.skip (.notFound what))

/-- The key that a binding reads on the record at hand or on the array element. -/
def readKey (source : String) (r : Record) (element : Option Json) : Except Miss Json :=
  match Source.parse source with
  | .error e => .error (.fail (.address e))
  | .ok s =>
    match (r.readFrom? element s).filter fun v => !v.isNull with
    | some key => .ok key
    | none => .error (.skip (.missingSource source))

/-- The name of the field that a match looks at: of an addressed field, or as it stands. -/
def matchField (registry : Registry) (module : ModuleId) (target : String) : Except Miss String :=
  match target.toList with
  | '$' :: _ =>
    match Target.parse target with
    | .error e => .error (.fail (.address e))
    | .ok t =>
      match registry.getField? module t.field with
      | some f => .ok f.name
      | none => .error (.skip (.notFound (.field t)))
  | _ => .ok target

def keyText : Json → String
  | .string s => s
  | v => v.text

section

variable {σ : Type} [RecordStore σ]

def asking {α : Type} (answer : Except StoreError α) : Except Miss α :=
  match answer with
  | .ok a => .ok a
  | .error e => .error (.ofStore e)

def fetch (store : σ) (module : ModuleId) (id : RecordId) : Except Miss (List Record) := do
  found (.record id module) (← asking (RecordStore.get store module id))

/-- The target records of one application of a rule, for the record at hand and, if the rule goes
through an array, one of its elements. -/
def Binding.targets (b : Binding) (registry : Registry) (store : σ) (module : ModuleId) (r : Record)
    (element : Option Json) : Except Miss (List Record) := do
  match b with
  | .sole =>
    match ← asking (RecordStore.list store module) with
    | [] => .error (.skip .noTargetRecord)
    | [t] => return [t]
    | ts => .error (.skip (.ambiguousTarget ts.length))
  | .record id => fetch store module id
  | .source => fetch store module r.id
  | .foreignKey address =>
    let key ← readKey address r element
    match Ident.ofString? (keyText key) with
    | some id => fetch store module id
    | none => .error (.fail (.noRecordId address key))
  | .byMatch address target =>
    let key ← readKey address r element
    let field ← matchField registry module target
    match ← asking (RecordStore.findByField store module field key) with
    | [] => .error (.skip .noTargetRecord)
    | ts => return ts

end
end RecordRules
