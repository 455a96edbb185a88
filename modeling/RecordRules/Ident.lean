/-
Identifiers of data types, modules, fields and records.

An identifier is not empty and holds neither a dollar sign nor a blank, the characters that field
addresses use as marks.  The four kinds of identifier are different types over one set of texts.
-/
import RecordRules.Text.Blank
import RecordRules.Text.Quoted

namespace RecordRules

inductive Subject where
  | dataType
  | module
  | field
  | record
deriving DecidableEq

def Ident.Wellformed (s : String) : Prop :=
  s.toList ≠ [] ∧ ∀ c ∈ s.toList, c ≠ '$' ∧ Text.isBlankChar c = false

instance (s : String) : Decidable (Ident.Wellformed s) :=
  @instDecidableAnd _ _ inferInstance (List.decidableBAll _ _)

/-- An identifier of a data type, a module, a field or a record. -/
structure Ident (subject : Subject) where
  text : String
  wellformed : Ident.Wellformed text
deriving DecidableEq

abbrev DataTypeId := Ident .dataType
abbrev ModuleId := Ident .module
abbrev FieldId := Ident .field
abbrev RecordId := Ident .record

structure InvalidIdent where
  text : String
deriving DecidableEq

def InvalidIdent.message (e : InvalidIdent) : String :=
  s!"invalid identifier {Text.quoted e.text}: must be non-empty and must not contain " ++
    "'$' or whitespace"

namespace Ident

variable {subject : Subject}

instance : Inhabited (Ident subject) := ⟨⟨"_", by decide +kernel⟩⟩

def ofString? (s : String) : Option (Ident subject) :=
  if h : Wellformed s then some ⟨s, h⟩ else none

def parse (s : String) : Except InvalidIdent (Ident subject) :=
  match ofString? s with
  | some id => .ok id
  | none => .error ⟨s⟩

instance : LT (Ident subject) := ⟨fun a b => a.text < b.text⟩

instance (a b : Ident subject) : Decidable (a < b) :=
  inferInstanceAs (Decidable (a.text < b.text))

instance : ToString (Ident subject) := ⟨text⟩

theorem ext_text {a b : Ident subject} (h : a.text = b.text) : a = b := by
  cases a; cases b; cases h; rfl

theorem ofString?_text (a : Ident subject) : ofString? a.text = some a := by
  simp [ofString?, a.wellformed]

theorem text_of_ofString? {s : String} {a : Ident subject} (h : ofString? s = some a) :
    a.text = s := by
  unfold ofString? at h
  split at h
  · cases h; rfl
  · cases h

def byteText (b : UInt8) : List Char :=
  [Nat.digitChar (b.toNat / 16), Nat.digitChar (b.toNat % 16)]

def hexText (bytes : List UInt8) : String := String.ofList (bytes.flatMap byteText)

end Ident
end RecordRules
