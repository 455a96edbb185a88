/-
Checking record data against the fields of a module.

What is present has to be of the kind of its field, and the elements of an array have to fit the
subfields that the field declares; defaults of missing subfields are filled in.  Other members of
the data are left alone, and so are fields whose kind is not known.
-/
import RecordRules.Record
import RecordRules.Pattern.Matching
import RecordRules.Pattern.Parser

namespace RecordRules

/-! ## Violations -/

/-- A step on the way to a value inside the data of a record. -/
inductive Place where
  | whole
  | field (name : String)
  | element (array : String) (index : Nat)
  | subfield (array : String) (index : Nat) (name : String)
deriving DecidableEq

def Place.path : Place → String
  | whole => "$"
  | field name => name
  | element array index => s!"{array}[{index}]"
  | subfield array index name => s!"{array}[{index}].{name}"

/-- Why a value is not accepted. -/
inductive Complaint where
  | notAnObject
  | elementNotAnObject
  | badValue (e : ValueError)
  | missing
  | below (min : Binary64.Finite)
  | above (max : Binary64.Finite)
  | noMatch (pattern : String)
  | badPattern (pattern : String) (e : PatternError)
  | notAllowed (allowed : List String)
deriving DecidableEq

def Complaint.message : Complaint → String
  | notAnObject => "record data must be a JSON object"
  | elementNotAnObject => "array element must be an object"
  | badValue e => e.message
  | missing => "is required"
  | below min => s!"must be at least {min.plainText}"
  | above max => s!"must be at most {max.plainText}"
  | noMatch pattern => s!"does not match pattern {pattern}"
  | badPattern pattern e => s!"invalid pattern {pattern}: {e.message}"
  | notAllowed allowed => "must be one of " ++ ", ".intercalate allowed

/-- A complaint about the value at a place. -/
structure Violation where
  place : Place
  complaint : Complaint
deriving DecidableEq

/-- A violation as documents hold it. -/
structure ViolationNote where
  path : String
  message : String
deriving DecidableEq

def Violation.note (v : Violation) : ViolationNote := ⟨v.place.path, v.complaint.message⟩

namespace ViolationNote

def text (n : ViolationNote) : String := s!"{n.path}: {n.message}"

def ofJson? (v : Json.Tree) : Option ViolationNote := do
  let [path, message] ← Json.parts? [["path"], ["message"]] v | none
  return ⟨← Json.required .string path, ← Json.required .string message⟩

def toJson (n : ViolationNote) : Json :=
  Json.document [Json.part "path" (.string n.path), Json.part "message" (.string n.message)]

end ViolationNote

/-- The kind of a data type, if the type is known. -/
abbrev KindOf := DataTypeId → Option Kind

/-! ## Constraints -/

def Constraints.complaints (c : Constraints) : Value → List Complaint
  | .number x =>
    ((c.min.filter fun min => x < min).map .below).toList ++
      ((c.max.filter fun max => max < x).map .above).toList
  | .string s => (c.pattern.bind fun p => patternComplaint p s).toList ++
      ((c.allowed.filter fun allowed => !allowed.contains s).map .notAllowed).toList
  | _ => []
where
  patternComplaint (pattern s : String) : Option Complaint :=
    match Pattern.parse pattern with
    | .ok p => if p.occursIn s then none else some (.noMatch pattern)
    | .error e => some (.badPattern pattern e)

/-! ## Elements -/

/-- Looks at one subfield of an element: its members afterwards, and the complaints. -/
def Subfield.check (kindOf : KindOf) (s : Subfield) (members : List (String × Json)) :
    List (String × Json) × List Complaint :=
  match (members.lookup s.name).filter fun v => !v.isNull with
  | none =>
    match s.default with
    | some v => (Json.insertMember s.name v members, [])
    | none => (members, if s.required then [.missing] else [])
  | some raw =>
    match kindOf s.dataType with
    | none => (members, [])
    | some kind =>
      match Value.ofJson kind raw with
      | .error e => (members, [.badValue e])
      | .ok value => (members, (s.constraints.map fun c => c.complaints value).getD [])

def checkMembers (kindOf : KindOf) (field : String) (index : Nat) :
    List Subfield → List (String × Json) → List (String × Json) × List Violation
  | [], members => (members, [])
  | s :: rest, members =>
    let (members, complaints) := s.check kindOf members
    let (members, violations) := checkMembers kindOf field index rest members
    (members, complaints.map (⟨.subfield field index s.name, ·⟩) ++ violations)

def checkElement (kindOf : KindOf) (field : String) (subfields : List Subfield) (index : Nat) :
    Json → Json × List Violation
  | .object members =>
    let (members, violations) := checkMembers kindOf field index subfields members
    (.object members, violations)
  | v => (v, [⟨.element field index, .elementNotAnObject⟩])

/-- Looks at the elements of an array, counted from a number on. -/
def checkElements (kindOf : KindOf) (field : String) (subfields : List Subfield) :
    (index : Nat) → List Json → List Json × List Violation
  | _, [] => ([], [])
  | index, v :: rest =>
    let (v, here) := checkElement kindOf field subfields index v
    let (rest, later) := checkElements kindOf field subfields (index + 1) rest
    (v :: rest, here ++ later)

/-! ## Records -/

def Field.check (kindOf : KindOf) (f : Field) (members : List (String × Json)) :
    List (String × Json) × List Violation :=
  match members.lookup f.name, kindOf f.dataType with
  | some raw, some kind =>
    match Value.ofJson kind raw with
    | .error e => (members, [⟨.field f.name, .badValue e⟩])
    | .ok _ =>
      match kind, f.subfields, raw with
      | .array, some subfields, .array elements =>
        let (elements, violations) := checkElements kindOf f.name subfields 0 elements
        (Json.insertMember f.name (.array elements) members, violations)
      | _, _, _ => (members, [])
  | _, _ => (members, [])

def checkFields (kindOf : KindOf) :
    List Field → List (String × Json) → List (String × Json) × List Violation
  | [], members => (members, [])
  | f :: rest, members =>
    let (members, here) := f.check kindOf members
    let (members, later) := checkFields kindOf rest members
    (members, here ++ later)

/-- Checks record data.  The data come back with defaults filled in, also where there are
violations; the data are accepted if there are none. -/
def checkRecord (kindOf : KindOf) (fields : List Field) : Json → Json × List Violation
  | .object members =>
    let (members, violations) := checkFields kindOf fields members
    (.object members, violations)
  | v => (v, [⟨.whole, .notAnObject⟩])

end RecordRules
