/-
Documents: JSON values with declared parts.

A document is an object whose members carry declared names, or an array that gives the parts in
the order of their declaration.  Members with other names are ignored, whether they can be read or
not, and a declared part may not be given twice.  Parts are read by small readers, each of which
says when a value fits.
-/
import RecordRules.Json.Text

namespace RecordRules
namespace Json

/-! ## Reading -/

/-- Reads a value of some type. -/
abbrev Reader (α : Type) := Tree → Option α

namespace Reader

def string : Reader String
  | .string s => some s
  | _ => none

def bool : Reader Bool
  | .bool b => some b
  | _ => none

/-- An integer of a signed 64-bit word, which is below `2 ^ 63`. -/
def int : Reader Int
  | .number (.integer n _) => if n < 9223372036854775808 then some n else none
  | _ => none

def nat : Reader Nat
  | .number (.integer n _) => if 0 ≤ n then some n.toNat else none
  | _ => none

def finite : Reader Binary64.Finite
  | .number n =>
    match n.toBinary64 with
    | .finite x => some x
    | _ => none
  | _ => none

def any : Reader Json := fun t => t.value?.map normal

/-- A value of which no part is ignored before all of it has been read. -/
def whole {α : Type} (read : Reader α) : Reader α := fun t => if t.isReadable then read t else none

def list {α : Type} (item : Reader α) : Reader (List α)
  | .array items => items.mapM item
  | _ => none

/-- A name among several, alone or as the key of an object with a single null member. -/
def choice {α : Type} (named : String → Option α) : Reader α
  | .string s => named s
  | .object [(s, .null)] => named s
  | _ => none

end Reader

def required {α : Type} (read : Reader α) (part : Option Tree) : Option α := part.bind read

/-- A part with a value of its own when it is missing.  Null does not count as missing. -/
def defaulted {α : Type} (missing : α) (read : Reader α) : Option Tree → Option α
  | none => some missing
  | some t => read t

def optional {α : Type} (read : Reader α) : Option Tree → Option (Option α)
  | none | some .null => some none
  | some t => (read t).map some

/-- The member of an object under one of several names, unless there are two. -/
def soleMember? (names : List String) (members : List (String × Tree)) : Option (Option Tree) :=
  match members.filter (fun m => names.contains m.1) with
  | [] => some none
  | [(_, t)] => some (some t)
  | _ => none

/-- The parts of a document whose names, with other spellings after the first, are declared in
order. -/
def parts? (names : List (List String)) : Tree → Option (List (Option Tree))
  | .object members => names.mapM fun spellings => soleMember? spellings members
  | .array items =>
    if items.length ≤ names.length then
      some (items.map some ++ List.replicate (names.length - items.length) none)
    else none
  | _ => none

/-! ## Writing -/

def document (members : List (Option (String × Json))) : Json := ofMembers (members.filterMap id)

def part (key : String) (value : Json) : Option (String × Json) := some (key, value)

def optionalPart (key : String) (value : Option Json) : Option (String × Json) :=
  value.map fun v => (key, v)

/-- A member that is written unless the list is empty. -/
def listPart (key : String) (items : List Json) : Option (String × Json) :=
  if items.isEmpty then none else some (key, .array items)

def orNull (value : Option Json) : Json := value.getD .null

end Json
end RecordRules
