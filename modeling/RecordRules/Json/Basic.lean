/-
JSON values.

A number is an integer that fits a signed or an unsigned 64-bit word, or a finite binary64 number;
the two sorts are never equal.  An object is the list of its members.  A text may give them in any
order and repeat a key; `normal` sorts the members of every object by key and keeps the last
member of a key, and objects are compared and written in that form.
-/
import RecordRules.Binary64.Basic

namespace RecordRules

/-- The integers that a JSON number holds exactly: from `-2 ^ 63` up to, but not including,
`2 ^ 64`. -/
def Json.Integral (n : Int) : Prop := -9223372036854775808 ≤ n ∧ n < 18446744073709551616

instance (n : Int) : Decidable (Json.Integral n) :=
  inferInstanceAs (Decidable (-9223372036854775808 ≤ n ∧ n < 18446744073709551616))

/-- A JSON number.  A float is a different number from the integer of the same value. -/
inductive Json.Number where
  | integer (n : Int) (integral : Json.Integral n)
  | float (x : Binary64.Finite)
deriving DecidableEq

inductive Json where
  | null
  | bool (b : Bool)
  | number (n : Json.Number)
  | string (s : String)
  | array (items : List Json)
  | object (members : List (String × Json))
deriving Inhabited

namespace Json

/-! ## Numbers -/

namespace Number

def ofInt? (n : Int) : Option Number :=
  if h : Integral n then some (integer n h) else none

def toBinary64 : Number → Binary64
  | integer n _ => Binary64.ofInt n
  | float x => x

/-- Numbers are the same if they are of one sort and equal in it. -/
def same : Number → Number → Bool
  | integer m _, integer n _ => m == n
  | float x, float y => x == y
  | _, _ => false

instance : BEq Number := ⟨same⟩

end Number

/-- The integer as a JSON number, or the nearest float if it does not fit. -/
def ofInt (n : Int) : Json :=
  match Number.ofInt? n with
  | some m => number m
  | none =>
    match Binary64.ofInt n with
    | .finite x => number (.float x)
    | _ => null

def ofNat (n : Nat) : Json := ofInt n

/-! ## Equality -/

mutual

/-- Equality of values: numbers compare within their sort, and objects member by member. -/
def same : Json → Json → Bool
  | null, null => true
  | bool a, bool b => a == b
  | number a, number b => a == b
  | string a, string b => a == b
  | array a, array b => sameItems a b
  | object a, object b => sameMembers a b
  | _, _ => false

def sameItems : List Json → List Json → Bool
  | [], [] => true
  | a :: as, b :: bs => same a b && sameItems as bs
  | _, _ => false

def sameMembers : List (String × Json) → List (String × Json) → Bool
  | [], [] => true
  | (k, a) :: as, (l, b) :: bs => k == l && same a b && sameMembers as bs
  | _, _ => false

end

instance : BEq Json := ⟨same⟩

/-! ## Members -/

/-- The members of an object with one more, at its place in the order of keys.  A member of the
same key is replaced. -/
def insertMember (key : String) (value : Json) : List (String × Json) → List (String × Json)
  | [] => [(key, value)]
  | (k, v) :: rest =>
    if key < k then (key, value) :: (k, v) :: rest
    else if key = k then (key, value) :: rest
    else (k, v) :: insertMember key value rest

/-- The members in the order of their keys, the last of each key. -/
def sortMembers (members : List (String × Json)) : List (String × Json) :=
  members.foldl (fun sorted m => insertMember m.1 m.2 sorted) []

mutual

/-- The value with the members of every object sorted and each key kept once. -/
def normal : Json → Json
  | array items => array (normalItems items)
  | object members => object (sortMembers (normalMembers members))
  | v => v

def normalItems : List Json → List Json
  | [] => []
  | v :: rest => normal v :: normalItems rest

def normalMembers : List (String × Json) → List (String × Json)
  | [] => []
  | (k, v) :: rest => (k, normal v) :: normalMembers rest

end

def get? (key : String) : Json → Option Json
  | object members => members.lookup key
  | _ => none

/-- The object with a member put in or replaced; any other value is left alone. -/
def set (v : Json) (key : String) (value : Json) : Json :=
  match v with
  | object members => object (insertMember key value members)
  | v => v

theorem lookup_insertMember_of_ne {key other : String} (h : other ≠ key) (value : Json)
    (members : List (String × Json)) :
    (insertMember key value members).lookup other = members.lookup other := by
  have hb : (other == key) = false := by simp [h]
  induction members with
  | nil => simp [insertMember, List.lookup_cons, hb]
  | cons m rest ih =>
    obtain ⟨k, v⟩ := m
    unfold insertMember
    split
    · simp [List.lookup_cons, hb]
    · split
      · next heq => subst heq; simp [List.lookup_cons, hb]
      · simp only [List.lookup_cons, ih]

theorem get?_set_of_ne {key other : String} (h : other ≠ key) (v value : Json) :
    (v.set key value).get? other = v.get? other := by
  cases v with
  | object members => exact lookup_insertMember_of_ne h value members
  | _ => rfl

def isObject : Json → Bool
  | object _ => true
  | _ => false

def isNull : Json → Bool
  | null => true
  | _ => false

/-- The name of the sort of a value, as messages give it. -/
def sort : Json → String
  | null => "null"
  | bool _ => "boolean"
  | number _ => "number"
  | string _ => "string"
  | array _ => "array"
  | object _ => "object"

def ofMembers (members : List (String × Json)) : Json := object (sortMembers members)

end Json
end RecordRules
