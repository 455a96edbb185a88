/-
What a JSON text spells.

A text can be of the right form and still hold parts that stand for no value: a number beyond the
finite floats, a string with half of a surrogate pair, containers nested too deeply.  Such a part
does no harm where nobody reads it, so a text is first taken for a tree, in which these parts are
marked, and a tree without marks is a value.
-/
import RecordRules.Json.Basic

namespace RecordRules
namespace Json

/-- A JSON value or a text of that form with parts that cannot be read. -/
inductive Tree where
  /-- A part that stands for no value. -/
  | unreadable
  | null
  | bool (b : Bool)
  | number (n : Number)
  | string (s : String)
  | array (items : List Tree)
  | object (members : List (String × Tree))
deriving Inhabited

mutual

/-- The value that a tree stands for, if all of it can be read. -/
def Tree.value? : Tree → Option Json
  | .unreadable => none
  | .null => some .null
  | .bool b => some (.bool b)
  | .number n => some (.number n)
  | .string s => some (.string s)
  | .array items => (Tree.itemValues? items).map .array
  | .object members => (Tree.memberValues? members).map .object

def Tree.itemValues? : List Tree → Option (List Json)
  | [] => some []
  | t :: rest => do return (← t.value?) :: (← Tree.itemValues? rest)

def Tree.memberValues? : List (String × Tree) → Option (List (String × Json))
  | [] => some []
  | (k, t) :: rest => do return (k, ← t.value?) :: (← Tree.memberValues? rest)

end

/-- No part of the tree is marked. -/
def Tree.isReadable (t : Tree) : Bool := t.value?.isSome

/-- The object with members that the text of an object gives.  It cannot be read if one of the
keys, which is then missing here, cannot. -/
def Tree.ofMembers (members : List (Option String × Tree)) : Tree :=
  match members.mapM fun m => m.1.map fun key => (key, m.2) with
  | some members => .object members
  | none => .unreadable

mutual

/-- The tree of a value. -/
def tree : Json → Tree
  | null => .null
  | bool b => .bool b
  | number n => .number n
  | string s => .string s
  | array items => .array (itemTrees items)
  | object members => .object (memberTrees members)

def itemTrees : List Json → List Tree
  | [] => []
  | v :: rest => tree v :: itemTrees rest

def memberTrees : List (String × Json) → List (String × Tree)
  | [] => []
  | (k, v) :: rest => (k, tree v) :: memberTrees rest

end

instance : Coe Json Tree := ⟨tree⟩

mutual

theorem value?_tree : ∀ v : Json, v.tree.value? = some v
  | null | bool _ | number _ | string _ => rfl
  | array items => by simp [tree, Tree.value?, itemValues?_itemTrees items]
  | object members => by simp [tree, Tree.value?, memberValues?_memberTrees members]

theorem itemValues?_itemTrees : ∀ items : List Json, Tree.itemValues? (itemTrees items) = some items
  | [] => rfl
  | v :: rest => by simp [itemTrees, Tree.itemValues?, value?_tree v, itemValues?_itemTrees rest]

theorem memberValues?_memberTrees :
    ∀ members : List (String × Json), Tree.memberValues? (memberTrees members) = some members
  | [] => rfl
  | (k, v) :: rest => by
    simp [memberTrees, Tree.memberValues?, value?_tree v, memberValues?_memberTrees rest]

end

end Json
end RecordRules
