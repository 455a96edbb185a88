/-
Association lists and lists kept in order.

An association list holds at most one entry per key: `put` replaces an entry where it stands or adds
one at the end, `erase` takes one out, and `get?` looks one up, which is `List.lookup`.
`insertBefore` puts an item in front of the first one that has to come after it.
-/

namespace RecordRules

/-- Values under keys, in the order in which the keys were first put in. -/
abbrev Assoc (α β : Type) := List (α × β)

namespace Assoc

variable {α β : Type} [DecidableEq α]

abbrev get? (key : α) (entries : Assoc α β) : Option β := entries.lookup key

def put (key : α) (value : β) : Assoc α β → Assoc α β
  | [] => [(key, value)]
  | (k, v) :: rest => if k = key then (key, value) :: rest else (k, v) :: put key value rest

def erase (key : α) (entries : Assoc α β) : Assoc α β := entries.filter fun e => e.1 ≠ key

theorem lookup_put_self (key : α) (value : β) (entries : Assoc α β) :
    (put key value entries).lookup key = some value := by
  induction entries with
  | nil => exact List.lookup_cons_self
  | cons e rest ih =>
    unfold put
    split
    · exact List.lookup_cons_self
    · next h => rwa [List.lookup_cons, beq_eq_false_iff_ne.mpr (Ne.symm h)]

theorem lookup_put_of_ne {key other : α} (h : other ≠ key) (value : β) (entries : Assoc α β) :
    (put key value entries).lookup other = entries.lookup other := by
  have hfirst (rest : Assoc α β) :
      List.lookup other ((key, value) :: rest) = rest.lookup other := by
    rw [List.lookup_cons, beq_eq_false_iff_ne.mpr h]
  induction entries with
  | nil => exact hfirst []
  | cons e rest ih =>
    unfold put
    split
    · next hkey => rw [hfirst, List.lookup_cons, beq_eq_false_iff_ne.mpr (hkey ▸ h)]
    · rw [List.lookup_cons, List.lookup_cons, ih]

theorem lookup_erase_self (key : α) (entries : Assoc α β) :
    (erase key entries).lookup key = none :=
  List.lookup_eq_none_iff.mpr fun _ he =>
    bne_iff_ne.mpr (Ne.symm (of_decide_eq_true (List.mem_filter.mp he).2))

theorem lookup_erase_of_ne {key other : α} (h : other ≠ key) (entries : Assoc α β) :
    (erase key entries).lookup other = entries.lookup other := by
  induction entries with
  | nil => rfl
  | cons e rest ih =>
    unfold erase at ih ⊢
    by_cases hk : e.1 = key
    · rw [List.filter_cons_of_neg (by simpa using hk), ih, List.lookup_cons,
        beq_eq_false_iff_ne.mpr (hk ▸ h)]
    · rw [List.filter_cons_of_pos (by simpa using hk), List.lookup_cons, List.lookup_cons, ih]

end Assoc

/-- The list with an item put in front of the first one that has to come after it. -/
def insertBefore {α : Type} (before : α → α → Bool) (x : α) : List α → List α
  | [] => [x]
  | y :: rest => if before x y then x :: y :: rest else y :: insertBefore before x rest

theorem mem_insertBefore {α : Type} {before : α → α → Bool} {x z : α} {l : List α} :
    z ∈ insertBefore before x l ↔ z = x ∨ z ∈ l := by
  induction l with
  | nil => simp [insertBefore]
  | cons y rest ih =>
    unfold insertBefore
    split
    · simp
    · simp only [List.mem_cons, ih]
      constructor
      · rintro (h | h | h) <;> simp [h]
      · rintro (h | h | h) <;> simp [h]

end RecordRules
