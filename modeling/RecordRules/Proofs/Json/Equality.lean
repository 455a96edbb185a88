/-
Equality of JSON values.

A float counts by its value, so two values are equal if they are the same but for the signs of
zeros, and each value has a canonical form in which no zero has one.  Values are loosely equal if
they mean the same as keys: the same number, written in any way, or equal values that are no
numbers.  Either way equality is sameness of something, and so an equivalence.
-/
import RecordRules.Proofs.Binary64.Integers

namespace RecordRules

/-! ## Zeros without a sign -/

namespace Binary64.Finite

/-- The number, where zero is not negative. -/
def canonical (x : Finite) : Finite := if x.units = 0 then zero else x

theorem toInt_canonical (x : Finite) : x.canonical.toInt = x.toInt := by
  unfold canonical
  split
  · next hzero =>
    have habs := natAbs_toInt x
    rw [hzero] at habs
    exact (Int.natAbs_eq_zero.mp habs).symm
  · rfl

/-- Numbers have the same canonical form exactly if they have the same value. -/
theorem canonical_eq_iff {x y : Finite} : x.canonical = y.canonical ↔ x.toInt = y.toInt := by
  constructor
  · intro h
    rw [← toInt_canonical x, h, toInt_canonical]
  · intro h
    have hunits : x.units = y.units := by rw [← natAbs_toInt, h, natAbs_toInt]
    unfold canonical
    rw [hunits]
    split
    · rfl
    · next hy => exact eq_of_toInt_eq hy h

end Binary64.Finite

namespace Json

def Number.canonical : Number → Number
  | integer n h => integer n h
  | float x => float x.canonical

mutual

/-- The value with no sign on any zero in it. -/
def canonical : Json → Json
  | number n => number n.canonical
  | array items => array (canonicalItems items)
  | object members => object (canonicalMembers members)
  | v => v

def canonicalItems : List Json → List Json
  | [] => []
  | v :: rest => canonical v :: canonicalItems rest

def canonicalMembers : List (String × Json) → List (String × Json)
  | [] => []
  | (k, v) :: rest => (k, canonical v) :: canonicalMembers rest

end

/-! ## Equality -/

theorem Number.beq_iff {m n : Number} : (m == n) = true ↔ m.canonical = n.canonical := by
  cases m with
  | integer m hm =>
    cases n with
    | integer n hn =>
      rw [canonical, canonical, Number.integer.injEq]
      exact beq_iff_eq (a := m)
    | float y => exact iff_of_false nofun nofun
  | float x =>
    cases n with
    | integer n hn => exact iff_of_false nofun nofun
    | float y =>
      rw [canonical, canonical, Number.float.injEq, Binary64.Finite.canonical_eq_iff]
      exact beq_iff_eq (a := x.toInt)

mutual

theorem same_iff : ∀ a b : Json, same a b = true ↔ a.canonical = b.canonical
  | null, b => by cases b <;> simp [same, canonical]
  | bool x, b => by cases b <;> simp [same, canonical]
  | number m, b => by cases b <;> simp [same, canonical, Number.beq_iff]
  | string s, b => by cases b <;> simp [same, canonical]
  | array as, b => by
    cases b with
    | array bs => rw [same, canonical, canonical, array.injEq, sameItems_iff as bs]
    | _ => simp [same, canonical]
  | object as, b => by
    cases b with
    | object bs => rw [same, canonical, canonical, object.injEq, sameMembers_iff as bs]
    | _ => simp [same, canonical]

theorem sameItems_iff : ∀ as bs : List Json,
    sameItems as bs = true ↔ canonicalItems as = canonicalItems bs
  | [], bs => by cases bs <;> simp [sameItems, canonicalItems]
  | a :: as, bs => by
    cases bs with
    | nil => simp [sameItems, canonicalItems]
    | cons b bs =>
      rw [sameItems, canonicalItems, canonicalItems, Bool.and_eq_true, same_iff a b,
        sameItems_iff as bs, List.cons.injEq]

theorem sameMembers_iff : ∀ as bs : List (String × Json),
    sameMembers as bs = true ↔ canonicalMembers as = canonicalMembers bs
  | [], bs => by cases bs <;> simp [sameMembers, canonicalMembers]
  | (k, a) :: as, bs => by
    cases bs with
    | nil => simp [sameMembers, canonicalMembers]
    | cons m bs =>
      obtain ⟨l, b⟩ := m
      rw [sameMembers, canonicalMembers, canonicalMembers, Bool.and_eq_true, Bool.and_eq_true,
        beq_iff_eq, same_iff a b, sameMembers_iff as bs, List.cons.injEq, Prod.mk.injEq]

end

variable {a b : Json}

/-- Values are equal exactly if they have the same canonical form. -/
theorem beq_iff : (a == b) = true ↔ a.canonical = b.canonical := same_iff a b

theorem beq_self (v : Json) : (v == v) = true := beq_iff.mpr rfl

/-! ## Loose equality -/

theorem number?_canonical (v : Json) :
    v.canonical.number?.map Binary64.Finite.toInt = v.number?.map Binary64.Finite.toInt := by
  cases v with
  | number n =>
    cases n with
    | integer n h => rfl
    | float x => exact congrArg some (Binary64.Finite.toInt_canonical x)
  | _ => rfl

/-- Equal values stand for equal numbers, or for none. -/
theorem number?_of_beq (h : (a == b) = true) :
    a.number?.map Binary64.Finite.toInt = b.number?.map Binary64.Finite.toInt := by
  rw [← number?_canonical a, beq_iff.mp h, number?_canonical]

/-- What a value means as a key: the number that it spells, in whole units, or else itself. -/
def meaning (v : Json) : Int ⊕ Json :=
  match v.number? with
  | some x => .inl x.toInt
  | none => .inr v.canonical

theorem meaning_of_some {x : Binary64.Finite} (h : a.number? = some x) :
    a.meaning = .inl x.toInt := by
  unfold meaning
  rw [h]

theorem meaning_of_none (h : a.number? = none) : a.meaning = .inr a.canonical := by
  unfold meaning
  rw [h]

/-- What does not mean a number means itself. -/
theorem canonical_of_meaning (h : a.meaning = .inr b) : a.canonical = b := by
  unfold meaning at h
  split at h
  · cases h
  · exact Sum.inr.inj h

theorem meaning_of_beq (h : (a == b) = true) : a.meaning = b.meaning := by
  have hnumber := number?_of_beq h
  cases ha : a.number? with
  | none =>
    rw [ha] at hnumber
    rw [meaning_of_none ha, meaning_of_none (Option.map_eq_none_iff.mp hnumber.symm), beq_iff.mp h]
  | some x =>
    rw [ha] at hnumber
    obtain ⟨y, hy, hxy⟩ := Option.map_eq_some_iff.mp hnumber.symm
    rw [meaning_of_some ha, meaning_of_some hy, hxy]

theorem isNull_of_number? {v : Json} {x : Binary64.Finite} (h : v.number? = some x) :
    v.isNull = false := by
  cases v with
  | null => cases h
  | _ => rfl

/-- Values are loosely equal exactly if they mean the same. -/
theorem looselyEqual_iff_meaning_eq : a.looselyEqual b = true ↔ a.meaning = b.meaning := by
  by_cases hsame : (a == b) = true
  · unfold looselyEqual
    rw [if_pos hsame]
    exact iff_of_true rfl (meaning_of_beq hsame)
  · unfold looselyEqual meaning
    rw [if_neg hsame]
    cases ha : a.number? with
    | none =>
      refine iff_of_false ?_ ?_
      · split <;> exact Bool.false_ne_true
      · cases b.number? with
        | none => exact fun h => hsame (beq_iff.mpr (Sum.inr.inj h))
        | some y => exact nofun
    | some x =>
      cases hb : b.number? with
      | none =>
        refine iff_of_false ?_ nofun
        split <;> exact Bool.false_ne_true
      | some y =>
        rw [isNull_of_number? ha, isNull_of_number? hb, Sum.inl.injEq]
        exact beq_iff_eq (a := x.toInt)

theorem looselyEqual_equivalence : Equivalence fun a b : Json => a.looselyEqual b = true where
  refl _ := looselyEqual_iff_meaning_eq.mpr rfl
  symm h := looselyEqual_iff_meaning_eq.mpr (looselyEqual_iff_meaning_eq.mp h).symm
  trans h h' := looselyEqual_iff_meaning_eq.mpr
    ((looselyEqual_iff_meaning_eq.mp h).trans (looselyEqual_iff_meaning_eq.mp h'))

end Json
end RecordRules
