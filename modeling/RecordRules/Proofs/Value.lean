/-
Values that are read without a kind and written again.

Reading takes every number for a float, and writing makes an integer of each float that is one of
the exact range.  So a value comes back exactly if its numbers are such integers or floats that are
none of them, whatever lies around them.  What has been written once is of this sort, and is read as
the value that was read before.
-/
import RecordRules.Proofs.Binary64.Integers
import RecordRules.Proofs.Json.RoundTrip

namespace RecordRules

/-! ## Equality -/

namespace Value

mutual

/-- Equality of values: numbers by what they count, so that both zeros are equal. -/
def same : Value → Value → Bool
  | null, null => true
  | string s, string t => s == t
  | number x, number y => x == y
  | bool a, bool b => a == b
  | date m, date n => m == n
  | array a, array b => sameItems a b
  | object a, object b => sameMembers a b
  | _, _ => false

def sameItems : List Value → List Value → Bool
  | [], [] => true
  | a :: as, b :: bs => same a b && sameItems as bs
  | _, _ => false

def sameMembers : List (String × Value) → List (String × Value) → Bool
  | [], [] => true
  | (k, a) :: as, (l, b) :: bs => k == l && same a b && sameMembers as bs
  | _, _ => false

end

instance : BEq Value := ⟨same⟩

end Value

/-! ## Numbers -/

namespace Json

/-- The number is written as it was read: an integer of the exact range, or a float that has a
fractional part or lies outside that range. -/
def Number.IsKept : Number → Prop
  | integer n _ => n.natAbs ≤ maxExactInteger
  | float x => ∀ n : Int, x.Counts n → maxExactInteger < n.natAbs

/-- A float is written as the integer that it is, if that is in the exact range, or as itself. -/
theorem ofFinite_cases (x : Binary64.Finite) :
    (∃ n : Int, ∃ integral, x.Counts n ∧ n.natAbs ≤ maxExactInteger ∧
      ofFinite x = number (.integer n integral)) ∨
      ((Number.float x).IsKept ∧ ofFinite x = number (.float x)) := by
  unfold ofFinite
  by_cases h : x.isWhole = true ∧ x.truncate.natAbs ≤ maxExactInteger
  · obtain ⟨hwhole, hexact⟩ := h
    obtain ⟨integral, hof⟩ := ofInt_eq hexact
    rw [if_pos ⟨hwhole, hexact⟩]
    exact Or.inl ⟨_, integral, Binary64.Finite.counts_truncate hwhole, hexact, hof⟩
  · rw [if_neg h]
    refine Or.inr ⟨fun n hn => ?_, rfl⟩
    by_contra hle
    exact h ⟨hn.isWhole, by rw [hn.truncate_eq]; omega⟩

/-- What a float is written as is kept. -/
theorem isKept_of_mem_ofFinite {x : Binary64.Finite} {n : Number}
    (h : n ∈ (ofFinite x).numbers) : n.IsKept := by
  rcases ofFinite_cases x with ⟨k, integral, _, hk, hof⟩ | ⟨hkept, hof⟩
  · rw [hof] at h
    rw [List.mem_singleton.mp h]
    exact hk
  · rw [hof] at h
    rw [List.mem_singleton.mp h]
    exact hkept

end Json

namespace Value

/-- A number is read as the float that it stands for. -/
theorem ofPlainJson_number {n : Json.Number} {x : Binary64.Finite} (h : n.toBinary64 = .finite x) :
    ofPlainJson (.number n) = number x := by
  rw [ofPlainJson, h]

theorem toJson_number_iff (n : Json.Number) :
    (ofPlainJson (.number n)).toJson = .number n ↔ n.IsKept := by
  obtain ⟨x, hx⟩ := n.exists_finite
  rw [ofPlainJson_number hx, toJson]
  cases n with
  | integer n h =>
    rcases Json.ofFinite_cases x with ⟨k, integral, hcounts, hk, hof⟩ | ⟨hkept, hof⟩
    · rw [hof]
      constructor
      · intro heq
        cases heq
        exact hk
      · intro hn
        obtain ⟨y, hy, hyn⟩ := Binary64.counts_ofInt hn
        have hxy : Binary64.finite x = .finite y := hx.symm.trans hy
        cases hxy
        cases hcounts.unique hyn
        rfl
    · rw [hof]
      refine iff_of_false nofun fun hn => ?_
      obtain ⟨y, hy, hyn⟩ := Binary64.counts_ofInt hn
      have hxy : Binary64.finite x = .finite y := hx.symm.trans hy
      cases hxy
      exact absurd hn (Nat.not_le.mpr (hkept n hyn))
  | float y =>
    cases hx
    rcases Json.ofFinite_cases x with ⟨k, integral, hcounts, hk, hof⟩ | ⟨hkept, hof⟩
    · rw [hof]
      exact iff_of_false nofun fun hkept => absurd hk (Nat.not_le.mpr (hkept k hcounts))
    · rw [hof]
      exact iff_of_true rfl hkept

/-- What a float is written as is read as an equal float. -/
theorem ofPlainJson_ofFinite (x : Binary64.Finite) :
    (ofPlainJson (.ofFinite x) == number x) = true := by
  rcases Json.ofFinite_cases x with ⟨k, integral, hcounts, hk, hof⟩ | ⟨_, hof⟩
  · obtain ⟨y, hy, hyk⟩ := Binary64.counts_ofInt hk
    rw [hof, ofPlainJson_number (n := .integer k integral) hy]
    show (y.toInt == x.toInt) = true
    rw [hyk, hcounts, beq_self_eq_true]
  · rw [hof]
    exact beq_self_eq_true x.toInt

/-! ## Values -/

mutual

/-- A value comes back as it was exactly if its numbers do. -/
theorem toJson_ofPlainJson_iff : ∀ v : Json,
    (ofPlainJson v).toJson = v ↔ ∀ n ∈ v.numbers, n.IsKept
  | .null | .bool _ | .string _ => iff_of_true rfl (List.forall_mem_nil _)
  | .number n => by
    rw [toJson_number_iff n]
    exact List.forall_mem_singleton.symm
  | .array items => by
    rw [ofPlainJson, toJson, Json.array.injEq, Json.numbers]
    exact toJsonItems_ofPlainItems_iff items
  | .object members => by
    rw [ofPlainJson, toJson, Json.object.injEq, Json.numbers]
    exact toJsonMembers_ofPlainMembers_iff members

theorem toJsonItems_ofPlainItems_iff : ∀ items : List Json,
    toJsonItems (ofPlainItems items) = items ↔ ∀ n ∈ Json.numbersItems items, n.IsKept
  | [] => iff_of_true rfl (List.forall_mem_nil _)
  | v :: rest => by
    rw [ofPlainItems, toJsonItems, List.cons.injEq, toJson_ofPlainJson_iff v,
      toJsonItems_ofPlainItems_iff rest, Json.numbersItems, List.forall_mem_append]

theorem toJsonMembers_ofPlainMembers_iff : ∀ members : List (String × Json),
    toJsonMembers (ofPlainMembers members) = members ↔
      ∀ n ∈ Json.numbersMembers members, n.IsKept
  | [] => iff_of_true rfl (List.forall_mem_nil _)
  | (k, v) :: rest => by
    rw [ofPlainMembers, toJsonMembers, List.cons.injEq, Prod.mk.injEq, toJson_ofPlainJson_iff v,
      toJsonMembers_ofPlainMembers_iff rest, Json.numbersMembers, List.forall_mem_append]
    exact and_congr_left fun _ => and_iff_right rfl

end

mutual

/-- What is written is read as the value that was read before. -/
theorem ofPlainJson_toJson_ofPlainJson : ∀ v : Json,
    (ofPlainJson (ofPlainJson v).toJson == ofPlainJson v) = true
  | .null => rfl
  | .bool b => beq_self_eq_true b
  | .string s => beq_self_eq_true s
  | .number n => by
    obtain ⟨x, hx⟩ := n.exists_finite
    rw [ofPlainJson_number hx, toJson]
    exact ofPlainJson_ofFinite x
  | .array items => sameItems_ofPlainItems items
  | .object members => sameMembers_ofPlainMembers members

theorem sameItems_ofPlainItems : ∀ items : List Json,
    sameItems (ofPlainItems (toJsonItems (ofPlainItems items))) (ofPlainItems items) = true
  | [] => rfl
  | v :: rest => Bool.and_eq_true_iff.mpr
      ⟨ofPlainJson_toJson_ofPlainJson v, sameItems_ofPlainItems rest⟩

theorem sameMembers_ofPlainMembers : ∀ members : List (String × Json),
    sameMembers (ofPlainMembers (toJsonMembers (ofPlainMembers members)))
      (ofPlainMembers members) = true
  | [] => rfl
  | (k, v) :: rest => Bool.and_eq_true_iff.mpr
      ⟨Bool.and_eq_true_iff.mpr ⟨beq_self_eq_true k, ofPlainJson_toJson_ofPlainJson v⟩,
        sameMembers_ofPlainMembers rest⟩

end

mutual

/-- All numbers that are written are written as they will be again. -/
theorem isKept_of_mem_toJson : ∀ (w : Value) {n : Json.Number}, n ∈ w.toJson.numbers → n.IsKept
  | null, _, h | string _, _, h | bool _, _, h | date _, _, h => absurd h List.not_mem_nil
  | number _, _, h => Json.isKept_of_mem_ofFinite h
  | array items, _, h => isKept_of_mem_toJsonItems items h
  | object members, _, h => isKept_of_mem_toJsonMembers members h

theorem isKept_of_mem_toJsonItems : ∀ (items : List Value) {n : Json.Number},
    n ∈ Json.numbersItems (toJsonItems items) → n.IsKept
  | [], _, h => absurd h List.not_mem_nil
  | w :: rest, _, h =>
    (List.mem_append.mp h).elim (isKept_of_mem_toJson w) (isKept_of_mem_toJsonItems rest)

theorem isKept_of_mem_toJsonMembers : ∀ (members : List (String × Value)) {n : Json.Number},
    n ∈ Json.numbersMembers (toJsonMembers members) → n.IsKept
  | [], _, h => absurd h List.not_mem_nil
  | (_, w) :: rest, _, h =>
    (List.mem_append.mp h).elim (isKept_of_mem_toJson w) (isKept_of_mem_toJsonMembers rest)

end

end Value

/-- A value that is read without a kind and written again comes back exactly if each of its numbers,
however deep, is an integer of the exact range or a float that is none.  Whatever its numbers are,
what is written is read as an equal value, and written as the same. -/
theorem plain_values_settle :
    (∀ v : Json, (Value.ofPlainJson v).toJson = v ↔ ∀ n ∈ v.numbers, n.IsKept) ∧
      ∀ v : Json,
        (Value.ofPlainJson (Value.ofPlainJson v).toJson == Value.ofPlainJson v) = true ∧
        (Value.ofPlainJson (Value.ofPlainJson v).toJson).toJson = (Value.ofPlainJson v).toJson :=
  ⟨Value.toJson_ofPlainJson_iff, fun v => ⟨Value.ofPlainJson_toJson_ofPlainJson v,
    (Value.toJson_ofPlainJson_iff _).mpr fun _ => Value.isKept_of_mem_toJson (Value.ofPlainJson v)⟩⟩

namespace Sample

def half : Binary64.Finite := ⟨false, Binary64.twoTo 1073, by decide +kernel, by decide +kernel⟩

/-- Values in one another, with an integer and a fraction. -/
def nested : Json :=
  .object [("a", .array [.ofInt 1, .string "two", .bool false, .null]),
    ("b", .object [("c", .number (.float half))])]

/-- A zero with a sign, which is written without one. -/
def negativeZero : Json := .number (.float (-.zero))

end Sample

theorem plain_values_settle_on_sample :
    (∀ n ∈ Sample.nested.numbers, n.IsKept) ∧
      (Value.ofPlainJson Sample.nested).toJson = Sample.nested ∧
      (Value.ofPlainJson Sample.negativeZero).toJson = .ofInt 0 ∧
      (Value.ofPlainJson (.ofInt 0) == Value.ofPlainJson Sample.negativeZero) = true := by
  obtain ⟨hreturns, hsettles⟩ := plain_values_settle
  have hwhole : Sample.half.isWhole = false := by decide +kernel
  have hhalf : (Json.Number.float Sample.half).IsKept := by
    intro n hn
    rw [hn.isWhole] at hwhole
    cases hwhole
  have hone : (Json.Number.integer 1 (by decide)).IsKept := by
    show Int.natAbs 1 ≤ maxExactInteger
    decide
  have hnumbers : ∀ n ∈ Sample.nested.numbers, n.IsKept :=
    List.forall_mem_cons.mpr ⟨hone, List.forall_mem_singleton.mpr hhalf⟩
  have hcounts : (-.zero : Binary64.Finite).Counts 0 := (Int.zero_mul _).symm
  have hzero : (Value.ofPlainJson Sample.negativeZero).toJson = .ofInt 0 :=
    Except.ok.inj (Binary64.Counts.ofBinary64 ⟨_, rfl, hcounts⟩ (Nat.zero_le _))
  have hsettled := (hsettles Sample.negativeZero).1
  rw [hzero] at hsettled
  exact ⟨hnumbers, (hreturns _).mpr hnumbers, hzero, hsettled⟩

end RecordRules
