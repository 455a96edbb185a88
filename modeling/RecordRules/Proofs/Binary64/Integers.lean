/-
Integers in binary64 arithmetic.

An integer of at most 53 bits lies on the grid, so sums of such integers are exact as long as they
are as small themselves.
-/
import RecordRules.Proofs.Binary64.Rounding
import RecordRules.Value

namespace RecordRules
namespace Binary64

/-! ## Values that are integers -/

/-- The number has the value of an integer. -/
def Finite.Counts (x : Finite) (n : Int) : Prop := x.toInt = n * one

/-- The value is finite and has the value of an integer. -/
def Counts (x : Binary64) (n : Int) : Prop := ∃ y, x = .finite y ∧ y.Counts n

namespace Finite

variable {x : Finite} {n : Int}

/-- Only zeros are equal without being the same. -/
theorem eq_of_toInt_eq {y : Finite} (hx : x.units ≠ 0) (h : y.toInt = x.toInt) : y = x := by
  obtain ⟨s, u, _, _⟩ := x
  obtain ⟨t, v, _, _⟩ := y
  simp only [toInt] at h hx
  rw [Finite.mk.injEq]
  cases s <;> cases t <;> simp only [Bool.false_eq_true, if_true, if_false] at h <;>
    simp <;> omega

theorem natAbs_toInt (x : Finite) : x.toInt.natAbs = x.units := by
  unfold toInt
  split <;> omega

theorem Counts.units_eq (h : x.Counts n) : x.units = n.natAbs * one := by
  rw [← natAbs_toInt, h, Int.natAbs_mul, Int.natAbs_natCast]

theorem Counts.isWhole (h : x.Counts n) : x.isWhole = true := by
  unfold Finite.isWhole
  rw [h.units_eq, Nat.mul_mod_left]
  rfl

/-- The part of a whole number before the point is the number. -/
theorem counts_truncate (h : x.isWhole = true) : x.Counts x.truncate := by
  have hdvd : x.units / one * one = x.units :=
    Nat.div_mul_cancel (Nat.dvd_of_mod_eq_zero (eq_of_beq h))
  unfold Counts toInt truncate
  split
  · rw [Int.neg_mul, ← Int.natCast_mul, hdvd]
  · rw [← Int.natCast_mul, hdvd]

theorem Counts.unique {m : Int} (h : x.Counts n) (h' : x.Counts m) : n = m :=
  Int.eq_of_mul_eq_mul_right (Int.natCast_ne_zero.mpr (Nat.ne_of_gt one_pos)) (h.symm.trans h')

theorem Counts.truncate_eq (h : x.Counts n) : x.truncate = n :=
  (counts_truncate h.isWhole).unique h

theorem Counts.neg (h : x.Counts n) : (-x).Counts (-n) := by
  have hneg : (-x).toInt = -x.toInt := by
    show (if !x.negative then _ else _) = -(if x.negative then _ else _)
    cases x.negative
    · rfl
    · exact (Int.neg_neg _).symm
  unfold Counts
  rw [hneg, h, Int.neg_mul]

end Finite

/-! ## Rounding of integers -/

/-- A magnitude on the grid is the nearest to itself. -/
theorem nearest_of_onGrid {n : Nat} (h : gap n ∣ n) : nearest n 1 = n := by
  obtain ⟨k, hk⟩ := h
  unfold nearest
  dsimp only
  rw [Nat.div_one, Nat.one_mul]
  have hround : roundHalfEven n (gap n) = k := by
    have hmul : n = k * gap n := by rw [Nat.mul_comm, ← hk]
    calc roundHalfEven n (gap n)
      _ = roundHalfEven (k * gap n) (gap n) := by rw [← hmul]
      _ = k := roundHalfEven_mul k (gap_pos n)
  rw [hround, Nat.mul_comm, ← hk]

/-- The units in one split into two powers of two. -/
theorem one_eq {j k : Nat} (h : j + k = 1074) : one = twoTo j * twoTo k := by
  rw [← twoTo_add, h]
  rfl

theorem gap_dvd_integer {k : Nat} (h : k < twoTo 53) : gap (k * one) ∣ k * one := by
  rcases Nat.eq_zero_or_pos k with hzero | hpos
  · rw [hzero, Nat.zero_mul]
    exact Nat.dvd_zero _
  · have hne : k ≠ 0 := Nat.ne_of_gt hpos
    have hlog : k.log2 < 53 := (log2_lt_iff hne).mpr h
    have hlow : twoTo k.log2 ≤ k := (le_log2_iff hne).mp (Nat.le_refl _)
    have hhigh : k < twoTo (k.log2 + 1) := (log2_lt_iff hne).mp (Nat.lt_succ_self _)
    have hone : one = twoTo 1022 * twoTo 52 := one_eq rfl
    have hgap : gap (k * one) = twoTo (k.log2 + 1022) := by
      apply gap_eq_of_mem
      · rw [Nat.add_assoc, twoTo_add, twoTo_add, ← hone]
        exact Nat.mul_le_mul_right _ hlow
      · rw [Nat.add_assoc, Nat.add_comm 1022 53, show 53 = 1 + 52 from rfl, Nat.add_assoc 1,
          ← Nat.add_assoc, twoTo_add, twoTo_add 52, Nat.mul_comm (twoTo 52), ← hone]
        exact Nat.mul_lt_mul_of_pos_right hhigh one_pos
    have hsplit : one = twoTo (k.log2 + 1022) * twoTo (52 - k.log2) := one_eq (by omega)
    rw [hgap, hsplit]
    exact Nat.dvd_mul_left_of_dvd (Nat.dvd_mul_right _ _) k

theorem integer_lt_limit {k : Nat} (h : k < twoTo 53) : k * one < limit := by
  have hone : one = twoTo 1021 * twoTo 53 := one_eq rfl
  have hle : twoTo 53 * one ≤ limit := by
    rw [hone, ← twoTo_add, ← twoTo_add]
    exact twoTo_le (by omega)
  exact Nat.lt_of_lt_of_le (Nat.mul_lt_mul_of_pos_right h one_pos) hle

theorem ofRatio_integer (negative : Bool) {k : Nat} (h : k < twoTo 53) :
    ∃ y, ofRatio negative (k * one) 1 = .finite y ∧ y.negative = negative ∧ y.units = k * one := by
  have hnearest := nearest_of_onGrid (gap_dvd_integer h)
  have hlt : nearest (k * one) 1 < limit := by
    rw [hnearest]
    exact integer_lt_limit h
  exact ⟨_, ofRatio_of_lt negative hlt, rfl, hnearest⟩

/-- A magnitude with the sign of an integer counts that integer. -/
theorem Finite.counts_of_sign {y : Finite} {n : Int} (hsign : y.negative = decide (n < 0))
    (hunits : y.units = n.natAbs * one) : y.Counts n := by
  unfold Counts toInt
  rw [hsign, hunits, Int.natCast_mul]
  by_cases hn : n < 0
  · rw [if_pos (decide_eq_true hn), ← Int.neg_mul]
    congr 1
    omega
  · rw [if_neg (by rw [decide_eq_false hn]; exact Bool.false_ne_true)]
    congr 1
    omega

theorem lt_of_le_maxExactInteger {n : Nat} (h : n ≤ maxExactInteger) : n < twoTo 53 :=
  Nat.lt_of_le_of_lt h (by decide +kernel)

theorem counts_ofInt {n : Int} (h : n.natAbs ≤ maxExactInteger) : (ofInt n).Counts n := by
  obtain ⟨y, hy, hsign, hunits⟩ := ofRatio_integer (decide (n < 0)) (lt_of_le_maxExactInteger h)
  exact ⟨y, hy, Finite.counts_of_sign hsign hunits⟩

/-! ## Arithmetic of integers -/

section

variable {x y : Binary64} {m n : Int}

/-- A sum in the exact range is exact. -/
theorem Counts.add (hx : x.Counts m) (hy : y.Counts n) (h : (m + n).natAbs ≤ maxExactInteger) :
    (x + y).Counts (m + n) := by
  obtain ⟨a, rfl, ha⟩ := hx
  obtain ⟨b, rfl, hb⟩ := hy
  have hsum : a.toInt + b.toInt = (m + n) * one := by rw [ha, hb, Int.add_mul]
  show (if a.toInt + b.toInt = 0 then ofRatio (a.negative && b.negative) 0 1
    else ofRatio (a.toInt + b.toInt < 0) (a.toInt + b.toInt).natAbs 1 : Binary64).Counts (m + n)
  rw [hsum]
  have hone : 0 < (one : Int) := Int.natCast_pos.mpr one_pos
  by_cases hzero : (m + n) * one = 0
  · rw [if_pos hzero]
    have hzero : m + n = 0 := (Int.mul_eq_zero.mp hzero).resolve_right (Int.ne_of_gt hone)
    have hunits : (0 : Nat) = 0 * one := (Nat.zero_mul _).symm
    rw [hzero, hunits]
    obtain ⟨y, hy, _, hunits⟩ := ofRatio_integer (a.negative && b.negative) (twoTo_pos 53)
    refine ⟨y, hy, ?_⟩
    have hnat := y.natAbs_toInt
    rw [hunits, Nat.zero_mul] at hnat
    unfold Finite.Counts
    rw [Int.zero_mul]
    exact Int.natAbs_eq_zero.mp hnat
  · rw [if_neg hzero, Int.natAbs_mul, Int.natAbs_natCast]
    have hsign : decide ((m + n) * one < 0) = decide (m + n < 0) :=
      decide_eq_decide.mpr ⟨fun hlt => Int.neg_of_mul_neg_left hlt hone,
        fun hlt => Int.mul_neg_of_neg_of_pos hlt hone⟩
    rw [hsign]
    obtain ⟨y, hy, hsign, hunits⟩ := ofRatio_integer (decide (m + n < 0))
      (lt_of_le_maxExactInteger h)
    exact ⟨y, hy, Finite.counts_of_sign hsign hunits⟩

/-- An integer in the exact range is written as one. -/
theorem Counts.ofBinary64 (h : x.Counts n) (hn : n.natAbs ≤ maxExactInteger) :
    Json.ofBinary64 x = .ok (.ofInt n) := by
  obtain ⟨y, rfl, hy⟩ := h
  show Except.ok (Json.ofFinite y) = _
  unfold Json.ofFinite
  rw [if_pos ⟨hy.isWhole, by rwa [hy.truncate_eq]⟩, hy.truncate_eq]

end

end Binary64

/-! ## Integers as JSON numbers -/

namespace Json

theorem ofInt_of_integral {n : Int} (h : Integral n) : Json.ofInt n = .number (.integer n h) := by
  unfold Json.ofInt Number.ofInt?
  rw [dif_pos h]

/-- An integer of the exact range is one of the integers that JSON numbers hold. -/
theorem ofInt_eq {n : Int} (h : n.natAbs ≤ maxExactInteger) :
    ∃ integral, Json.ofInt n = .number (.integer n integral) := by
  have hintegral : Integral n := by
    unfold maxExactInteger at h
    constructor <;> omega
  exact ⟨hintegral, ofInt_of_integral hintegral⟩

theorem Number.number?_eq {n : Number} {x : Binary64.Finite} (h : n.toBinary64 = .finite x) :
    (number n).number? = some x := by
  unfold Json.number?
  dsimp only
  rw [h]

end Json
end RecordRules
