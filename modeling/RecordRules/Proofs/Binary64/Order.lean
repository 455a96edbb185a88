/-
The order of rounded integers.

Rounding never passes a number on the grid, so it keeps the order of magnitudes.  A whole number is
rounded to a whole number, which is itself up to `2 ^ 53`.  So two integers compare as the integers
that they are rounded to, and those that are told wrong are beyond that and close to each other.
-/
import Mathlib.Tactic.SplitIfs
import RecordRules.Proofs.Binary64.Nearest

namespace RecordRules
namespace Binary64

/-! ## Magnitudes -/

theorem roundHalfEven_mono {a b : Nat} (d : Nat) (h : a ≤ b) :
    roundHalfEven a d ≤ roundHalfEven b d := by
  rcases Nat.lt_or_eq_of_le (Nat.div_le_div_right (c := d) h) with hlt | heq
  · calc roundHalfEven a d
      _ ≤ a / d + 1 := roundHalfEven_le a d
      _ ≤ b / d := hlt
      _ ≤ roundHalfEven b d := le_roundHalfEven b d
  · have hrest : a % d ≤ b % d := by
      have ha := Nat.div_add_mod a d
      have hb := Nat.div_add_mod b d
      rw [heq] at ha
      omega
    unfold roundHalfEven
    dsimp only
    rw [heq]
    split_ifs <;> omega

theorem roundHalfEven_mul_right (a d : Nat) {c : Nat} (hc : 0 < c) :
    roundHalfEven (a * c) (d * c) = roundHalfEven a d := by
  have htwice : 2 * (a * c % (d * c)) = 2 * (a % d) * c := by
    rw [Nat.mul_mod_mul_right, Nat.mul_assoc]
  unfold roundHalfEven
  dsimp only
  simp only [Nat.mul_div_mul_right a d hc, htwice, Nat.mul_lt_mul_right hc]

theorem nearest_one (n : Nat) : nearest n 1 = roundHalfEven n (gap n) * gap n := by
  unfold nearest
  dsimp only
  rw [Nat.div_one, Nat.one_mul]

/-- Rounding up does not pass a number on the grid. -/
theorem nearest_le_of_dvd {n p : Nat} (hgrid : gap n ∣ p) (h : n ≤ p) : nearest n 1 ≤ p := by
  obtain ⟨k, rfl⟩ := hgrid
  rw [nearest_one, Nat.mul_comm (gap n) k]
  refine Nat.mul_le_mul_right _ ?_
  calc roundHalfEven n (gap n)
    _ ≤ roundHalfEven (k * gap n) (gap n) :=
      roundHalfEven_mono _ (Nat.mul_comm (gap n) k ▸ h)
    _ = k := roundHalfEven_mul k (gap_pos n)

/-- Rounding down does not pass a number on the grid. -/
theorem le_nearest_of_dvd {n p : Nat} (hgrid : gap n ∣ p) (h : p ≤ n) : p ≤ nearest n 1 := by
  obtain ⟨k, rfl⟩ := hgrid
  rw [nearest_one, Nat.mul_comm (gap n) k]
  refine Nat.mul_le_mul_right _ ?_
  calc k
    _ = roundHalfEven (k * gap n) (gap n) := (roundHalfEven_mul k (gap_pos n)).symm
    _ ≤ roundHalfEven n (gap n) := roundHalfEven_mono _ (Nat.mul_comm (gap n) k ▸ h)

theorem nearest_mono {a b : Nat} (h : a ≤ b) : nearest a 1 ≤ nearest b 1 := by
  rcases Nat.eq_zero_or_pos a with rfl | ha
  · rw [nearest_of_onGrid (Nat.dvd_zero _)]
    exact Nat.zero_le _
  · have hane : a ≠ 0 := ha.ne'
    have hbne : b ≠ 0 := (ha.trans_le h).ne'
    have hlog : a.log2 ≤ b.log2 :=
      (le_log2_iff hbne).mpr (((le_log2_iff hane).mp (Nat.le_refl _)).trans h)
    rcases Nat.lt_or_eq_of_le hlog with hlt | heq
    · -- A power of two lies between the two magnitudes, and on the grid of both.
      have hlow : a ≤ twoTo b.log2 := ((log2_lt_iff hane).mp hlt).le
      have hhigh : twoTo b.log2 ≤ b := (le_log2_iff hbne).mp (Nat.le_refl _)
      calc nearest a 1
        _ ≤ twoTo b.log2 := nearest_le_of_dvd (twoTo_dvd (by omega)) hlow
        _ ≤ nearest b 1 := le_nearest_of_dvd (twoTo_dvd (by omega)) hhigh
    · have hgap : gap a = gap b := by
        unfold gap
        rw [heq]
      rw [nearest_one, nearest_one, hgap]
      exact Nat.mul_le_mul_right _ (roundHalfEven_mono _ h)

/-- Whole numbers are rounded to whole numbers. -/
theorem nearest_mul_one (n : Nat) : nearest (n * one) 1 = nearest n 1 * one := by
  rcases gap_cases n with ⟨hsmall, hgap⟩ | ⟨j, hgap, hlow, hhigh⟩
  · rw [nearest_of_onGrid (gap_dvd_integer hsmall), nearest_of_onGrid (hgap ▸ Nat.one_dvd n)]
  · have hscaled : gap (n * one) = gap n * one := by
      rw [hgap, show one = twoTo 1074 from rfl, ← twoTo_add]
      apply gap_eq_of_mem
      · rw [Nat.add_right_comm, twoTo_add, twoTo_add, Nat.mul_comm (twoTo j)]
        exact Nat.mul_le_mul_right _ hlow
      · rw [Nat.add_right_comm, twoTo_add, twoTo_add, Nat.mul_comm (twoTo j)]
        exact Nat.mul_lt_mul_of_pos_right hhigh (twoTo_pos 1074)
    rw [nearest_one, nearest_one, hscaled, roundHalfEven_mul_right n (gap n) one_pos,
      Nat.mul_assoc]

theorem nearest_of_le {n : Nat} (h : n ≤ twoTo 53) : nearest n 1 = n := by
  rcases Nat.lt_or_eq_of_le h with hlt | rfl
  · exact nearest_of_onGrid (gap_eq_one hlt ▸ Nat.one_dvd n)
  · have hgap : gap (twoTo 53) = twoTo 1 :=
      gap_eq_of_mem (twoTo_le (by decide)) (twoTo_lt (by decide))
    exact nearest_of_onGrid (hgap ▸ twoTo_dvd (by decide))

/-! ## Integers -/

/-- The integer that an integer is rounded to. -/
def rounded (n : Int) : Int := n.sign * nearest n.natAbs 1

theorem rounded_natCast (n : Nat) : rounded n = nearest n 1 := by
  unfold rounded
  rcases Nat.eq_zero_or_pos n with rfl | hpos
  · rfl
  · rw [Int.sign_natCast_of_ne_zero hpos.ne', Int.one_mul, Int.natAbs_natCast]

theorem rounded_neg (n : Int) : rounded (-n) = -rounded n := by
  unfold rounded
  rw [Int.sign_neg, Int.natAbs_neg, Int.neg_mul]

theorem natAbs_rounded (n : Int) : (rounded n).natAbs = nearest n.natAbs 1 := by
  obtain ⟨k, rfl | rfl⟩ := Int.eq_nat_or_neg n
  · rw [rounded_natCast, Int.natAbs_natCast, Int.natAbs_natCast]
  · rw [rounded_neg, rounded_natCast, Int.natAbs_neg, Int.natAbs_neg, Int.natAbs_natCast,
      Int.natAbs_natCast]

theorem rounded_mono {m n : Int} (h : m ≤ n) : rounded m ≤ rounded n := by
  obtain ⟨a, rfl | rfl⟩ := Int.eq_nat_or_neg m
  · obtain ⟨b, rfl⟩ := Int.eq_ofNat_of_zero_le ((Int.natCast_nonneg a).trans h)
    rw [rounded_natCast, rounded_natCast]
    exact Int.ofNat_le.mpr (nearest_mono (Int.ofNat_le.mp h))
  · rw [rounded_neg, rounded_natCast]
    obtain ⟨b, rfl | rfl⟩ := Int.eq_nat_or_neg n
    · rw [rounded_natCast]
      omega
    · rw [rounded_neg, rounded_natCast]
      exact Int.neg_le_neg (Int.ofNat_le.mpr (nearest_mono (by omega)))

/-- Up to `2 ^ 53` integers are exact. -/
theorem rounded_eq_self {n : Int} (h : n.natAbs ≤ twoTo 53) : rounded n = n := by
  unfold rounded
  rw [nearest_of_le h, Int.sign_mul_natAbs]

theorem eq_of_ofRatio {negative : Bool} {num den : Nat} {x : Finite}
    (h : ofRatio negative num den = .finite x) :
    x.negative = negative ∧ x.units = nearest num den := by
  unfold ofRatio Finite.ofRatio? at h
  split at h
  · next hfinite =>
    split at hfinite
    · cases hfinite
      cases h
      exact ⟨rfl, rfl⟩
    · cases hfinite
  · cases h

/-- The float that an integer is read as has the value of the integer, rounded. -/
theorem toInt_ofInt {n : Int} {x : Finite} (h : ofInt n = .finite x) :
    x.toInt = rounded n * one := by
  obtain ⟨hsign, hunits⟩ := eq_of_ofRatio h
  rw [nearest_mul_one] at hunits
  unfold Finite.toInt rounded
  rw [hsign, hunits, Int.natCast_mul]
  rcases Int.lt_trichotomy n 0 with hneg | rfl | hpos
  · rw [if_pos (decide_eq_true hneg), Int.sign_eq_neg_one_of_neg hneg, Int.neg_one_mul, Int.neg_mul]
  · rw [Int.natAbs_zero, nearest_of_onGrid (Nat.dvd_zero _), Int.natCast_zero, Int.zero_mul,
      Int.mul_zero, Int.zero_mul]
    rfl
  · rw [if_neg (by simpa using hpos.le), Int.sign_eq_one_of_pos hpos, Int.one_mul]

/-! ## Integers taken for each other -/

/-- Two integers are not the same and are rounded to the same. -/
def Confused (m n : Int) : Prop := m ≠ n ∧ rounded m = rounded n

instance (m n : Int) : Decidable (Confused m n) :=
  inferInstanceAs (Decidable (m ≠ n ∧ rounded m = rounded n))

variable {m n : Int}

theorem Confused.symm (h : Confused m n) : Confused n m := ⟨h.1.symm, h.2.symm⟩

theorem eq_or_confused_iff : m = n ∨ Confused m n ↔ rounded m = rounded n := by
  unfold Confused
  constructor
  · rintro (rfl | h)
    · rfl
    · exact h.2
  · intro h
    by_cases hne : m = n
    · exact Or.inl hne
    · exact Or.inr ⟨hne, h⟩

/-- Unless they are taken for each other, integers are rounded in their order. -/
theorem compare_rounded (h : ¬Confused m n) :
    compare (rounded m) (rounded n) = compare m n := by
  by_cases heq : m = n
  · rw [heq, Std.compare_self, Std.compare_self]
  · have hne : rounded m ≠ rounded n := fun hr => h ⟨heq, hr⟩
    rcases Int.lt_or_gt_of_ne heq with hlt | hgt
    · rw [Std.compare_eq_lt.mpr hlt,
        Std.compare_eq_lt.mpr (lt_of_le_of_ne (rounded_mono hlt.le) hne)]
    · rw [Std.compare_eq_gt.mpr hgt,
        Std.compare_eq_gt.mpr (lt_of_le_of_ne (rounded_mono hgt.le) hne.symm)]

/-- Only integers from `2 ^ 53` on are taken for others. -/
theorem Confused.le_natAbs (h : Confused m n) : 9007199254740992 ≤ m.natAbs := by
  by_contra hlt
  have hm : m.natAbs < twoTo 53 := Nat.lt_of_not_le hlt
  have hself := rounded_eq_self hm.le
  by_cases hn : n.natAbs ≤ twoTo 53
  · exact h.1 (by rw [← hself, h.2, rounded_eq_self hn])
  · have hle : twoTo 53 ≤ nearest n.natAbs 1 :=
      (nearest_of_le (Nat.le_refl _)).symm.le.trans (nearest_mono (Nat.le_of_not_le hn))
    rw [← natAbs_rounded, ← h.2, hself] at hle
    exact absurd hm (Nat.not_lt.mpr hle)

theorem abs_rounded_sub_le {n : Int} (h : Json.Integral n) : |rounded n - n| ≤ 1024 := by
  have hgap : gap n.natAbs ≤ twoTo 11 := by
    have htwo : twoTo 64 = 18446744073709551616 := by decide +kernel
    have hlt : n.natAbs < twoTo 64 := by
      obtain ⟨hlow, hhigh⟩ := h
      omega
    by_cases hzero : n.natAbs = 0
    · rw [hzero]
      decide
    · have := (log2_lt_iff hzero).mpr hlt
      exact twoTo_le (by omega)
  have hgap : (gap n.natAbs : ℚ) ≤ 2048 := by exact_mod_cast hgap
  have hnear := abs_nearest_sub_le n.natAbs Nat.one_pos
  rw [Nat.div_one, Nat.cast_one, div_one] at hnear
  have hnear : |((nearest n.natAbs 1 : Nat) : ℚ) - (n.natAbs : Nat)| ≤ 1024 := by linarith
  have hnear : |((nearest n.natAbs 1 : Nat) : Int) - (n.natAbs : Nat)| ≤ 1024 := by
    exact_mod_cast hnear
  obtain ⟨k, rfl | rfl⟩ := Int.eq_nat_or_neg n
  · rw [rounded_natCast]
    rwa [Int.natAbs_natCast] at hnear
  · rw [rounded_neg, rounded_natCast, neg_sub_neg, abs_sub_comm]
    rwa [Int.natAbs_neg, Int.natAbs_natCast] at hnear

/-- Integers of 64-bit words that are taken for each other are close. -/
theorem Confused.abs_sub_le (h : Confused m n) (hm : Json.Integral m) (hn : Json.Integral n) :
    |m - n| ≤ 2048 := by
  obtain ⟨hmlow, hmhigh⟩ := abs_le.mp (abs_rounded_sub_le hm)
  obtain ⟨hnlow, hnhigh⟩ := abs_le.mp (abs_rounded_sub_le hn)
  have heq := h.2
  rw [abs_le]
  omega

end Binary64
end RecordRules
