/-
The fewest digits of a number.

Two decimals of seventeen digits are less than a gap apart, so one of them reads back as the number.
The decimal that stands for a number is therefore among those that are tried, it has at most
seventeen digits, and it lies no further out than the magnitudes that are rounded to finite numbers.
-/
import Mathlib.Algebra.Order.Field.Power
import RecordRules.Proofs.Binary64.Nearest
import RecordRules.Binary64.Decimal

namespace RecordRules
namespace Binary64

/-! ## Values of decimals -/

theorem tenTo_pos (k : Nat) : 0 < tenTo k := Nat.pow_pos (by decide)

theorem tenTo_le {j k : Nat} (h : j ≤ k) : tenTo j ≤ tenTo k :=
  Nat.pow_le_pow_right (by decide) h

theorem tenTo_add (j k : Nat) : tenTo (j + k) = tenTo j * tenTo k := Nat.pow_add 10 j k

theorem cast_tenTo (k : Nat) : (tenTo k : ℚ) = 10 ^ k := by
  show ((10 ^ k : Nat) : ℚ) = 10 ^ k
  rw [Nat.cast_pow]
  rfl

/-- The units in one at a power of ten. -/
def place (e : Int) : ℚ := 10 ^ e * one

theorem place_pos (e : Int) : 0 < place e := by
  have hone : (0 : ℚ) < one := Nat.cast_pos.mpr one_pos
  unfold place
  positivity

theorem place_succ (e : Int) : place (e + 1) = 10 * place e := by
  unfold place
  rw [zpow_add_one₀ (by norm_num)]
  ring

theorem place_add (e : Int) (k : Nat) : place (e + k) = tenTo k * place e := by
  unfold place
  rw [zpow_add₀ (by norm_num), zpow_natCast, cast_tenTo]
  ring

theorem place_natCast (k : Nat) : place k = tenTo k * one := by
  unfold place
  rw [zpow_natCast, cast_tenTo]

theorem decimalRatio_pos (m : Nat) (e : Int) : 0 < (decimalRatio m e).2 := by
  unfold decimalRatio
  split
  · exact Nat.one_pos
  · exact tenTo_pos _

theorem decimalRatio_eq (m : Nat) (e : Int) :
    (((decimalRatio m e).1 * one : Nat) : ℚ) / (decimalRatio m e).2 = m * place e := by
  unfold decimalRatio
  split
  · next he =>
    obtain ⟨k, rfl⟩ := Int.eq_ofNat_of_zero_le he
    rw [Int.toNat_natCast, place_natCast]
    push_cast
    ring
  · next he =>
    obtain ⟨k, hk⟩ := Int.eq_ofNat_of_zero_le (a := -e) (by omega)
    have hplace : tenTo k * place e = one := by
      rw [← place_add, ← hk, Int.add_right_neg]
      unfold place
      rw [zpow_zero, one_mul]
    have hten : (0 : ℚ) < tenTo k := Nat.cast_pos.mpr (tenTo_pos _)
    rw [hk, Int.toNat_natCast]
    push_cast
    rw [div_eq_iff hten.ne', ← hplace]
    ring

theorem digitCount_bounds {n : Nat} (h : n ≠ 0) :
    ∃ c, digitCount n = c + 1 ∧ tenTo c ≤ n ∧ n < tenTo (c + 1) := by
  have hpos : 0 < digitCount n := List.length_pos_iff.mpr Nat.toDigits_ne_nil
  obtain ⟨c, hc⟩ : ∃ c, digitCount n = c + 1 := ⟨digitCount n - 1, by omega⟩
  refine ⟨c, hc, ?_, (Nat.length_toDigits_le_iff (by decide) (Nat.succ_pos c)).mp hc.le⟩
  rcases Nat.eq_zero_or_pos c with rfl | hpos
  · exact Nat.pos_of_ne_zero h
  · refine Nat.le_of_not_lt fun hlt => ?_
    have hle : digitCount n ≤ c := (Nat.length_toDigits_le_iff (by decide) hpos).mpr hlt
    omega

/-- The leading digit of a magnitude stands where it is said to. -/
theorem place_leadingPower {units : Nat} (h : units ≠ 0) :
    place (leadingPower units) ≤ units ∧ units < place (leadingPower units + 1) := by
  have hone : one ≤ tenTo 340 := by decide +kernel
  have hscaled : units * tenTo 340 / one ≠ 0 := by
    have hle : tenTo 340 ≤ units * tenTo 340 :=
      Nat.le_mul_of_pos_left (tenTo 340) (Nat.pos_of_ne_zero h)
    have hpos : 0 < units * tenTo 340 / one := Nat.div_pos (hone.trans hle) one_pos
    exact hpos.ne'
  obtain ⟨c, hc, hlow, hhigh⟩ := digitCount_bounds hscaled
  rw [Nat.le_div_iff_mul_le one_pos] at hlow
  rw [Nat.div_lt_iff_lt_mul one_pos] at hhigh
  have hplace : ∀ (k : Nat) (e : Int), e + (340 : Nat) = k →
      place e * tenTo 340 = (tenTo k * one : Nat) := by
    intro k e he
    rw [mul_comm, ← place_add, he, place_natCast, Nat.cast_mul]
  have hten : (0 : ℚ) < tenTo 340 := Nat.cast_pos.mpr (tenTo_pos _)
  have hlead : leadingPower units = (c : Int) - 340 := by
    unfold leadingPower
    rw [hc]
    omega
  constructor
  · refine le_of_mul_le_mul_right ?_ hten
    rw [hplace c _ (by rw [hlead]; omega)]
    exact_mod_cast hlow
  · refine lt_of_mul_lt_mul_right ?_ hten.le
    rw [hplace (c + 1) _ (by rw [hlead]; omega)]
    exact_mod_cast hhigh

/-! ## Candidates -/

/-- The digits of a magnitude down to a power of ten. -/
def digitsDown (units : Nat) (e : Int) : Nat :=
  units * (decimalRatio 1 e).2 / ((decimalRatio 1 e).1 * one)

theorem digitsDown_bounds (units : Nat) (e : Int) :
    digitsDown units e * place e ≤ units ∧ units < (digitsDown units e + 1 : Nat) * place e := by
  have hplace := decimalRatio_eq 1 e
  rw [Nat.cast_one, one_mul] at hplace
  have hden : 0 < (decimalRatio 1 e).1 * one := by
    refine Nat.pos_of_ne_zero fun hzero => (place_pos e).ne ?_
    rw [← hplace, hzero, Nat.cast_zero, zero_div]
  have hratio : ((units * (decimalRatio 1 e).2 : Nat) : ℚ) / ((decimalRatio 1 e).1 * one : Nat) =
      units / place e := by
    rw [← hplace, Nat.cast_mul units, div_div_eq_mul_div]
  have hfloor := cast_div_le_div (units * (decimalRatio 1 e).2) hden
  have hceil := div_lt_cast_div_add_one (units * (decimalRatio 1 e).2) hden
  rw [hratio] at hfloor hceil
  exact ⟨(le_div_iff₀ (place_pos e)).mp hfloor, (div_lt_iff₀ (place_pos e)).mp hceil⟩

section

variable {tie : Tie} {units n : Nat} {lead : Int} {d : Decimal}

theorem candidate?_some (h : candidate? tie units lead n = some d) :
    d.exponent = lead + 1 - n ∧ d.digits ≤ digitsDown units d.exponent + 1 ∧
      nearestDecimal d.digits d.exponent = units := by
  unfold candidate? at h
  dsimp only at h
  split at h
  · next hreads =>
    cases h
    exact ⟨rfl, Nat.le_refl _, beq_iff_eq.mp (Bool.and_eq_true_iff.mp hreads).1⟩
  · split at h
    · next hreads =>
      cases h
      exact ⟨rfl, Nat.le_succ _, beq_iff_eq.mp hreads⟩
    · cases h

theorem isSome_candidate? {e : Int} (he : e = lead + 1 - n)
    (h : nearestDecimal (digitsDown units e) e = units ∨
      nearestDecimal (digitsDown units e + 1) e = units) :
    (candidate? tie units lead n).isSome := by
  subst he
  unfold candidate?
  dsimp only
  split
  · rfl
  · next hhigh =>
    split
    · rfl
    · next hlow =>
      rcases h with h | h
      · exact absurd (beq_iff_eq.mpr h) hlow
      · refine absurd ?_ hhigh
        rw [Bool.eq_false_of_not_eq_true hlow, Bool.not_false, Bool.or_true, Bool.and_true]
        exact beq_iff_eq.mpr h

end

theorem nearestDecimal_eq_of_close {m u : Nat} {e : Int} (hgrid : gap u ∣ u)
    (hclose : |m * place e - u| < gap u / 2)
    (hside : (u : ℚ) ≤ m * place e ∨ u < twoTo 53 ∨ twoTo 52 * gap u < u) :
    nearestDecimal m e = u := by
  rw [← decimalRatio_eq] at hclose hside
  exact nearest_eq_of_close (decimalRatio_pos m e) hgrid hclose hside

/-- Of the two decimals of seventeen digits around a magnitude one reads back. -/
theorem isSome_candidate?_seventeen (tie : Tie) {u : Nat} (hgrid : gap u ∣ u) (hu : u ≠ 0) :
    (candidate? tie u (leadingPower u) 17).isSome := by
  obtain ⟨e, he⟩ : ∃ e, e = leadingPower u + 1 - (17 : Nat) := ⟨_, rfl⟩
  refine isSome_candidate? he ?_
  obtain ⟨hlow, hhigh⟩ := digitsDown_bounds u e
  have hpos := place_pos e
  -- One in the last place is less than a gap.
  have hplace : 10000000000000000 * place e ≤ u := by
    have hlead : leadingPower u = e + (16 : Nat) := by omega
    have hle := (place_leadingPower hu).1
    rw [hlead, place_add, cast_tenTo] at hle
    norm_num at hle
    exact hle
  have hgap : (u : ℚ) < 9007199254740992 * gap u := by
    rcases gap_cases u with ⟨hlt, hgap⟩ | ⟨j, hgap, _, hlt⟩
    · rw [hgap, Nat.cast_one, mul_one]
      exact_mod_cast hlt
    · rw [hgap]
      exact_mod_cast hlt
  rw [Nat.cast_add_one] at hhigh
  by_cases hnear : ((digitsDown u e + 1 : Nat) : ℚ) * place e - u < gap u / 2
  · right
    rw [Nat.cast_add_one] at hnear
    refine nearestDecimal_eq_of_close hgrid ?_ (Or.inl ?_)
    · rw [abs_lt]
      push_cast
      constructor <;> linarith
    · push_cast
      exact hhigh.le
  · left
    rw [Nat.cast_add_one] at hnear
    refine nearestDecimal_eq_of_close hgrid ?_ (Or.inr ?_)
    · rw [abs_lt]
      constructor <;> linarith
    · by_contra hside
      have hle : u ≤ twoTo 52 * gap u := Nat.le_of_not_lt fun hlt => hside (Or.inr hlt)
      have hle : (u : ℚ) ≤ 4503599627370496 * gap u := by exact_mod_cast hle
      linarith

/-! ## The decimal that stands for a number -/

theorem trim_value (rounds : Nat) (d : Decimal) :
    ((d.trim rounds).digits : ℚ) * place (d.trim rounds).exponent =
      d.digits * place d.exponent := by
  induction rounds generalizing d with
  | zero => rfl
  | succ rounds ih =>
    unfold Decimal.trim
    split
    · next hzero =>
      have hdigits : d.digits / 10 * 10 = d.digits := by omega
      rw [ih, place_succ, ← mul_assoc]
      congr 1
      exact_mod_cast hdigits
    · rfl

/-- Only zeros at the end are taken away. -/
theorem trim_cases (rounds : Nat) (d : Decimal) :
    d.trim rounds = d ∨ 10 * (d.trim rounds).digits ≤ d.digits := by
  induction rounds generalizing d with
  | zero => exact Or.inl rfl
  | succ rounds ih =>
    unfold Decimal.trim
    split
    · right
      rcases ih ⟨d.digits / 10, d.exponent + 1⟩ with heq | hle
      · rw [heq]
        exact Nat.mul_div_le d.digits 10
      · dsimp only at hle
        omega
    · exact Or.inl rfl

theorem digits_trim_le (rounds : Nat) (d : Decimal) : (d.trim rounds).digits ≤ d.digits := by
  rcases trim_cases rounds d with heq | hle
  · rw [heq]
  · omega

/-- The decimal that stands for a magnitude is a candidate, but for zeros at its end. -/
theorem exists_candidate (tie : Tie) {u : Nat} (hgrid : gap u ∣ u) (hu : u ≠ 0) :
    ∃ i < 17, ∃ d, candidate? tie u (leadingPower u) (i + 1) = some d ∧
      shortestUnits tie u = d.trim 17 := by
  unfold shortestUnits
  rw [if_neg hu]
  split
  · next d hd =>
    obtain ⟨i, hi, hcandidate⟩ := List.exists_of_findSome?_eq_some hd
    exact ⟨i, List.mem_range.mp hi, d, hcandidate, rfl⟩
  · next hnone =>
    have hsome := isSome_candidate?_seventeen tie hgrid hu
    rw [List.findSome?_eq_none_iff.mp hnone 16 (List.mem_range.mpr (by decide))] at hsome
    cases hsome

section

variable {tie : Tie} {u n : Nat} {d : Decimal}

theorem digits_candidate?_le (hu : u ≠ 0) (h : candidate? tie u (leadingPower u) n = some d) :
    d.digits ≤ tenTo n := by
  obtain ⟨he, hdigits, -⟩ := candidate?_some h
  have hlead : leadingPower u + 1 = d.exponent + n := by omega
  have hhigh := (place_leadingPower hu).2
  have hlow := (digitsDown_bounds u d.exponent).1
  rw [hlead, place_add] at hhigh
  have hlt : (digitsDown u d.exponent : ℚ) < tenTo n :=
    lt_of_mul_lt_mul_right (hlow.trans_lt hhigh) (place_pos _).le
  have hlt : digitsDown u d.exponent < tenTo n := Nat.cast_lt.mp hlt
  omega

/-- The decimal that stands for a finite number has at most seventeen digits, it is no further out
than what is rounded to finite numbers, and if it has all seventeen it reads back as it is. -/
theorem shortestUnits_bounds (tie : Tie) (hgrid : gap u ∣ u) (hu : u ≠ 0) (hlimit : u < limit)
    (h : shortestUnits tie u = d) :
    d.digits ≤ tenTo 17 ∧ d.digits * place d.exponent ≤ bound ∧
      (tenTo 16 < d.digits → nearestDecimal d.digits d.exponent = u) := by
  obtain ⟨i, hi, c, hcandidate, heq⟩ := exists_candidate tie hgrid hu
  obtain ⟨-, -, hreads⟩ := candidate?_some hcandidate
  have hdigits : c.digits ≤ tenTo 17 :=
    (digits_candidate?_le hu hcandidate).trans (tenTo_le (by omega))
  obtain rfl : c.trim 17 = d := heq.symm.trans h
  refine ⟨(digits_trim_le 17 c).trans hdigits, ?_, fun hlong => ?_⟩
  · rw [trim_value, ← decimalRatio_eq]
    refine le_bound_of_nearest_lt_limit (decimalRatio_pos _ _) ?_
    unfold nearestDecimal at hreads
    rwa [hreads]
  · rcases trim_cases 17 c with htrim | htrim
    · rwa [htrim]
    · have hten : tenTo 17 = 10 * tenTo 16 := tenTo_add 1 16
      omega

end

end Binary64
end RecordRules
