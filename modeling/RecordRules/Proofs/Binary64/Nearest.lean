/-
How near rounding comes.

A magnitude is rounded to within half of the gap around it.  So whatever lies within half a gap of
a number on the grid is rounded to that number, but for the numbers at a power of two, below which
the gap is half as wide.  The magnitudes that are rounded to a finite number end half a gap beyond
the greatest one.
-/
import Mathlib.Algebra.Order.Field.Basic
import Mathlib.Algebra.Order.Field.Rat
import Mathlib.Algebra.Order.Ring.Abs
import Mathlib.Tactic.FieldSimp
import Mathlib.Tactic.Linarith
import Mathlib.Tactic.NormNum
import Mathlib.Tactic.Positivity
import Mathlib.Tactic.Ring
import RecordRules.Proofs.Binary64.Integers

namespace RecordRules
namespace Binary64

/-! ## Half a gap -/

theorem abs_roundHalfEven_sub_le (num : Nat) {den : Nat} (h : 0 < den) :
    |(roundHalfEven num den : ℚ) - num / den| ≤ 1 / 2 := by
  have hden : (0 : ℚ) < den := Nat.cast_pos.mpr h
  obtain ⟨part, hpart⟩ : ∃ part : ℚ, part = (num % den : Nat) / den := ⟨_, rfl⟩
  have hsplit : (num : ℚ) / den = (num / den : Nat) + part := by
    have hnum : ((den * (num / den) + num % den : Nat) : ℚ) = num := by rw [Nat.div_add_mod]
    rw [hpart, ← hnum]
    push_cast
    field_simp
  have hnonneg : 0 ≤ part := hpart ▸ div_nonneg (Nat.cast_nonneg _) hden.le
  have htwice : 2 * part = (2 * (num % den) : Nat) / den := by
    rw [hpart]
    push_cast
    ring
  have hlow : 2 * (num % den) ≤ den → 2 * part ≤ 1 := fun hle => by
    rw [htwice, div_le_one hden]
    exact Nat.cast_le.mpr hle
  have hhigh : den ≤ 2 * (num % den) → 1 ≤ 2 * part := fun hle => by
    rw [htwice, one_le_div hden]
    exact Nat.cast_le.mpr hle
  have hlt : part ≤ 1 := by
    rw [hpart, div_le_one hden]
    exact Nat.cast_le.mpr (Nat.mod_lt num h).le
  rw [hsplit, abs_le]
  unfold roundHalfEven
  dsimp only
  split
  · next hlt =>
    have := hlow hlt.le
    constructor <;> linarith
  · next hge =>
    have hhigh := hhigh (Nat.le_of_not_lt hge)
    split
    · push_cast
      constructor <;> linarith
    · next hle =>
      have hlow := hlow (Nat.le_of_not_lt hle)
      rcases Nat.mod_two_eq_zero_or_one (num / den) with heven | hodd
      · rw [heven, Nat.add_zero]
        constructor <;> linarith
      · rw [hodd]
        push_cast
        constructor <;> linarith

/-- Rounding goes at most half a gap. -/
theorem abs_nearest_sub_le (num : Nat) {den : Nat} (h : 0 < den) :
    |(nearest num den : ℚ) - num / den| ≤ gap (num / den) / 2 := by
  have hden : (0 : ℚ) < den := Nat.cast_pos.mpr h
  have hgap : (0 : ℚ) < gap (num / den) := Nat.cast_pos.mpr (gap_pos _)
  have hround := abs_roundHalfEven_sub_le num (Nat.mul_pos h (gap_pos (num / den)))
  have hscaled : (nearest num den : ℚ) - num / den =
      ((roundHalfEven num (den * gap (num / den)) : ℚ) - num / (den * gap (num / den) : Nat)) *
        gap (num / den) := by
    unfold nearest
    push_cast
    field_simp
  rw [hscaled, abs_mul, abs_of_pos hgap]
  linarith [mul_le_mul_of_nonneg_right hround hgap.le]

/-- A magnitude has fewer than 54 bits, or 53 bits times the gap around it. -/
theorem gap_cases (n : Nat) :
    (n < twoTo 53 ∧ gap n = 1) ∨
      ∃ j, gap n = twoTo j ∧ twoTo 52 * twoTo j ≤ n ∧ n < twoTo 53 * twoTo j := by
  by_cases hn : n < twoTo 53
  · exact Or.inl ⟨hn, gap_eq_one hn⟩
  · have hne : n ≠ 0 := fun h => hn (h ▸ twoTo_pos 53)
    have hlog : 53 ≤ n.log2 := (le_log2_iff hne).mpr (Nat.le_of_not_lt hn)
    obtain ⟨j, hj⟩ : ∃ j, n.log2 = 52 + j := ⟨n.log2 - 52, by omega⟩
    have hlow : twoTo (52 + j) ≤ n := (le_log2_iff hne).mp (hj ▸ Nat.le_refl _)
    have hhigh : n < twoTo (53 + j) := (log2_lt_iff hne).mp (by omega)
    refine Or.inr ⟨j, gap_eq_of_mem ?_ ?_, ?_, ?_⟩
    · rwa [Nat.add_comm]
    · rwa [Nat.add_comm]
    · rwa [← twoTo_add]
    · rwa [← twoTo_add]

/-- A whole magnitude is rounded by at most one part in `2 ^ 53`. -/
theorem abs_nearest_one_sub_le (n : Nat) : |(nearest n 1 : ℚ) - n| ≤ n / 2 ^ 53 := by
  rcases gap_cases n with ⟨_, hgap⟩ | ⟨j, hgap, hlow, _⟩
  · have hgrid : gap n ∣ n := hgap ▸ Nat.one_dvd n
    rw [nearest_of_onGrid hgrid, sub_self, abs_zero]
    positivity
  · have hnear := abs_nearest_sub_le n Nat.one_pos
    rw [Nat.div_one, Nat.cast_one, div_one, hgap] at hnear
    have hlow : (4503599627370496 : ℚ) * twoTo j ≤ n := by exact_mod_cast hlow
    linarith

theorem nearest_one_le (n : Nat) : 9007199254740992 * nearest n 1 ≤ 9007199254740993 * n := by
  obtain ⟨-, hnear⟩ := abs_le.mp (abs_nearest_one_sub_le n)
  have hle : (9007199254740992 : ℚ) * nearest n 1 ≤ 9007199254740993 * n := by linarith
  exact_mod_cast hle

/-! ## The way back to the grid -/

theorem add_le_of_dvd {g a b : Nat} (ha : g ∣ a) (hb : g ∣ b) (h : a < b) : a + g ≤ b := by
  have := Nat.le_of_dvd (Nat.sub_pos_of_lt h) (Nat.dvd_sub hb ha)
  omega

theorem cast_div_le_div (num : Nat) {den : Nat} (h : 0 < den) :
    ((num / den : Nat) : ℚ) ≤ num / den := by
  rw [le_div_iff₀ (Nat.cast_pos.mpr h)]
  exact_mod_cast Nat.div_mul_le_self num den

theorem div_lt_cast_div_add_one (num : Nat) {den : Nat} (h : 0 < den) :
    (num : ℚ) / den < (num / den + 1 : Nat) := by
  rw [div_lt_iff₀ (Nat.cast_pos.mpr h)]
  exact_mod_cast Nat.lt_mul_of_div_lt (Nat.lt_succ_self _) h

section

variable {num den u : Nat}

/-- The gap around a ratio within half a gap of a number on the grid is that of the number. -/
theorem gap_eq_of_close (hden : 0 < den) (hgrid : gap u ∣ u)
    (hclose : |(num : ℚ) / den - u| < gap u / 2)
    (hside : (u : ℚ) ≤ num / den ∨ u < twoTo 53 ∨ twoTo 52 * gap u < u) :
    gap (num / den) = gap u := by
  have hfloor := cast_div_le_div num hden
  have hceil := div_lt_cast_div_add_one num hden
  obtain ⟨hbelow, habove⟩ := abs_lt.mp hclose
  by_cases hu : u < twoTo 53
  · rw [gap_eq_one hu, Nat.cast_one] at habove
    have hlt : num / den < u + 1 := by
      have : ((num / den : Nat) : ℚ) < (u + 1 : Nat) := by
        push_cast
        linarith
      exact_mod_cast this
    rw [gap_eq_one hu]
    exact gap_eq_one (by omega)
  · obtain ⟨j, hgap, hlow, hhigh⟩ := (gap_cases u).resolve_left fun h => hu h.1
    rw [hgap] at hgrid hbelow habove hside ⊢
    have hpos : (0 : ℚ) < twoTo j := Nat.cast_pos.mpr (twoTo_pos j)
    have hlt : num / den < twoTo 53 * twoTo j := by
      have hstep := add_le_of_dvd hgrid (Nat.dvd_mul_left (twoTo j) (twoTo 53)) hhigh
      have hstep : (u : ℚ) + twoTo j ≤ (twoTo 53 * twoTo j : Nat) := by exact_mod_cast hstep
      have : ((num / den : Nat) : ℚ) < (twoTo 53 * twoTo j : Nat) := by linarith
      exact_mod_cast this
    have hle : twoTo 52 * twoTo j ≤ num / den := by
      have : ((twoTo 52 * twoTo j : Nat) : ℚ) < (num / den + 1 : Nat) := by
        rcases hside with hside | hside | hside
        · have hlow : ((twoTo 52 * twoTo j : Nat) : ℚ) ≤ u := by exact_mod_cast hlow
          linarith
        · exact absurd hside hu
        · have hstep := add_le_of_dvd (Nat.dvd_mul_left (twoTo j) (twoTo 52)) hgrid hside
          have hstep : ((twoTo 52 * twoTo j : Nat) : ℚ) + twoTo j ≤ u := by exact_mod_cast hstep
          linarith
      exact Nat.le_of_lt_succ (by exact_mod_cast this)
    apply gap_eq_of_mem
    · rwa [twoTo_add, Nat.mul_comm]
    · rwa [twoTo_add, Nat.mul_comm]

/-- A ratio within half a gap of a number on the grid is rounded to it. -/
theorem nearest_eq_of_close (hden : 0 < den) (hgrid : gap u ∣ u)
    (hclose : |(num : ℚ) / den - u| < gap u / 2)
    (hside : (u : ℚ) ≤ num / den ∨ u < twoTo 53 ∨ twoTo 52 * gap u < u) :
    nearest num den = u := by
  have hgap := gap_eq_of_close hden hgrid hclose hside
  have hnear := abs_nearest_sub_le num hden
  rw [hgap] at hnear
  have hdvd : gap u ∣ nearest num den := hgap ▸ Nat.dvd_mul_left _ _
  obtain ⟨hbelow, habove⟩ := abs_lt.mp hclose
  obtain ⟨hnearBelow, hnearAbove⟩ := abs_le.mp hnear
  -- Both are multiples of the gap, and less than a gap apart.
  have hle : ∀ a b : Nat, gap u ∣ a → gap u ∣ b → (b : ℚ) < a + gap u → b ≤ a := by
    intro a b ha hb hlt
    by_contra hba
    have hstep := add_le_of_dvd ha hb (Nat.lt_of_not_le hba)
    have hstep : (a : ℚ) + gap u ≤ b := by exact_mod_cast hstep
    linarith
  exact Nat.le_antisymm (hle _ _ hgrid hdvd (by linarith)) (hle _ _ hdvd hgrid (by linarith))

end

/-! ## The finite numbers -/

theorem twoTo_succ (k : Nat) : twoTo (k + 1) = 2 * twoTo k := by
  rw [twoTo_add, Nat.mul_comm]
  rfl

theorem twoTo_dvd {j k : Nat} (h : j ≤ k) : twoTo j ∣ twoTo k := Nat.pow_dvd_pow 2 h

/-- Half a gap beyond the greatest finite number. -/
def bound : Nat := limit - twoTo 2044

theorem twoTo_le_limit {k : Nat} (h : k ≤ 2098) : twoTo k ≤ limit := twoTo_le h

theorem bound_add : bound + twoTo 2044 = limit := by
  have hle : twoTo 2044 ≤ limit := twoTo_le_limit (by decide)
  unfold bound
  rw [Nat.sub_add_cancel hle]

theorem nearest_lt_limit_of_lt_bound {num den : Nat} (hden : 0 < den)
    (h : (num : ℚ) / den < bound) : nearest num den < limit := by
  have hlimit : (bound : ℚ) + twoTo 2044 = limit := by
    rw [← bound_add, Nat.cast_add]
  have hfloor := cast_div_le_div num hden
  have hgap : gap (num / den) ≤ 2 * twoTo 2044 := by
    have hlt : num / den < limit := by
      have hlt : ((num / den : Nat) : ℚ) < bound := by linarith
      exact Nat.lt_of_lt_of_le (Nat.cast_lt.mp hlt) (Nat.sub_le _ _)
    rw [← twoTo_succ]
    by_cases hzero : num / den = 0
    · rw [hzero]
      exact twoTo_le (by decide)
    · have := (log2_lt_iff hzero).mpr hlt
      exact twoTo_le (by omega)
  have hgap : (gap (num / den) : ℚ) ≤ 2 * twoTo 2044 := by exact_mod_cast hgap
  obtain ⟨-, hnear⟩ := abs_le.mp (abs_nearest_sub_le num hden)
  have hlt : (nearest num den : ℚ) < limit := by linarith
  exact Nat.cast_lt.mp hlt

theorem le_bound_of_nearest_lt_limit {num den : Nat} (hden : 0 < den)
    (h : nearest num den < limit) : (num : ℚ) / den ≤ bound := by
  have hlimit : (bound : ℚ) + twoTo 2044 = limit := by
    rw [← bound_add, Nat.cast_add]
  have hceil := div_lt_cast_div_add_one num hden
  by_cases hsmall : num / den < twoTo 2097
  · have hle : num / den + 1 ≤ bound := by
      have hhalf : 2 * twoTo 2097 = limit := (twoTo_succ 2097).symm
      have hbound := bound_add
      have hlt : twoTo 2044 < twoTo 2097 := twoTo_lt (by decide)
      omega
    exact hceil.le.trans (Nat.cast_le.mpr hle)
  · -- From half of the limit on, what is rounded to a number below it stays half a gap away.
    obtain ⟨j, hgap, hlow, hhigh⟩ := (gap_cases (num / den)).resolve_left fun hlt =>
      hsmall (Nat.lt_trans hlt.1 (twoTo_lt (by decide)))
    have hfloor := cast_div_le_div num hden
    have hnear := abs_nearest_sub_le num hden
    rw [hgap] at hnear
    obtain ⟨hnear, -⟩ := abs_le.mp hnear
    have hpos : (0 : ℚ) < twoTo j := Nat.cast_pos.mpr (twoTo_pos j)
    have hlow : (4503599627370496 : ℚ) * twoTo j ≤ (num / den : Nat) := by exact_mod_cast hlow
    have hlt : (nearest num den : ℚ) < limit := Nat.cast_lt.mpr h
    have hj : j < 2098 := by
      by_contra hge
      have hge : (limit : ℚ) ≤ twoTo j := Nat.cast_le.mpr (twoTo_le (Nat.le_of_not_lt hge))
      linarith
    have hle : 2044 + 1 ≤ j := by
      by_contra hlt
      have hsum : twoTo (53 + j) ≤ twoTo 2097 := twoTo_le (by omega)
      rw [twoTo_add] at hsum
      exact hsmall (Nat.lt_of_lt_of_le hhigh hsum)
    have hgrid : twoTo j ∣ nearest num den := hgap ▸ Nat.dvd_mul_left _ _
    have hdvd : twoTo j ∣ limit := twoTo_dvd hj.le
    have hstep : (nearest num den : ℚ) + twoTo j ≤ limit := by
      exact_mod_cast add_le_of_dvd hgrid hdvd h
    have htwice : 2 * twoTo 2044 ≤ twoTo j := by
      rw [← twoTo_succ]
      exact twoTo_le hle
    have htwice : (2 : ℚ) * twoTo 2044 ≤ twoTo j := by exact_mod_cast htwice
    linarith

end Binary64
end RecordRules
