/-
How far rounding goes.

A magnitude that lies on the grid is its own nearest number.  Rounding at most doubles a magnitude,
so the integers of 64-bit words are far from the limit of the finite numbers.
-/
import RecordRules.Json.Basic

namespace RecordRules
namespace Binary64

theorem gap_le (n : Nat) : gap n ≤ n + 1 := by
  unfold gap
  by_cases hn : n = 0
  · subst hn
    decide
  · have hle : twoTo (n.log2 + 1 - 53) ≤ twoTo n.log2 := twoTo_le (by omega)
    have hlog : twoTo n.log2 ≤ n := (le_log2_iff hn).1 (Nat.le_refl _)
    omega

theorem nearest_le (n : Nat) : nearest n 1 ≤ 2 * n + 1 := by
  have hgap := gap_le n
  unfold nearest
  dsimp only
  rw [Nat.div_one, Nat.one_mul]
  calc roundHalfEven n (gap n) * gap n
    _ ≤ (n / gap n + 1) * gap n := Nat.mul_le_mul_right _ (roundHalfEven_le n (gap n))
    _ = n / gap n * gap n + gap n := by rw [Nat.add_mul, Nat.one_mul]
    _ ≤ n + gap n := Nat.add_le_add_right (Nat.div_mul_le_self n (gap n)) _
    _ ≤ 2 * n + 1 := by omega

theorem nearest_lt_limit {n j : Nat} (hn : n < twoTo j) (hj : j + 1 ≤ 2098) :
    nearest n 1 < limit := by
  have htwice : twoTo (j + 1) = twoTo j * 2 := twoTo_add j 1
  calc nearest n 1
    _ ≤ 2 * n + 1 := nearest_le n
    _ < twoTo (j + 1) := by omega
    _ ≤ limit := twoTo_le hj

theorem ofRatio_of_lt {num den : Nat} (negative : Bool) (h : nearest num den < limit) :
    ofRatio negative num den =
      .finite ⟨negative, nearest num den, gap_dvd_nearest num den, h⟩ := by
  unfold ofRatio Finite.ofRatio?
  rw [dif_pos h]

/-- An integer of up to 1000 bits is a finite number. -/
theorem exists_finite_ofInt {n : Int} {k : Nat} (hk : k ≤ 1000) (h : n.natAbs < twoTo k) :
    ∃ x, Binary64.ofInt n = .finite x := by
  have hunits : n.natAbs * one < twoTo (k + 1074) := by
    rw [twoTo_add]
    exact Nat.mul_lt_mul_of_pos_right h one_pos
  exact ⟨_, ofRatio_of_lt _ (nearest_lt_limit hunits (by omega))⟩

end Binary64

/-- Every JSON number is finite. -/
theorem Json.Number.exists_finite (n : Json.Number) : ∃ x, n.toBinary64 = .finite x := by
  cases n with
  | integer n integral =>
    refine Binary64.exists_finite_ofInt (k := 65) (by decide) ?_
    have htwo : Binary64.twoTo 65 = 36893488147419103232 := by decide +kernel
    obtain ⟨hlo, hhi⟩ := integral
    omega
  | float x => exact ⟨x, rfl⟩

end RecordRules
