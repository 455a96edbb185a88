/-
Binary64 numbers in exact arithmetic.

Every finite binary64 number is a whole multiple of `2 ^ -1074`, so its magnitude is held as
the number of those units.  The numbers near a magnitude of `n` units lie `gap n` units apart,
and `nearest` takes a ratio to the closest of them, a tie going to the even neighbour.  Each
operation forms its exact result as a ratio and rounds once, so an order or an equality of
numbers is one of integers and a sum that fits is exact.
-/

namespace RecordRules
namespace Binary64

/-! ## The grid of finite numbers -/

/-- A power of two by its exponent.  The name keeps large powers folded in proofs. -/
def twoTo (k : Nat) : Nat := Nat.pow 2 k

theorem twoTo_pos (k : Nat) : 0 < twoTo k := Nat.two_pow_pos k

theorem twoTo_add (j k : Nat) : twoTo (j + k) = twoTo j * twoTo k := Nat.pow_add 2 j k

theorem twoTo_le {j k : Nat} (h : j ≤ k) : twoTo j ≤ twoTo k :=
  Nat.pow_le_pow_right (by decide) h

theorem twoTo_lt {j k : Nat} (h : j < k) : twoTo j < twoTo k :=
  Nat.pow_lt_pow_right (by decide) h

theorem log2_lt_iff {n k : Nat} (hn : n ≠ 0) : n.log2 < k ↔ n < twoTo k := Nat.log2_lt hn

theorem le_log2_iff {n k : Nat} (hn : n ≠ 0) : k ≤ n.log2 ↔ twoTo k ≤ n := Nat.le_log2 hn

/-- The number of units in one. -/
def one : Nat := twoTo 1074

/-- Magnitudes from here on round to an infinity. -/
def limit : Nat := twoTo 2098

theorem one_pos : 0 < one := twoTo_pos 1074

theorem limit_pos : 0 < limit := twoTo_pos 2098

/-- The distance between the binary64 numbers around a magnitude of `n` units: 53 bits are
kept, and below `2 ^ 53` units every whole number of units is one. -/
def gap (n : Nat) : Nat := twoTo (n.log2 + 1 - 53)

/-- The integer nearest to `num / den`, a tie going to the even one. -/
def roundHalfEven (num den : Nat) : Nat :=
  let whole := num / den
  let twice := 2 * (num % den)
  if twice < den then whole
  else if den < twice then whole + 1
  else whole + whole % 2

/-- The magnitude on the grid nearest to `num / den` units. -/
def nearest (num den : Nat) : Nat :=
  let step := gap (num / den)
  roundHalfEven num (den * step) * step

theorem gap_pos (n : Nat) : 0 < gap n := twoTo_pos _

theorem roundHalfEven_le (num den : Nat) : roundHalfEven num den ≤ num / den + 1 := by
  unfold roundHalfEven
  dsimp only
  split
  · omega
  · split <;> omega

theorem le_roundHalfEven (num den : Nat) : num / den ≤ roundHalfEven num den := by
  unfold roundHalfEven
  dsimp only
  split
  · omega
  · split <;> omega

theorem roundHalfEven_mul (a : Nat) {d : Nat} (h : 0 < d) : roundHalfEven (a * d) d = a := by
  simp [roundHalfEven, Nat.mul_div_cancel _ h, h]

theorem gap_eq_one {n : Nat} (h : n < twoTo 53) : gap n = 1 := by
  unfold gap
  by_cases hn : n = 0
  · subst hn; decide
  · have := (log2_lt_iff hn).2 h
    have hk : n.log2 + 1 - 53 = 0 := by omega
    rw [hk]; rfl

theorem gap_eq_of_mem {n k : Nat} (lo : twoTo (k + 52) ≤ n) (hi : n < twoTo (k + 53)) :
    gap n = twoTo k := by
  have hn : n ≠ 0 := fun h => by
    have := twoTo_pos (k + 52)
    omega
  have hlt := (log2_lt_iff hn).2 hi
  have hle := (le_log2_iff hn).2 lo
  unfold gap
  congr 1
  omega

/-- A magnitude of fewer than 54 bits times a power of two lies on its own grid. -/
theorem gap_dvd_mul {r k : Nat} (lo : k = 0 ∨ twoTo 52 ≤ r) (hi : r ≤ twoTo 53) :
    gap (r * twoTo k) ∣ r * twoTo k := by
  by_cases hr : r = twoTo 53
  · subst hr
    have e : twoTo 53 * twoTo k = twoTo (k + 53) := by rw [twoTo_add, Nat.mul_comm]
    have hgap : gap (twoTo (k + 53)) = twoTo (k + 1) :=
      gap_eq_of_mem (twoTo_le (by omega)) (twoTo_lt (by omega))
    rw [e, hgap]
    exact ⟨twoTo 52, by rw [← twoTo_add]⟩
  · have hlt : r < twoTo 53 := by omega
    rcases lo with rfl | lo
    · have e : r * twoTo 0 = r := Nat.mul_one r
      rw [e, gap_eq_one hlt]
      exact ⟨r, (Nat.one_mul r).symm⟩
    · have hgap : gap (r * twoTo k) = twoTo k := by
        apply gap_eq_of_mem
        · rw [twoTo_add, Nat.mul_comm (twoTo k)]
          exact Nat.mul_le_mul_right _ lo
        · rw [twoTo_add, Nat.mul_comm (twoTo k)]
          exact Nat.mul_lt_mul_of_pos_right hlt (twoTo_pos k)
      rw [hgap]
      exact Nat.dvd_mul_left _ _

theorem gap_dvd_nearest (num den : Nat) : gap (nearest num den) ∣ nearest num den := by
  unfold nearest
  dsimp only
  by_cases hq : num / den < twoTo 53
  · rw [gap_eq_one hq, Nat.mul_one, Nat.mul_one]
    have h := gap_dvd_mul (r := roundHalfEven num den) (k := 0) (Or.inl rfl)
      (by have := roundHalfEven_le num den; omega)
    have e : roundHalfEven num den * twoTo 0 = roundHalfEven num den := Nat.mul_one _
    rwa [e] at h
  · have hne : num / den ≠ 0 := by
      intro h
      rw [h] at hq
      exact hq (twoTo_pos 53)
    have hlo : twoTo (num / den).log2 ≤ num / den := (le_log2_iff hne).1 (Nat.le_refl _)
    have hhi : num / den < twoTo ((num / den).log2 + 1) := (log2_lt_iff hne).1 (Nat.lt_succ_self _)
    have hlog : 53 ≤ (num / den).log2 := (le_log2_iff hne).2 (by omega)
    obtain ⟨k, hk⟩ : ∃ k, (num / den).log2 = k + 52 := ⟨(num / den).log2 - 52, by omega⟩
    rw [hk] at hlo hhi
    have hgap : gap (num / den) = twoTo k := gap_eq_of_mem hlo hhi
    rw [hgap]
    apply gap_dvd_mul
    · right
      refine Nat.le_trans ?_ (le_roundHalfEven _ _)
      rw [← Nat.div_div_eq_div_mul, Nat.le_div_iff_mul_le (twoTo_pos k), ← twoTo_add,
        Nat.add_comm 52 k]
      exact hlo
    · have hlt : num / (den * twoTo k) < twoTo 53 := by
        rw [← Nat.div_div_eq_div_mul, Nat.div_lt_iff_lt_mul (twoTo_pos k), ← twoTo_add,
          Nat.add_comm 53 k]
        exact hhi
      have := roundHalfEven_le num (den * twoTo k)
      omega

/-! ## Finite numbers -/

/-- A finite binary64 number.  Zero comes with either sign. -/
structure Finite where
  negative : Bool
  units : Nat
  onGrid : gap units ∣ units
  inRange : units < limit
deriving DecidableEq

namespace Finite

/-- The number as a whole count of units; both zeros have none. -/
def toInt (x : Finite) : Int := if x.negative then -(x.units : Int) else x.units

/-- Equality of values: the two zeros are equal. -/
instance : BEq Finite := ⟨fun x y => x.toInt == y.toInt⟩

instance : LT Finite := ⟨fun x y => x.toInt < y.toInt⟩
instance : LE Finite := ⟨fun x y => x.toInt ≤ y.toInt⟩

instance (x y : Finite) : Decidable (x < y) := inferInstanceAs (Decidable (x.toInt < y.toInt))
instance (x y : Finite) : Decidable (x ≤ y) := inferInstanceAs (Decidable (x.toInt ≤ y.toInt))

def neg (x : Finite) : Finite := { x with negative := !x.negative }

instance : Neg Finite := ⟨neg⟩

/-- The number nearest to `num / den` units, or `none` if it is beyond every finite one. -/
def ofRatio? (negative : Bool) (num den : Nat) : Option Finite :=
  if h : nearest num den < limit then
    some ⟨negative, nearest num den, gap_dvd_nearest num den, h⟩
  else none

def zero : Finite := ⟨false, 0, ⟨0, rfl⟩, limit_pos⟩

instance : Inhabited Finite := ⟨zero⟩

def isWhole (x : Finite) : Bool := x.units % one == 0

def truncate (x : Finite) : Int :=
  if x.negative then -((x.units / one : Nat) : Int) else ((x.units / one : Nat) : Int)

end Finite
end Binary64

/-! ## All binary64 values -/

/-- A binary64 value: a finite number, an infinity or the value that is not a number. -/
inductive Binary64 where
  | finite (x : Binary64.Finite)
  | infinite (negative : Bool)
  | notANumber
deriving DecidableEq, Inhabited

namespace Binary64

instance : Coe Finite Binary64 := ⟨finite⟩

/-- The value nearest to `num / den` units, an infinity if it is beyond every finite number. -/
def ofRatio (negative : Bool) (num den : Nat) : Binary64 :=
  match Finite.ofRatio? negative num den with
  | some x => finite x
  | none => infinite negative

def ofInt (n : Int) : Binary64 := ofRatio (n < 0) (n.natAbs * one) 1

def neg : Binary64 → Binary64
  | finite x => finite (-x)
  | infinite s => infinite (!s)
  | notANumber => notANumber

instance : Neg Binary64 := ⟨neg⟩

/-- A sum of zero is negative only if both terms are. -/
def add : Binary64 → Binary64 → Binary64
  | finite x, finite y =>
    let sum := x.toInt + y.toInt
    if sum = 0 then ofRatio (x.negative && y.negative) 0 1 else ofRatio (sum < 0) sum.natAbs 1
  | infinite s, infinite t => if s = t then infinite s else notANumber
  | infinite s, finite _ => infinite s
  | finite _, infinite t => infinite t
  | _, _ => notANumber

instance : Add Binary64 := ⟨add⟩

def mul : Binary64 → Binary64 → Binary64
  | finite x, finite y => ofRatio (x.negative != y.negative) (x.units * y.units) one
  | infinite s, infinite t => infinite (s != t)
  | infinite s, finite y => if y.units = 0 then notANumber else infinite (s != y.negative)
  | finite x, infinite t => if x.units = 0 then notANumber else infinite (x.negative != t)
  | _, _ => notANumber

instance : Mul Binary64 := ⟨mul⟩

def div : Binary64 → Binary64 → Binary64
  | finite x, finite y =>
    if y.units = 0 then
      if x.units = 0 then notANumber else infinite (x.negative != y.negative)
    else ofRatio (x.negative != y.negative) (x.units * one) y.units
  | infinite s, finite y => infinite (s != y.negative)
  | finite x, infinite t => ofRatio (x.negative != t) 0 1
  | _, _ => notANumber

instance : Div Binary64 := ⟨div⟩

def isZero : Binary64 → Bool
  | finite x => x.units == 0
  | _ => false

end Binary64
end RecordRules
