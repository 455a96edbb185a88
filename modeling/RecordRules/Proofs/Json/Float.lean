/-
The texts of floats.

A reader rounds the digits, a power of ten and their product, so it need not find the float that was
written.  But it finds a finite one.  There is one decimal of seventeen digits that rounds to a
float and is read as an infinity, and it does not stand for that float, since another one is nearer.
-/
import Mathlib.Tactic.IntervalCases
import RecordRules.Proofs.Binary64.Shortest
import RecordRules.Proofs.Json.RoundTrip

namespace RecordRules

open Binary64

namespace Json
namespace Token

/-! ## The end of the finite numbers -/

/-- The finite numbers end between two decimals of seventeen digits, and two roundings of the first
do not lead beyond them. -/
theorem bound_bounds :
    9007199254740993 * 9007199254740993 * (17976931348623153 * tenTo 292 * one) <
        9007199254740992 * 9007199254740992 * bound ∧
      bound < 17976931348623159 * tenTo 292 * one := by
  decide +kernel

theorem tenTo_308_le : tenTo 308 ≤ 17976931348623153 * tenTo 292 := by
  calc tenTo 308
    _ = tenTo 16 * tenTo 292 := tenTo_add 16 292
    _ ≤ 17976931348623153 * tenTo 292 := Nat.mul_le_mul_right _ (by decide)

theorem mul_one_lt_bound {n : Nat} (h : n ≤ tenTo 308) : n * one < bound := by
  have hle : n * one ≤ 17976931348623153 * tenTo 292 * one :=
    Nat.mul_le_mul_right one (h.trans tenTo_308_le)
  have hlt := bound_bounds.1
  omega

theorem limit_le_two_mul_bound : limit ≤ 2 * bound := by
  have hhalf : twoTo 2045 ≤ limit := twoTo_le_limit (by decide)
  rw [twoTo_succ] at hhalf
  have hadd := bound_add
  omega

theorem exponent_le_of_le_bound {m k : Nat} (hm : m ≠ 0) (h : m * tenTo k * one ≤ bound) :
    k ≤ 308 := by
  by_contra hlarge
  have hlarge : tenTo 309 ≤ m * tenTo k :=
    (tenTo_le (by omega)).trans (Nat.le_mul_of_pos_left (tenTo k) (Nat.pos_of_ne_zero hm))
  have hten : 17976931348623159 * tenTo 292 ≤ tenTo 309 := by
    calc 17976931348623159 * tenTo 292
      _ ≤ tenTo 17 * tenTo 292 := Nat.mul_le_mul_right _ (by decide)
      _ = tenTo 309 := (tenTo_add 17 292).symm
  have hle : 17976931348623159 * tenTo 292 * one ≤ m * tenTo k * one :=
    Nat.mul_le_mul_right one (hten.trans hlarge)
  exact absurd bound_bounds.2 (Nat.not_lt.mpr (hle.trans h))

/-! ## Powers of ten -/

theorem exists_ofRatio (negative : Bool) {num den : Nat} (hden : 0 < den)
    (h : (num : ℚ) / den < bound) :
    ∃ x : Finite, ofRatio negative num den = .finite x ∧ x.units = nearest num den :=
  ⟨_, ofRatio_of_lt negative (nearest_lt_limit_of_lt_bound hden h), rfl⟩

theorem powerOfTen_eq {k : Nat} (hk : k ≤ 308) :
    ∃ p : Finite, powerOfTen k = .finite p ∧ p.units = nearest (tenTo k * one) 1 := by
  refine exists_ofRatio false Nat.one_pos ?_
  rw [Nat.cast_one, div_one]
  exact Nat.cast_lt.mpr (mul_one_lt_bound (tenTo_le hk))

theorem two_mul_one_le_powerOfTen {k : Nat} (hk : 1 ≤ k) :
    2 * one ≤ nearest (tenTo k * one) 1 := by
  have hten : 10 ≤ tenTo k := tenTo_le (j := 1) hk
  have hten : 10 * one ≤ tenTo k * one := Nat.mul_le_mul_right one hten
  have hten : (10 : ℚ) * one ≤ (tenTo k * one : Nat) := by exact_mod_cast hten
  have hone : (0 : ℚ) < one := Nat.cast_pos.mpr Binary64.one_pos
  obtain ⟨hnear, -⟩ := abs_le.mp (abs_nearest_one_sub_le (tenTo k * one))
  have hle : ((2 * one : Nat) : ℚ) ≤ nearest (tenTo k * one) 1 := by
    rw [Nat.cast_mul, Nat.cast_ofNat]
    linarith
  exact Nat.cast_le.mp hle

/-- A finite number divided by a power of ten is finite. -/
theorem div_powerOfTen (x : Finite) {k : Nat} (hk : 1 ≤ k) (hk' : k ≤ 308) :
    ∃ y : Finite, Binary64.finite x / powerOfTen k = .finite y := by
  obtain ⟨p, hp, hunits⟩ := powerOfTen_eq hk'
  have hlow : 2 * one ≤ p.units := hunits ▸ two_mul_one_le_powerOfTen hk
  have hone := Binary64.one_pos
  have hpos : 0 < p.units := by omega
  have hquotient : Binary64.finite x / powerOfTen k =
      ofRatio (x.negative != p.negative) (x.units * one) p.units := by
    rw [hp]
    exact if_neg hpos.ne'
  have hlt : ((x.units * one : Nat) : ℚ) / p.units < bound := by
    rw [div_lt_iff₀ (Nat.cast_pos.mpr hpos)]
    have hlt : x.units * one < bound * p.units :=
      calc x.units * one
        _ < limit * one := Nat.mul_lt_mul_of_pos_right x.inRange Binary64.one_pos
        _ ≤ 2 * bound * one := Nat.mul_le_mul_right one limit_le_two_mul_bound
        _ = bound * (2 * one) := by rw [Nat.mul_comm 2, Nat.mul_assoc]
        _ ≤ bound * p.units := Nat.mul_le_mul_left bound hlow
    exact_mod_cast hlt
  obtain ⟨y, hy, -⟩ := exists_ofRatio (x.negative != p.negative) hpos hlt
  exact ⟨y, hquotient.trans hy⟩

theorem shrink_finite (rounds : Nat) (x : Finite) :
    ∃ y : Finite, shrink rounds (.finite x) = .finite y := by
  induction rounds generalizing x with
  | zero => exact ⟨x, rfl⟩
  | succ rounds ih =>
    unfold shrink
    split
    · exact ⟨x, rfl⟩
    · obtain ⟨y, hy⟩ := div_powerOfTen x (k := 308) (by decide) (Nat.le_refl _)
      rw [hy]
      exact ih y

/-- A decimal below one is read as a finite number. -/
theorem isSome_scale?_of_neg (negative : Bool) {m : Nat} {e : Int} (hm : m < significandLimit)
    (he : e < 0) : (scale? negative m e).isSome := by
  obtain ⟨start, hstart⟩ := exists_finite_ofInt (n := m) (k := 64) (by decide) hm
  unfold scale?
  dsimp only
  by_cases hzero : m = 0
  · rw [if_pos hzero, hstart]
    rfl
  · rw [if_neg hzero, if_neg (by omega), if_neg (by omega), hstart]
    obtain ⟨x, hx⟩ := shrink_finite ((e.natAbs - 1) / 308) start
    obtain ⟨y, hy⟩ := div_powerOfTen x (k := e.natAbs - 308 * ((e.natAbs - 1) / 308)) (by omega)
      (by omega)
    rw [hx, hy]
    rfl

/-- Up to this decimal two roundings do not lead beyond the finite numbers. -/
theorem product_lt_bound {m k : Nat} (h : m * tenTo k ≤ 17976931348623153 * tenTo 292) :
    nearest (m * one) 1 * nearest (tenTo k * one) 1 < bound * one := by
  obtain ⟨c, hc⟩ : ∃ c, c = 17976931348623153 * tenTo 292 * one := ⟨_, rfl⟩
  have hlimit := bound_bounds.1
  rw [← hc] at hlimit
  have hm := nearest_one_le (m * one)
  have hk := nearest_one_le (tenTo k * one)
  refine Nat.lt_of_mul_lt_mul_left (a := 9007199254740992 * 9007199254740992) ?_
  calc 9007199254740992 * 9007199254740992 * (nearest (m * one) 1 * nearest (tenTo k * one) 1)
    _ = 9007199254740992 * nearest (m * one) 1 *
          (9007199254740992 * nearest (tenTo k * one) 1) := by ring
    _ ≤ 9007199254740993 * (m * one) * (9007199254740993 * (tenTo k * one)) :=
        Nat.mul_le_mul hm hk
    _ = 9007199254740993 * 9007199254740993 * (m * tenTo k * one) * one := by ring
    _ ≤ 9007199254740993 * 9007199254740993 * c * one := by
        rw [hc]
        exact Nat.mul_le_mul_right one (Nat.mul_le_mul_left _ (Nat.mul_le_mul_right one h))
    _ < 9007199254740992 * 9007199254740992 * bound * one :=
        Nat.mul_lt_mul_of_pos_right hlimit Binary64.one_pos
    _ = 9007199254740992 * 9007199254740992 * (bound * one) := Nat.mul_assoc _ _ _

/-- The decimals of up to seventeen digits from there to the end of the finite numbers. -/
theorem edge_cases {m k : Nat} (hm : m ≤ tenTo 17)
    (hlow : 17976931348623153 * tenTo 292 < m * tenTo k) (hhigh : m * tenTo k * one ≤ bound) :
    k = 292 ∧ 17976931348623154 ≤ m ∧ m ≤ 17976931348623158 := by
  have hten := tenTo_pos 292
  have hhigh : m * tenTo k < 17976931348623159 * tenTo 292 :=
    Nat.lt_of_mul_lt_mul_right (hhigh.trans_lt bound_bounds.2)
  have hk : 292 ≤ k := by
    by_contra hlt
    have hle : m * tenTo k ≤ tenTo 17 * tenTo 291 := Nat.mul_le_mul hm (tenTo_le (by omega))
    rw [← tenTo_add] at hle
    exact absurd (hle.trans tenTo_308_le) (Nat.not_le.mpr hlow)
  obtain ⟨i, rfl⟩ := Nat.exists_eq_add_of_le hk
  have hsplit : m * tenTo (292 + i) = m * tenTo i * tenTo 292 := by
    rw [tenTo_add, Nat.mul_comm (tenTo 292), Nat.mul_assoc]
  rw [hsplit] at hlow hhigh
  have hlow := Nat.lt_of_mul_lt_mul_right hlow
  have hhigh := Nat.lt_of_mul_lt_mul_right hhigh
  cases i with
  | zero =>
    have hone : m * tenTo 0 = m := Nat.mul_one m
    rw [hone] at hlow hhigh
    exact ⟨rfl, by omega, by omega⟩
  | succ i =>
    -- None of them ends in a zero.
    have hsucc : m * tenTo (i + 1) = 10 * (m * tenTo i) := by
      rw [tenTo_add, Nat.mul_comm (tenTo i), Nat.mul_left_comm]
      rfl
    omega

/-- All but one of them are read as finite numbers. -/
theorem edge_lt_limit {m : Nat} (hlow : 17976931348623154 ≤ m) (hhigh : m ≤ 17976931348623158)
    (hne : m ≠ 17976931348623158) :
    nearest (nearest (m * one) 1 * nearest (tenTo 292 * one) 1) one < limit := by
  have hm : m ≤ 17976931348623157 := by omega
  interval_cases m
  all_goals decide +kernel

theorem nearest_product_lt_limit {m k : Nat} (hm : m ≤ tenTo 17)
    (hbound : m * tenTo k * one ≤ bound) (hne : ¬ (m = 17976931348623158 ∧ k = 292)) :
    nearest (nearest (m * one) 1 * nearest (tenTo k * one) 1) one < limit := by
  by_cases hlow : m * tenTo k ≤ 17976931348623153 * tenTo 292
  · refine nearest_lt_limit_of_lt_bound Binary64.one_pos ?_
    rw [div_lt_iff₀ (Nat.cast_pos.mpr Binary64.one_pos)]
    exact_mod_cast product_lt_bound hlow
  · obtain ⟨rfl, hm154, hm158⟩ := edge_cases hm (Nat.lt_of_not_le hlow) hbound
    exact edge_lt_limit hm154 hm158 fun h => hne ⟨h, rfl⟩

theorem ofInt_of_le_tenTo {m : Nat} (hm : m ≤ tenTo 17) :
    ∃ x : Finite, Binary64.ofInt m = .finite x ∧ x.units = nearest (m * one) 1 := by
  refine exists_ofRatio (decide ((m : Int) < 0)) Nat.one_pos ?_
  rw [Nat.cast_one, div_one]
  exact Nat.cast_lt.mpr (mul_one_lt_bound (hm.trans (tenTo_le (by decide))))

/-- A decimal of up to seventeen digits within the finite numbers is read as one of them. -/
theorem isSome_scale? (negative : Bool) {m : Nat} {e : Int} (hm : m ≤ tenTo 17)
    (hbound : m * place e ≤ bound) (hne : ¬ (m = 17976931348623158 ∧ e = 292)) :
    (scale? negative m e).isSome := by
  have hlimit : tenTo 17 < significandLimit := by decide
  by_cases he : e < 0
  · exact isSome_scale?_of_neg negative (hm.trans_lt hlimit) he
  obtain ⟨k, rfl⟩ := Int.eq_ofNat_of_zero_le (Int.not_lt.mp he)
  have hbound : m * tenTo k * one ≤ bound := by
    rw [place_natCast] at hbound
    rw [Nat.mul_assoc]
    exact_mod_cast hbound
  obtain ⟨s, hs, hunits⟩ := ofInt_of_le_tenTo hm
  unfold scale?
  dsimp only
  rw [hs]
  by_cases hzero : m = 0
  · rw [if_pos hzero]
    rfl
  have hk := exponent_le_of_le_bound hzero hbound
  obtain ⟨p, hp, hpunits⟩ := powerOfTen_eq hk
  have hproduct : nearest (s.units * p.units) one < limit := by
    rw [hunits, hpunits]
    exact nearest_product_lt_limit hm hbound fun h => hne ⟨h.1, congrArg Int.ofNat h.2⟩
  rw [if_neg hzero, if_neg (by omega), if_pos (Int.natCast_nonneg k), Int.toNat_natCast, hp]
  have hmul : Binary64.finite s * Binary64.finite p =
      ofRatio (s.negative != p.negative) (s.units * p.units) one := by
    show Binary64.mul (.finite s) (.finite p) = _
    rw [Binary64.mul]
  rw [hmul, ofRatio_of_lt _ hproduct]
  rfl

end Token

/-! ## Literals -/

namespace Literal

/-- A literal with a fraction or an exponent is read as its digits, scaled. -/
theorem token_of_digits {l : Literal} {m : Nat} {e : Int}
    (hdecimal : l.fraction.isSome ∨ l.exponent.isSome)
    (hm : Nat.ofDigitChars 10 (l.whole ++ l.fraction.getD []) 0 = m)
    (hlimit : m < Token.significandLimit)
    (he : l.exponentValue?.getD 0 - (l.fraction.getD []).length = e)
    (hscale : (Token.scale? l.negative m e).isSome) : ∃ n, l.token = .number n := by
  rw [Nat.ofDigitChars_append] at hm
  have hwhole : Token.gather 0 l.whole = (Nat.ofDigitChars 10 l.whole 0, []) :=
    gather_eq (Nat.lt_of_le_of_lt (hm ▸ le_ofDigitChars _ _) hlimit)
  have hfraction : Token.gather (Nat.ofDigitChars 10 l.whole 0) (l.fraction.getD []) = (m, []) := by
    rw [gather_eq (hm ▸ hlimit), hm]
  have hinteger : (l.fraction.isNone && l.exponentValue?.isNone) = false := by
    unfold exponentValue?
    rw [Option.isNone_map, Bool.and_eq_false_iff, Option.isNone_eq_false_iff,
      Option.isNone_eq_false_iff]
    exact hdecimal
  have hexponent : (([] : List Char).length : Int) -
      (((l.fraction.getD []).length : Int) - ([] : List Char).length) +
        l.exponentValue?.getD 0 = e := by
    rw [List.length_nil]
    omega
  obtain ⟨x, hx⟩ := Option.isSome_iff_exists.mp hscale
  have hnumber : Token.numberOf? l.negative l.whole l.fraction l.exponentValue? =
      some (.float x) := by
    unfold Token.numberOf?
    rw [hwhole]
    dsimp only
    rw [hinteger, Bool.false_and, Bool.false_and, if_neg Bool.false_ne_true, hfraction]
    dsimp only
    rw [hexponent, hx]
    rfl
  unfold token
  rw [hnumber]
  exact ⟨_, rfl⟩

theorem ofDigitChars_zeros (k m : Nat) :
    Nat.ofDigitChars 10 (List.replicate k '0') m = m * tenTo k := by
  induction k generalizing m with
  | zero => exact (Nat.mul_one m).symm
  | succ k ih =>
    rw [List.replicate_succ, Nat.ofDigitChars_cons, ih, Nat.add_comm k 1, tenTo_add,
      ← Nat.mul_assoc, Nat.mul_comm m]
    rfl

/-- A decimal without an exponent has a fraction, so it is read as digits over a power of ten. -/
theorem token_ofPositional (negative : Bool) {d : Decimal} (hd : d.digits ≤ tenTo 17)
    (hwhole : 0 ≤ d.exponent → d.digits * tenTo (d.exponent.toNat + 1) ≤ tenTo 17) :
    ∃ n, (ofPositional negative d).token = .number n := by
  have hlimit : tenTo 17 < Token.significandLimit := by decide
  have hdigits : Nat.ofDigitChars 10 (Nat.toDigits 10 d.digits) 0 = d.digits :=
    Nat.ofDigitChars_ten_toDigits
  have hfraction : ∀ {l : Literal} {ds : List Char} {m : Nat}, l.fraction = some ds →
      l.exponent = none → ds ≠ [] → Nat.ofDigitChars 10 (l.whole ++ ds) 0 = m → m ≤ tenTo 17 →
        ∃ n, l.token = .number n := by
    intro l ds m hds hnone hne hm hle
    have hlength : 0 < ds.length := List.length_pos_iff.mpr hne
    refine token_of_digits (e := -(ds.length : Int)) (Or.inl (by rw [hds]; rfl)) ?_
      (hle.trans_lt hlimit) ?_ (Token.isSome_scale?_of_neg _ (hle.trans_lt hlimit) (by omega))
    · rw [hds]
      exact hm
    · unfold exponentValue?
      rw [hds, hnone]
      exact Int.zero_sub _
  unfold ofPositional
  dsimp only
  split
  · next hexp =>
    refine hfraction rfl rfl (List.cons_ne_nil _ _) ?_ (hwhole hexp)
    rw [List.append_assoc, ← List.replicate_succ', Nat.ofDigitChars_append, hdigits,
      ofDigitChars_zeros]
  · split
    · refine hfraction rfl rfl (List.append_ne_nil_of_right_ne_nil _ Nat.toDigits_ne_nil) ?_ hd
      rw [Nat.ofDigitChars_append, Nat.ofDigitChars_append, ofDigitChars_zeros]
      have hzero : Nat.ofDigitChars 10 ['0'] 0 = 0 := by decide
      rw [hzero, Nat.zero_mul, hdigits]
    · next hexp hpoint =>
      refine hfraction rfl rfl ?_ ?_ hd
      · rw [ne_eq, List.drop_eq_nil_iff]
        omega
      · rw [List.take_append_drop, hdigits]

theorem exponentValue?_ofScientific (negative : Bool) (d : Decimal) :
    (ofScientific negative d).exponentValue? =
      some ((Nat.toDigits 10 d.digits).length - 1 + d.exponent) := by
  have hvalue : ∀ n, digitsValue (Nat.toDigits 10 n) = n := fun n => Nat.ofDigitChars_ten_toDigits
  unfold ofScientific exponentValue?
  dsimp only
  rw [Option.map_some, hvalue]
  congr 1
  split
  · next hneg =>
    have := of_decide_eq_true hneg
    omega
  · next hpos =>
    have := of_decide_eq_false (Bool.eq_false_of_not_eq_true hpos)
    omega

/-- A decimal with an exponent is read as it is, up to rounding. -/
theorem token_ofScientific (negative : Bool) {d : Decimal} (hd : d.digits ≤ tenTo 17)
    (hscale : (Token.scale? negative d.digits d.exponent).isSome) :
    ∃ n, (ofScientific negative d).token = .number n := by
  have hlimit : tenTo 17 < Token.significandLimit := by decide
  have hlength : 0 < (Nat.toDigits 10 d.digits).length :=
    List.length_pos_iff.mpr Nat.toDigits_ne_nil
  have hfraction :
      (ofScientific negative d).fraction.getD [] = (Nat.toDigits 10 d.digits).drop 1 := by
    unfold ofScientific
    dsimp only
    split
    · next hshort =>
      rw [Option.getD_none, List.drop_eq_nil_of_le hshort]
    · rfl
  refine token_of_digits (Or.inr rfl) ?_ (hd.trans_lt hlimit) ?_ hscale
  · rw [hfraction]
    show Nat.ofDigitChars 10 ((Nat.toDigits 10 d.digits).take 1 ++ _) 0 = d.digits
    rw [List.take_append_drop, Nat.ofDigitChars_ten_toDigits]
  · rw [exponentValue?_ofScientific, hfraction, Option.getD_some, List.length_drop]
    omega

/-- The decimal that rounds to a float but is read as an infinity stands for no float. -/
theorem shortestUnits_ne_edge :
    (shortestUnits .toEven (nearestDecimal 17976931348623158 292)).digits ≠ 17976931348623158 := by
  decide +kernel

/-- The text of a float is read as a finite number. -/
theorem token_ofFloat (x : Finite) : ∃ n, (ofFloat x).token = .number n := by
  unfold ofFloat Finite.shortest
  dsimp only
  by_cases hunits : x.units = 0
  · have hzero : shortestUnits .toEven x.units = ⟨0, 0⟩ := by
      unfold shortestUnits
      rw [if_pos hunits]
    rw [if_pos (Or.inl hunits), hzero]
    exact token_ofPositional _ (Nat.zero_le _) fun _ => by
      rw [Nat.zero_mul]
      exact Nat.zero_le _
  obtain ⟨d, hd⟩ : ∃ d, shortestUnits .toEven x.units = d := ⟨_, rfl⟩
  obtain ⟨hdigits, hbound, hreads⟩ := shortestUnits_bounds .toEven x.onGrid hunits x.inRange hd
  rw [hd]
  split
  · next hplain =>
    have hpower : d.power < 16 := (hplain.resolve_left hunits).2
    refine token_ofPositional _ hdigits fun hexp => ?_
    by_cases hzero : d.digits = 0
    · rw [hzero, Nat.zero_mul]
      exact Nat.zero_le _
    · obtain ⟨c, hc, -, hlt⟩ := digitCount_bounds hzero
      unfold Decimal.power at hpower
      calc d.digits * tenTo (d.exponent.toNat + 1)
        _ ≤ tenTo (c + 1) * tenTo (d.exponent.toNat + 1) := Nat.mul_le_mul_right _ hlt.le
        _ = tenTo (c + 1 + (d.exponent.toNat + 1)) := (tenTo_add _ _).symm
        _ ≤ tenTo 17 := tenTo_le (by omega)
  · refine token_ofScientific _ hdigits (Token.isSome_scale? _ hdigits hbound fun hedge => ?_)
    have hlong : tenTo 16 < d.digits := by
      rw [hedge.1]
      decide
    have hunits := hreads hlong
    rw [hedge.1, hedge.2] at hunits
    rw [← hunits] at hd
    exact shortestUnits_ne_edge (by rw [hd]; exact hedge.1)

end Literal

/-! ## Values -/

/-- Every number is read as a number. -/
theorem Number.exists_seen (n : Number) : ∃ m, n.seen = .number m := by
  have hread : ∃ m, n.reread = .number m := by
    cases n with
    | integer n h => exact ⟨_, reread_integer h⟩
    | float x => exact Literal.token_ofFloat x
  obtain ⟨m, hm⟩ := hread
  refine ⟨m, ?_⟩
  unfold seen
  rw [hm]

mutual

/-- What does not lie too deep is read. -/
theorem exists_value?_seen : ∀ (v : Json) {room : Nat}, v.nesting ≤ room →
    ∃ w, (v.seen room).value? = some w
  | null, _, _ | bool _, _, _ | string _, _, _ => ⟨_, by rw [seen, Tree.value?]⟩
  | number n, _, _ => by
    obtain ⟨m, hm⟩ := n.exists_seen
    exact ⟨number m, by rw [seen, hm, Tree.value?]⟩
  | array items, room, hroom => by
    have hroom : nestingItems items + 1 ≤ room := hroom
    have hitems : nestingItems items ≤ room - 1 := by omega
    obtain ⟨ws, hws⟩ := exists_itemValues?_seenItems items hitems
    rw [seen_array, if_neg (by omega), Tree.value?, hws]
    exact ⟨_, rfl⟩
  | object members, room, hroom => by
    have hroom : nestingMembers members + 1 ≤ room := hroom
    have hmembers : nestingMembers members ≤ room - 1 := by omega
    obtain ⟨ws, hws⟩ := exists_memberValues?_seenMembers members hmembers
    rw [seen_object, if_neg (by omega), Tree.value?, hws]
    exact ⟨_, rfl⟩

theorem exists_itemValues?_seenItems : ∀ (items : List Json) {room : Nat},
    nestingItems items ≤ room → ∃ ws, Tree.itemValues? (seenItems room items) = some ws
  | [], _, _ => ⟨[], rfl⟩
  | v :: rest, _, hroom => by
    obtain ⟨hv, hrest⟩ := Nat.max_le.mp hroom
    obtain ⟨w, hw⟩ := exists_value?_seen v hv
    obtain ⟨ws, hws⟩ := exists_itemValues?_seenItems rest hrest
    rw [seenItems, Tree.itemValues?, hw, hws]
    exact ⟨_, rfl⟩

theorem exists_memberValues?_seenMembers : ∀ (members : List (String × Json)) {room : Nat},
    nestingMembers members ≤ room → ∃ ws, Tree.memberValues? (seenMembers room members) = some ws
  | [], _, _ => ⟨[], rfl⟩
  | (k, v) :: rest, _, hroom => by
    obtain ⟨hv, hrest⟩ := Nat.max_le.mp hroom
    obtain ⟨w, hw⟩ := exists_value?_seen v hv
    obtain ⟨ws, hws⟩ := exists_memberValues?_seenMembers rest hrest
    rw [seenMembers, Tree.memberValues?, hw, hws]
    exact ⟨_, rfl⟩

end

/-- A text that was written is read unless its value lies too deep, perhaps with other floats. -/
theorem exists_parse?_text {v : Json} (h : v.nesting ≤ maxNesting) :
    ∃ w, parse? v.text = some w := by
  obtain ⟨w, hw⟩ := exists_value?_seen v h
  refine ⟨w.normal, ?_⟩
  rw [parse?_text, hw]
  rfl

/-- The text of an object, and no other, is read as an object. -/
theorem isObject_of_parse?_text {v w : Json} (h : parse? v.text = some w) :
    w.isObject = v.isObject := by
  rw [parse?_text, Option.map_eq_some_iff] at h
  obtain ⟨x, hx, rfl⟩ := h
  cases v with
  | null | bool _ | string _ =>
    rw [seen, Tree.value?] at hx
    cases hx
    rfl
  | number n =>
    obtain ⟨m, hm⟩ := n.exists_seen
    rw [seen, hm, Tree.value?] at hx
    cases hx
    rfl
  | array items =>
    rw [seen_array, if_neg (by decide), Tree.value?, Option.map_eq_some_iff] at hx
    obtain ⟨xs, -, rfl⟩ := hx
    rfl
  | object members =>
    rw [seen_object, if_neg (by decide), Tree.value?, Option.map_eq_some_iff] at hx
    obtain ⟨xs, -, rfl⟩ := hx
    rfl

end Json
end RecordRules
