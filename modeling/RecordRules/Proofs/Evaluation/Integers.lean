/-
Integers under comparison.

Values are compared as floats once they are not the same, and a float holds an integer exactly only
up to `2 ^ 53`.  So integers compare as what they are rounded to.  Up to there, and for integers
that lie apart, this is the order of the integers.  Two large ones that are close can be taken for
each other, and then a record with the one is found under the other.
-/
import RecordRules.Proofs.Binary64.Order
import RecordRules.Proofs.Evaluation.Comparisons
import RecordRules.Proofs.Evaluation.Selection
import RecordRules.Proofs.Store.Keys

namespace RecordRules

open Binary64 (rounded Confused)

/-! ## Comparing integers -/

/-- The relation of two integers that a comparison asks for. -/
def Comparison.Relates : Comparison → Int → Int → Prop
  | less, a, b => a < b
  | lessOrEqual, a, b => a ≤ b
  | greater, a, b => b < a
  | greaterOrEqual, a, b => b ≤ a
  | equal, a, b => a = b
  | notEqual, a, b => a ≠ b
  | present, _, _ => True

variable {a b k m : Int}

theorem Comparison.asks_compare_iff (c : Comparison) : c.Asks (compare a b) ↔ c.Relates a b := by
  have hlt : compare a b = .lt ↔ a < b := Std.compare_eq_lt
  have heq : compare a b = .eq ↔ a = b := Std.compare_eq_iff_eq
  have hgt : compare a b = .gt ↔ b < a := Std.compare_eq_gt
  cases c with
  | less => exact hlt
  | lessOrEqual => exact (or_congr hlt heq).trans Int.le_iff_lt_or_eq.symm
  | greater => exact hgt
  | greaterOrEqual => exact (or_congr hgt (heq.trans eq_comm)).trans Int.le_iff_lt_or_eq.symm
  | equal => exact heq
  | notEqual => exact not_congr heq
  | present => exact Iff.rfl

/-- An integer is read as the float that it is rounded to. -/
theorem Json.number?_ofInt (h : Json.Integral a) :
    ∃ x, (Json.ofInt a).number? = some x ∧ x.toInt = rounded a * Binary64.one := by
  obtain ⟨x, hx⟩ := Json.Number.exists_finite (.integer a h)
  refine ⟨x, ?_, Binary64.toInt_ofInt hx⟩
  rw [Json.ofInt_of_integral h, Json.Number.number?_eq hx]

/-- Integers are ordered as what they are rounded to. -/
theorem Comparison.order?_ofInt (ha : Json.Integral a) (hb : Json.Integral b) :
    Comparison.order? (.ofInt a) (.ofInt b) = some (compare (rounded a) (rounded b)) := by
  obtain ⟨x, hx, hxa⟩ := Json.number?_ofInt ha
  obtain ⟨y, hy, hyb⟩ := Json.number?_ofInt hb
  have hone : (0 : Int) < Binary64.one := Int.natCast_pos.mpr Binary64.one_pos
  rw [Comparison.order?_numbers hx hy, hxa, hyb]
  congr 1
  rcases Int.lt_trichotomy (rounded a) (rounded b) with hlt | heq | hgt
  · rw [Std.compare_eq_lt.mpr hlt, Std.compare_eq_lt]
    exact Int.mul_lt_mul_of_pos_right hlt hone
  · rw [heq, Std.compare_self, Std.compare_self]
  · rw [Std.compare_eq_gt.mpr hgt, Std.compare_eq_gt]
    exact Int.mul_lt_mul_of_pos_right hgt hone

theorem Json.looselyEqual_ofInt_iff (ha : Json.Integral a) (hb : Json.Integral b) :
    (Json.ofInt a).looselyEqual (.ofInt b) = true ↔ a = b ∨ Confused a b := by
  rw [Comparison.looselyEqual_iff (Comparison.order?_ofInt ha hb), Std.compare_eq_iff_eq,
    Binary64.eq_or_confused_iff]

/-- A comparison asks of two integers what it asks of their rounded ones. -/
theorem Comparison.passes_ofInt_iff (ha : Json.Integral a) (hb : Json.Integral b)
    (c : Comparison) :
    c.Passes (some (.ofInt a)) (some (.ofInt b)) ↔ c.Relates (rounded a) (rounded b) := by
  rw [Comparison.passes_iff (Comparison.order?_ofInt ha hb), Comparison.asks_compare_iff]

theorem Comparison.relates_rounded_iff (h : ¬Confused a b) (c : Comparison) :
    c.Relates (rounded a) (rounded b) ↔ c.Relates a b := by
  rw [← Comparison.asks_compare_iff, Binary64.compare_rounded h, Comparison.asks_compare_iff]

/-! ## Finding integers -/

section

variable {σ : Type} [RecordStore σ] {store : σ} {module : ModuleId} {name : String}
  {found : List Record}

/-- Of the records that hold an integer, those are found that hold the key or an integer that is
taken for it. -/
theorem RecordStore.mem_findByField_iff (hk : Json.Integral k)
    (hfound : findByField store module name (.ofInt k) = .ok found) :
    ∃ all, list store module = .ok all ∧ ∀ (r : Record) (m : Int), Json.Integral m →
      r.get? name = some (.ofInt m) → (r ∈ found ↔ r ∈ all ∧ (m = k ∨ Confused m k)) := by
  obtain ⟨all, hall, hmem⟩ := mem_of_findByField hfound
  refine ⟨all, hall, fun r m hm hr => ?_⟩
  rw [hmem, hr, ← Json.looselyEqual_ofInt_iff hm hk]
  simp only [Option.some.injEq, exists_eq_left']

end

/-- Integers of 64-bit words compare as the integers that they are rounded to.  That is exact but
for two integers that are taken for each other: these lie from `2 ^ 53` on and at most 2048 apart.
So the records that are found by an integer key, or that a match on such a key leads to, hold the
key or an integer that is taken for it. -/
theorem integers_compare_rounded {a b : Int} (ha : Json.Integral a) (hb : Json.Integral b) :
    ((Json.ofInt a).looselyEqual (.ofInt b) = true ↔ a = b ∨ Confused a b) ∧
      (∀ c : Comparison, c.Passes (some (.ofInt a)) (some (.ofInt b)) ↔
        c.Relates (rounded a) (rounded b)) ∧
      (¬Confused a b → ∀ c : Comparison, c.Passes (some (.ofInt a)) (some (.ofInt b)) ↔
        c.Relates a b) ∧
      (Confused a b → 9007199254740992 ≤ a.natAbs ∧ 9007199254740992 ≤ b.natAbs ∧
        |a - b| ≤ 2048) ∧
      ∀ {σ : Type} [RecordStore σ] (store : σ) (module : ModuleId),
        (∀ name found, RecordStore.findByField store module name (.ofInt b) = .ok found →
          ∃ all, RecordStore.list store module = .ok all ∧
            ∀ r : Record, r.get? name = some (.ofInt a) →
              (r ∈ found ↔ r ∈ all ∧ (a = b ∨ Confused a b))) ∧
        ∀ (registry : Registry) (r : Record) (element : Option Json) (address field name : String)
            (ts : List Record),
          r.KeyAt element address (.ofInt b) → matchField registry module field = .ok name →
          (Binding.byMatch address field).targets registry store module r element = .ok ts →
            ∀ t ∈ ts, t.get? name = some (.ofInt a) → a = b ∨ Confused a b := by
  refine ⟨Json.looselyEqual_ofInt_iff ha hb, Comparison.passes_ofInt_iff ha hb, fun h c => ?_,
    fun h => ⟨h.le_natAbs, h.symm.le_natAbs, h.abs_sub_le ha hb⟩, fun store module => ⟨?_, ?_⟩⟩
  · rw [Comparison.passes_ofInt_iff ha hb, Comparison.relates_rounded_iff h]
  · intro name found hfound
    obtain ⟨all, hall, hmem⟩ := RecordStore.mem_findByField_iff hb hfound
    exact ⟨all, hall, fun r => hmem r a ha⟩
  · intro registry r element address field name ts hkey hname hts t ht hheld
    obtain ⟨key, name', hkey', hname', hfound⟩ := targets_byMatch_ok hts
    obtain rfl := hkey'.unique hkey
    rw [hname] at hname'
    cases hname'
    obtain ⟨all, -, hmem⟩ := RecordStore.mem_findByField_iff hb hfound
    exact ((hmem t a ha hheld).mp ht).2

/-- The first integer that is not exact is taken for the one before it, and less than the next. -/
theorem integers_compare_rounded_on_sample :
    Confused 9007199254740993 9007199254740992 ∧
      (Json.ofInt 9007199254740993).looselyEqual (.ofInt 9007199254740992) = true ∧
      ¬Comparison.greater.Passes (some (.ofInt 9007199254740993))
        (some (.ofInt 9007199254740992)) ∧
      Comparison.less.Passes (some (.ofInt 9007199254740993)) (some (.ofInt 9007199254740994)) := by
  have hintegral : Json.Integral 9007199254740993 := by decide
  have hconfused : Confused 9007199254740993 9007199254740992 := by decide +kernel
  have hapart : ¬Confused 9007199254740993 9007199254740994 := by decide +kernel
  obtain ⟨hequal, hrounded, -⟩ := integers_compare_rounded hintegral
    (show Json.Integral 9007199254740992 by decide)
  obtain ⟨-, -, hexact, -⟩ := integers_compare_rounded hintegral
    (show Json.Integral 9007199254740994 by decide)
  refine ⟨hconfused, hequal.mpr (Or.inr hconfused), ?_, (hexact hapart .less).mpr ?_⟩
  · rw [hrounded .greater, hconfused.2]
    exact Int.lt_irrefl _
  · show (9007199254740993 : Int) < 9007199254740994
    decide

end RecordRules
