/-
Comparisons of values.

Two values can be ordered if both are numbers, written in any way, or both are texts.  Whether such
values are equal is told apart from their order and comes to the same, so what each comparison says
of two values depends on one thing: which of three ways they are ordered.  Values that cannot be
ordered make a check fail without rejecting a write.
-/
import Mathlib.Logic.ExistsUnique
import RecordRules.Evaluation.Evaluator
import RecordRules.Proofs.Json.Equality

namespace RecordRules

/-! ## The order of values -/

/-- Two values that can be ordered. -/
inductive Json.Orderable : Json → Json → Prop where
  | numbers {a b : Json} {x y : Binary64.Finite} (left : a.number? = some x)
      (right : b.number? = some y) : Orderable a b
  | texts (s t : String) : Orderable (.string s) (.string t)

namespace Comparison

variable {a b : Json} {o : Ordering}

theorem order?_numbers {x y : Binary64.Finite} (hx : a.number? = some x)
    (hy : b.number? = some y) : order? a b = some (compare x.toInt y.toInt) := by
  unfold order?
  rw [hx, hy]

theorem order?_texts {s t : String}
    (h : Json.number? (.string s) = none ∨ Json.number? (.string t) = none) :
    order? (.string s) (.string t) = some (compare s t) := by
  unfold order?
  rcases h with h | h
  · rw [h]
  · rw [h]
    cases Json.number? (.string s) <;> rfl

/-- The order of two values is that of their numbers or, if one of them has none, of their texts. -/
theorem order?_eq_some_iff : order? a b = some o ↔
    (∃ x y, a.number? = some x ∧ b.number? = some y ∧ compare x.toInt y.toInt = o) ∨
      ∃ s t, a = .string s ∧ b = .string t ∧ (a.number? = none ∨ b.number? = none) ∧
        compare s t = o := by
  constructor
  · intro h
    unfold order? at h
    split at h
    · next x y hx hy => exact Or.inl ⟨x, y, hx, hy, Option.some.inj h⟩
    · next hnumbers =>
      split at h
      · next s t =>
        refine Or.inr ⟨s, t, rfl, rfl, ?_, Option.some.inj h⟩
        cases hs : Json.number? (.string s) with
        | none => exact Or.inl rfl
        | some x =>
          cases ht : Json.number? (.string t) with
          | none => exact Or.inr rfl
          | some y => exact absurd ht (hnumbers x y hs)
      · cases h
  · rintro (⟨x, y, hx, hy, rfl⟩ | ⟨s, t, rfl, rfl, hnone, rfl⟩)
    · exact order?_numbers hx hy
    · exact order?_texts hnone

theorem isSome_order?_iff : (order? a b).isSome = true ↔ Json.Orderable a b := by
  rw [Option.isSome_iff_exists]
  constructor
  · rintro ⟨o, ho⟩
    rcases order?_eq_some_iff.mp ho with ⟨x, y, hx, hy, _⟩ | ⟨s, t, rfl, rfl, _⟩
    · exact .numbers hx hy
    · exact .texts s t
  · intro h
    cases h with
    | numbers hx hy => exact ⟨_, order?_numbers hx hy⟩
    | texts s t =>
      cases hs : Json.number? (.string s) with
      | none => exact ⟨_, order?_texts (Or.inl hs)⟩
      | some x =>
        cases ht : Json.number? (.string t) with
        | none => exact ⟨_, order?_texts (Or.inr ht)⟩
        | some y => exact ⟨_, order?_numbers hs ht⟩

/-- The other way round, two values are in the opposite order. -/
theorem order?_swap (h : order? a b = some o) : order? b a = some o.swap := by
  rw [order?_eq_some_iff] at h ⊢
  rcases h with ⟨x, y, hx, hy, rfl⟩ | ⟨s, t, hs, ht, hnone, rfl⟩
  · exact Or.inl ⟨y, x, hy, hx, Std.OrientedCmp.eq_swap⟩
  · exact Or.inr ⟨t, s, ht, hs, hnone.symm, Std.OrientedCmp.eq_swap⟩

/-- Null has no order, and so no value that has one is null. -/
theorem isNull_of_order? (h : order? a b = some o) : a.isNull = false ∧ b.isNull = false := by
  have hnull {v w : Json} {o : Ordering} (h : order? v w = some o) : v.isNull = false := by
    rcases order?_eq_some_iff.mp h with ⟨_, _, hx, _⟩ | ⟨_, _, rfl, _⟩
    · exact Json.isNull_of_number? hx
    · rfl
  exact ⟨hnull h, hnull (order?_swap h)⟩

/-- Of two values that can be ordered, neither goes first exactly if they are loosely equal. -/
theorem looselyEqual_iff (h : order? a b = some o) : a.looselyEqual b = true ↔ o = .eq := by
  rw [Json.looselyEqual_iff_meaning_eq]
  rcases order?_eq_some_iff.mp h with ⟨x, y, hx, hy, rfl⟩ | ⟨s, t, rfl, rfl, hnone, rfl⟩
  · rw [Json.meaning_of_some hx, Json.meaning_of_some hy, Sum.inl.injEq, Std.compare_eq_iff_eq]
  · rw [Std.compare_eq_iff_eq]
    refine ⟨fun hsame => ?_, fun heq => heq ▸ rfl⟩
    -- A text that spells no number means itself, and the other one means the same.
    rcases hnone with hnone | hnone
    · rw [Json.meaning_of_none hnone] at hsame
      exact (Json.string.inj (Json.canonical_of_meaning hsame.symm)).symm
    · rw [Json.meaning_of_none hnone] at hsame
      exact Json.string.inj (Json.canonical_of_meaning hsame)

/-! ## Checks -/

/-- A check passes for an operand and a value of the target field. -/
def Passes (c : Comparison) (operand target : Option Json) : Prop := c.check operand target = .ok ()

/-- What a comparison asks of the order of two values that can be ordered. -/
def Asks : Comparison → Ordering → Prop
  | less, o => o = .lt
  | lessOrEqual, o => o = .lt ∨ o = .eq
  | greater, o => o = .gt
  | greaterOrEqual, o => o = .gt ∨ o = .eq
  | equal, o => o = .eq
  | notEqual, o => o ≠ .eq
  | present, _ => True

/-- The comparisons that need an order. -/
def orders : List Comparison := [less, lessOrEqual, greater, greaterOrEqual]

theorem verdict_ok_iff {p : Bool} {e : RuleError} :
    (if p then .ok () else .error e : Except RuleError Unit) = .ok () ↔ p = true := by
  cases p <;> simp

/-- What a check says of two values that can be ordered is told by their order. -/
theorem passes_iff (h : order? a b = some o) (c : Comparison) :
    c.Passes (some a) (some b) ↔ c.Asks o := by
  obtain ⟨ha, hb⟩ := isNull_of_order? h
  have hequal := looselyEqual_iff h
  unfold Passes check
  simp only [Option.filter_some, ha, hb, Bool.not_false, if_true]
  cases c with
  | present => simp [Asks]
  | equal => rw [verdict_ok_iff, bothEqual, hequal, Asks]
  | notEqual => rw [verdict_ok_iff, bothEqual, Bool.not_eq_true', ← Bool.not_eq_true, hequal, Asks]
  | _ => cases o <;> simp [h, accepts, Asks]

/-- Values that cannot be ordered are told so, whatever order is asked for. -/
theorem check_unordered (ha : a.isNull = false) (hb : b.isNull = false)
    (h : ¬Json.Orderable a b) {c : Comparison} (hc : c ∈ orders) :
    c.check (some a) (some b) = .error (.unordered a b) := by
  have hnone : order? a b = none := by
    rw [← Option.not_isSome_iff_eq_none, isSome_order?_iff]
    exact h
  unfold check
  simp only [Option.filter_some, ha, hb, Bool.not_false, if_true, hnone]
  cases c with
  | equal | notEqual | present => exact absurd hc (by decide)
  | _ => rfl

theorem passes_notEqual_iff (operand target : Option Json) :
    Passes notEqual operand target ↔ ¬Passes equal operand target := by
  unfold Passes check
  dsimp only
  rw [verdict_ok_iff, verdict_ok_iff, Bool.not_eq_true', Bool.not_eq_true]

/-- The comparison that tells one way of being ordered from the others. -/
def telling : Ordering → Comparison
  | .lt => less
  | .eq => equal
  | .gt => greater

/-- Two values that can be ordered are ordered in exactly one way. -/
theorem existsUnique_passes (h : order? a b = some o) :
    ∃! c, c ∈ [less, equal, greater] ∧ c.Passes (some a) (some b) := by
  have htells (c : Comparison) : c ∈ [less, equal, greater] ∧ c.Asks o ↔ c = telling o := by
    cases c <;> cases o <;> simp [Asks, telling]
  simp only [passes_iff h, htells]
  exact existsUnique_eq

end Comparison

/-- All comparisons of two values agree with each other.  Being different is not being equal, also
where there is no value.  Two values that can be ordered are ordered in exactly one way, the
comparisons that admit equality pass where one of the two ways that they admit is the case, and the
other way round the order is the opposite.  Where there is no order a check says so, which rejects
no write. -/
theorem comparisons_agree :
    (∀ operand target, Comparison.notEqual.Passes operand target ↔
      ¬Comparison.equal.Passes operand target) ∧
    (∀ s t : Json, s.Orderable t →
      (∃! c, c ∈ [Comparison.less, .equal, .greater] ∧ c.Passes (some s) (some t)) ∧
      (Comparison.lessOrEqual.Passes (some s) (some t) ↔
        Comparison.less.Passes (some s) (some t) ∨ Comparison.equal.Passes (some s) (some t)) ∧
      (Comparison.greaterOrEqual.Passes (some s) (some t) ↔
        Comparison.greater.Passes (some s) (some t) ∨ Comparison.equal.Passes (some s) (some t)) ∧
      (Comparison.less.Passes (some s) (some t) ↔ Comparison.greater.Passes (some t) (some s))) ∧
    ∀ s t : Json, s.isNull = false → t.isNull = false → ¬s.Orderable t →
      ∀ c ∈ Comparison.orders, c.check (some s) (some t) = .error (.unordered s t) ∧
        ∀ (r : Rule) (field : TargetField) (target : Record) (o : Outcome),
          Comparison.ofValue r.value = .ok c → target.get? field.name = some t →
            o.status = checkStatus r field (some s) target → o.isRejection = false := by
  refine ⟨Comparison.passes_notEqual_iff, fun s t h => ?_, fun s t hs ht h c hc => ?_⟩
  · obtain ⟨o, ho⟩ := Option.isSome_iff_exists.mp (Comparison.isSome_order?_iff.mpr h)
    have hback := Comparison.order?_swap ho
    refine ⟨Comparison.existsUnique_passes ho, ?_⟩
    simp only [Comparison.passes_iff ho, Comparison.passes_iff hback]
    cases o <;> simp [Comparison.Asks]
  · have hcheck := Comparison.check_unordered hs ht h hc
    refine ⟨hcheck, fun r field target o hr htarget hstatus => ?_⟩
    unfold checkStatus at hstatus
    rw [hr, htarget] at hstatus
    dsimp only at hstatus
    rw [hcheck] at hstatus
    unfold Outcome.isRejection
    rw [hstatus]

/-- A text that spells a number is ordered with a number, and a truth value is not. -/
theorem comparisons_agree_on_sample :
    Json.Orderable (.string "05") (.ofInt 7) ∧
      (∃! c, c ∈ [Comparison.less, .equal, .greater] ∧
        c.Passes (some (.string "05")) (some (.ofInt 7))) ∧
      ¬Json.Orderable (.bool true) (.ofInt 1) ∧
      Comparison.less.check (some (.bool true)) (some (.ofInt 1)) =
        .error (.unordered (.bool true) (.ofInt 1)) := by
  have hnumbers : Json.Orderable (.string "05") (.ofInt 7) :=
    Comparison.isSome_order?_iff.mp (by decide +kernel)
  have hbool : ¬Json.Orderable (.bool true) (.ofInt 1) := fun h =>
    absurd (Comparison.isSome_order?_iff.mpr h) (by decide)
  obtain ⟨-, hordered, hunordered⟩ := comparisons_agree
  exact ⟨hnumbers, (hordered _ _ hnumbers).1, hbool,
    (hunordered _ _ rfl rfl hbool _ (by decide)).1⟩

end RecordRules
