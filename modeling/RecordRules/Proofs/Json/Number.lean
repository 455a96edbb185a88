/-
Numbers and their texts.

The text of a number is a decimal literal: a sign, digits without leading zeros, and perhaps a
fraction and an exponent.  A literal is read up to its end, whatever stands behind it, so a number
reads as the same word wherever it is written.  An integer reads as itself; a float need not, since
a reader rounds twice.
-/
import Mathlib.Data.List.Basic
import RecordRules.Json.Text

namespace RecordRules

/-! ## Digits -/

namespace Binary64

/-- No digit comes next. -/
def NoDigit (rest : List Char) : Prop := ∀ c ∈ rest.head?, c.isDigit = false

theorem takeDigits_append {ds rest : List Char} (hds : ∀ c ∈ ds, c.isDigit = true)
    (hrest : NoDigit rest) : takeDigits (ds ++ rest) = (ds, rest) := by
  have hstop : rest.takeWhile Char.isDigit = [] ∧ rest.dropWhile Char.isDigit = rest := by
    cases rest with
    | nil => exact ⟨rfl, rfl⟩
    | cons c rest =>
      have hc : c.isDigit = false := hrest c rfl
      simp [List.takeWhile, List.dropWhile, hc]
  unfold takeDigits
  rw [List.takeWhile_append_of_pos hds, List.dropWhile_append_of_pos hds, hstop.1, hstop.2,
    List.append_nil]

theorem isDigit_of_mem_digits {n : Nat} {c : Char} (h : c ∈ Nat.toDigits 10 n) :
    c.isDigit = true :=
  Nat.isDigit_of_mem_toDigits (by decide) (by decide) h

theorem toList_toString (n : Nat) : (toString n).toList = Nat.toDigits 10 n := by
  rw [Nat.toString_eq_ofList_toDigits, String.toList_ofList]

/-- The first digit of a number that is not zero is not zero. -/
theorem head_digits_ne_zero {n : Nat} (hn : n ≠ 0) : ∀ c ∈ (Nat.toDigits 10 n).head?, c ≠ '0' := by
  induction n using Nat.strongRecOn with
  | ind n ih =>
    by_cases hlt : n < 10
    · rw [Nat.toDigits_of_lt_base hlt]
      have hsmall : ∀ n : Fin 10, n.val ≠ 0 → Nat.digitChar n.val ≠ '0' := by decide
      intro c hc
      rw [List.head?_cons, Option.mem_some_iff] at hc
      exact hc ▸ hsmall ⟨n, hlt⟩ hn
    · rw [Nat.toDigits_of_base_le (by decide) (by omega), List.head?_append_of_ne_nil _
        Nat.toDigits_ne_nil]
      exact ih (n / 10) (by omega) (by omega)

end Binary64

namespace Json

open Binary64

/-! ## Literals -/

/-- A decimal literal: its sign, the digits before the point, those behind it, and the sign and the
digits of the exponent. -/
structure Literal where
  negative : Bool
  whole : List Char
  fraction : Option (List Char)
  exponent : Option (Bool × List Char)

namespace Literal

def signText (l : Literal) : List Char := if l.negative then ['-'] else []

def fractionText (l : Literal) : List Char :=
  match l.fraction with
  | some ds => '.' :: ds
  | none => []

def exponentText (l : Literal) : List Char :=
  match l.exponent with
  | some (negative, ds) => 'e' :: (if negative then '-' else '+') :: ds
  | none => []

def text (l : Literal) : List Char :=
  l.signText ++ (l.whole ++ (l.fractionText ++ l.exponentText))

/-- The digits of a part of a literal. -/
def IsDigits (ds : List Char) : Prop := ds ≠ [] ∧ ∀ c ∈ ds, c.isDigit = true

/-- Every part has digits, and a zero before the point stands alone. -/
structure WellFormed (l : Literal) : Prop where
  whole : IsDigits l.whole
  leading : l.whole = ['0'] ∨ ∀ c ∈ l.whole.head?, c ≠ '0'
  fraction : ∀ ds ∈ l.fraction, IsDigits ds
  exponent : ∀ e ∈ l.exponent, IsDigits e.2

def exponentValue? (l : Literal) : Option Int :=
  l.exponent.map fun (negative, ds) => if negative then -(digitsValue ds : Int) else digitsValue ds

/-- The word that the literal spells. -/
def token (l : Literal) : Token :=
  match Token.numberOf? l.negative l.whole l.fraction l.exponentValue? with
  | some n => .number n
  | none => .overflow

end Literal

namespace Token

/-- A literal does not go on with this text. -/
def NoMore (rest : List Char) : Prop :=
  ∀ c ∈ rest.head?, c.isDigit = false ∧ c ≠ '.' ∧ c ≠ 'e' ∧ c ≠ 'E'

theorem NoMore.noDigit {rest : List Char} (h : NoMore rest) : NoDigit rest := fun c hc => (h c hc).1

theorem NoMore.nil : NoMore [] := nofun

variable {l : Literal} {rest : List Char}

theorem scanExponent?_literal (h : l.WellFormed) (hrest : NoMore rest) :
    scanExponent? (l.exponentText ++ rest) = some (l.exponentValue?, rest) := by
  unfold Literal.exponentText Literal.exponentValue?
  cases he : l.exponent with
  | none =>
    cases rest with
    | nil => rfl
    | cons c rest =>
      obtain ⟨_, _, he, hE⟩ := hrest c rfl
      simp [scanExponent?, he, hE]
  | some e =>
    obtain ⟨negative, ds⟩ := e
    obtain ⟨hne, hds⟩ := h.exponent _ he
    have htake := takeDigits_append hds hrest.noDigit
    cases negative <;> simp [scanExponent?, takeSign, htake, hne]

/-- Neither an exponent nor what follows a literal goes on with digits or a point. -/
theorem exponentText_head (hrest : NoMore rest) :
    ∀ c ∈ (l.exponentText ++ rest).head?, c.isDigit = false ∧ c ≠ '.' := by
  unfold Literal.exponentText
  split
  · intro c hc
    rw [List.cons_append, List.head?_cons, Option.mem_some_iff] at hc
    rw [← hc]
    decide
  · exact fun c hc => ⟨(hrest c hc).1, (hrest c hc).2.1⟩

theorem scanFraction?_literal (h : l.WellFormed) (hrest : NoMore rest) :
    scanFraction? (l.fractionText ++ (l.exponentText ++ rest)) =
      some (l.fraction, l.exponentText ++ rest) := by
  have hhead := exponentText_head (l := l) hrest
  unfold Literal.fractionText
  cases hf : l.fraction with
  | none =>
    rw [List.nil_append]
    unfold scanFraction?
    split
    · next heq =>
      rw [heq] at hhead
      exact absurd rfl (hhead '.' rfl).2
    · rfl
  | some ds =>
    obtain ⟨hne, hds⟩ := h.fraction _ hf
    have htake := takeDigits_append hds (fun c hc => (hhead c hc).1)
    simp [scanFraction?, htake, hne]

theorem scanWhole?_literal (h : l.WellFormed) (htail : NoDigit rest) :
    scanWhole? (l.whole ++ rest) = some (l.whole, rest) := by
  obtain ⟨hne, hds⟩ := h.whole
  rcases h.leading with hzero | hhead
  · rw [hzero]
    rfl
  · have htake := takeDigits_append hds htail
    unfold scanWhole?
    split
    · next heq =>
      have hfirst : (l.whole ++ rest).head? = l.whole.head? := List.head?_append_of_ne_nil _ hne
      rw [← hfirst, heq] at hhead
      exact absurd rfl (hhead '0' rfl)
    · simp [htake, hne]

/-- A literal is read up to its end. -/
theorem scanNumber?_literal (h : l.WellFormed) (hrest : NoMore rest) :
    scanNumber? (l.text ++ rest) = some (l.token, rest) := by
  have htail : NoDigit (l.fractionText ++ (l.exponentText ++ rest)) := by
    unfold Literal.fractionText
    split
    · intro c hc
      rw [List.cons_append, List.head?_cons, Option.mem_some_iff] at hc
      rw [← hc]
      decide
    · exact fun c hc => (exponentText_head hrest c hc).1
  have hunsigned : ∀ negative, negative = l.negative →
      scanUnsigned? negative (l.whole ++ (l.fractionText ++ (l.exponentText ++ rest))) =
        some (l.token, rest) := by
    rintro negative rfl
    unfold scanUnsigned? Literal.token
    simp only [scanWhole?_literal h htail, scanFraction?_literal h hrest,
      scanExponent?_literal h hrest, Option.bind_eq_bind, Option.bind_some]
    cases numberOf? l.negative l.whole l.fraction l.exponentValue? <;> rfl
  have htext : l.text ++ rest =
      l.signText ++ (l.whole ++ (l.fractionText ++ (l.exponentText ++ rest))) := by
    simp [Literal.text]
  rw [htext]
  unfold Literal.signText
  by_cases hsign : l.negative = true
  · rw [if_pos hsign]
    exact hunsigned true hsign.symm
  · rw [if_neg hsign, List.nil_append]
    unfold scanNumber?
    split
    · next heq =>
      -- The first digit is no sign.
      obtain ⟨hne, hds⟩ := h.whole
      have hfirst : '-' ∈ l.whole := by
        refine List.mem_of_mem_head? ?_
        rw [← List.head?_append_of_ne_nil l.whole hne, heq]
        rfl
      exact absurd (hds '-' hfirst) (by decide)
    · exact hunsigned false (Bool.eq_false_iff.mpr hsign).symm

end Token

/-! ## Integers -/

namespace Literal

theorem isDigits_toDigits (n : Nat) : IsDigits (Nat.toDigits 10 n) :=
  ⟨Nat.toDigits_ne_nil, fun _ => isDigit_of_mem_digits⟩

theorem leading_toDigits (n : Nat) :
    Nat.toDigits 10 n = ['0'] ∨ ∀ c ∈ (Nat.toDigits 10 n).head?, c ≠ '0' := by
  by_cases hn : n = 0
  · subst hn
    exact Or.inl (by decide)
  · exact Or.inr (head_digits_ne_zero hn)

def ofInt (n : Int) : Literal :=
  { negative := n < 0, whole := Nat.toDigits 10 n.natAbs, fraction := none, exponent := none }

theorem ofInt_wellFormed (n : Int) : (ofInt n).WellFormed :=
  ⟨isDigits_toDigits _, leading_toDigits _, nofun, nofun⟩

theorem text_ofInt (n : Int) : (ofInt n).text = (toString n).toList := by
  have htext : (ofInt n).text = (ofInt n).signText ++ Nat.toDigits 10 n.natAbs := by
    simp [text, fractionText, exponentText, ofInt]
  rw [htext]
  cases n with
  | ofNat n =>
    have hsign : (ofInt (Int.ofNat n)).signText = [] := by simp [signText, ofInt]
    rw [hsign]
    exact (toList_toString n).symm
  | negSucc n =>
    have hsign : (ofInt (Int.negSucc n)).signText = ['-'] := by
      simp [signText, ofInt, Int.negSucc_lt_zero]
    have hstring : toString (Int.negSucc n) = "-" ++ toString (n + 1) := rfl
    rw [hsign, hstring, String.toList_append, toList_toString]
    rfl

end Literal

theorem le_ofDigitChars (ds : List Char) (m : Nat) : m ≤ Nat.ofDigitChars 10 ds m := by
  induction ds generalizing m with
  | nil => exact Nat.le_refl m
  | cons c ds ih =>
    rw [Nat.ofDigitChars_cons]
    exact Nat.le_trans (by omega) (ih _)

/-- All digits are gathered if their number fits. -/
theorem gather_eq {ds : List Char} {m : Nat}
    (h : Nat.ofDigitChars 10 ds m < Token.significandLimit) :
    Token.gather m ds = (Nat.ofDigitChars 10 ds m, []) := by
  induction ds generalizing m with
  | nil => rfl
  | cons c ds ih =>
    rw [Nat.ofDigitChars_cons] at h ⊢
    unfold Token.gather
    dsimp only
    rw [if_pos (Nat.lt_of_le_of_lt (le_ofDigitChars ds _) h)]
    exact ih h

/-- An integer that fits reads as itself. -/
theorem Literal.token_ofInt {n : Int} (h : Integral n) :
    (Literal.ofInt n).token = .number (.integer n h) := by
  have hlimit : n.natAbs < Token.significandLimit := by
    have hlit : Token.significandLimit = 18446744073709551616 := by decide
    rw [hlit]
    obtain ⟨hlo, hhi⟩ := h
    omega
  have hgather : Token.gather 0 (Nat.toDigits 10 n.natAbs) = (n.natAbs, []) := by
    rw [gather_eq (by rw [Nat.ofDigitChars_ten_toDigits]; exact hlimit),
      Nat.ofDigitChars_ten_toDigits]
  have hzero : (decide (n < 0) && (n.natAbs == 0 || decide (twoTo 63 < n.natAbs))) = false := by
    have hlit : twoTo 63 = 9223372036854775808 := by decide
    rw [hlit, Bool.and_eq_false_iff]
    by_cases hneg : n < 0
    · right
      obtain ⟨hlo, _⟩ := h
      simp only [Bool.or_eq_false_iff, beq_eq_false_iff_ne, decide_eq_false_iff_not]
      omega
    · left
      simpa using hneg
  have hvalue : (if decide (n < 0) = true then -(n.natAbs : Int) else n.natAbs) = n := by
    by_cases hneg : n < 0
    · simp only [hneg, decide_true, if_true]
      omega
    · simp only [hneg, decide_false, Bool.false_eq_true, if_false]
      omega
  have hnumber : Token.numberOf? (decide (n < 0)) (Nat.toDigits 10 n.natAbs) none none =
      some (.integer n h) := by
    unfold Token.numberOf?
    rw [hgather]
    simp only [Option.isNone_none, List.isEmpty_nil, Bool.and_self, hzero, Bool.not_false,
      if_true, hvalue]
    unfold Number.ofInt?
    rw [dif_pos h]
  unfold Literal.token
  have hparts : Token.numberOf? (Literal.ofInt n).negative (Literal.ofInt n).whole
      (Literal.ofInt n).fraction (Literal.ofInt n).exponentValue? = some (.integer n h) := hnumber
  rw [hparts]

/-! ## Floats -/

theorem nearestDecimal_zero (e : Int) : nearestDecimal 0 e = 0 := by
  have hnum : (decimalRatio 0 e).1 = 0 := by
    unfold decimalRatio
    split
    · exact Nat.zero_mul _
    · rfl
  unfold nearestDecimal nearest roundHalfEven
  simp [hnum]

theorem digits_trim_ne_zero (rounds : Nat) {d : Decimal} (h : d.digits ≠ 0) :
    (d.trim rounds).digits ≠ 0 := by
  induction rounds generalizing d with
  | zero => exact h
  | succ rounds ih =>
    unfold Decimal.trim
    split
    · refine ih ?_
      dsimp only
      omega
    · exact h

/-- A number that is not zero has a digit that is not. -/
theorem digits_shortestUnits_ne_zero (tie : Tie) {units : Nat} (hunits : units ≠ 0) :
    (shortestUnits tie units).digits ≠ 0 := by
  unfold shortestUnits
  rw [if_neg hunits]
  split
  · next d hd =>
    refine digits_trim_ne_zero 17 ?_
    obtain ⟨i, _, hcandidate⟩ := List.exists_of_findSome?_eq_some hd
    unfold candidate? at hcandidate
    dsimp only at hcandidate
    split at hcandidate
    · cases hcandidate
      exact Nat.succ_ne_zero _
    · split at hcandidate
      · next hreads =>
        cases hcandidate
        intro hzero
        dsimp only at hzero
        rw [hzero, nearestDecimal_zero] at hreads
        exact hunits (beq_iff_eq.mp hreads).symm
      · cases hcandidate
  · exact hunits

namespace Literal

/-- The literal of a decimal without an exponent, as a float has it. -/
def ofPositional (negative : Bool) (d : Decimal) : Literal :=
  let ds := Nat.toDigits 10 d.digits
  let point := (ds.length : Int) + d.exponent
  let (whole, fraction) :=
    if 0 ≤ d.exponent then (ds ++ List.replicate d.exponent.toNat '0', ['0'])
    else if point ≤ 0 then (['0'], List.replicate (-point).toNat '0' ++ ds)
    else (ds.take point.toNat, ds.drop point.toNat)
  { negative, whole, fraction := some fraction, exponent := none }

def ofScientific (negative : Bool) (d : Decimal) : Literal :=
  let ds := Nat.toDigits 10 d.digits
  let power := (ds.length : Int) - 1 + d.exponent
  { negative, whole := ds.take 1, fraction := if ds.length ≤ 1 then none else some (ds.drop 1)
    exponent := some (decide (power < 0), Nat.toDigits 10 power.natAbs) }

def ofFloat (x : Finite) : Literal :=
  let d := x.shortest .toEven
  if x.units = 0 ∨ (-5 ≤ d.power ∧ d.power < 16) then ofPositional x.negative d
  else ofScientific x.negative d

theorem isDigits_of_subset {ds es : List Char} (h : IsDigits ds) (hne : es ≠ [])
    (hsub : es ⊆ ds) : IsDigits es :=
  ⟨hne, fun c hc => h.2 c (hsub hc)⟩

theorem isDigits_zeros_append (k : Nat) {ds : List Char} (h : IsDigits ds) :
    IsDigits (List.replicate k '0' ++ ds) := by
  refine ⟨by simp [h.1], fun c hc => ?_⟩
  rcases List.mem_append.mp hc with hc | hc
  · rw [List.eq_of_mem_replicate hc]
    decide
  · exact h.2 c hc

theorem isDigits_append_zeros (k : Nat) {ds : List Char} (h : IsDigits ds) :
    IsDigits (ds ++ List.replicate k '0') := by
  refine ⟨by simp [h.1], fun c hc => ?_⟩
  rcases List.mem_append.mp hc with hc | hc
  · exact h.2 c hc
  · rw [List.eq_of_mem_replicate hc]
    decide

/-- The first digits of a number that is not zero do not begin with a zero. -/
theorem leading_of_head? {n : Nat} (hn : n ≠ 0) {ds : List Char}
    (h : ds.head? = (Nat.toDigits 10 n).head?) : ∀ c ∈ ds.head?, c ≠ '0' := by
  rw [h]
  exact head_digits_ne_zero hn

theorem positional_wellFormed (negative : Bool) {whole fraction : List Char}
    (hwhole : IsDigits whole) (hleading : whole = ['0'] ∨ ∀ c ∈ whole.head?, c ≠ '0')
    (hfraction : IsDigits fraction) : (Literal.mk negative whole (some fraction) none).WellFormed :=
  ⟨hwhole, hleading, fun _ h => Option.mem_some_iff.mp h ▸ hfraction, nofun⟩

theorem ofPositional_wellFormed (negative : Bool) {d : Decimal}
    (h : d.digits ≠ 0 ∨ d = ⟨0, 0⟩) : (ofPositional negative d).WellFormed := by
  have hds := isDigits_toDigits d.digits
  have hzero : IsDigits ['0'] := ⟨by decide, fun c hc => List.mem_singleton.mp hc ▸ rfl⟩
  unfold ofPositional
  dsimp only
  split
  · refine positional_wellFormed _ (isDigits_append_zeros _ hds) ?_ hzero
    rcases h with hne | rfl
    · refine Or.inr (leading_of_head? hne ?_)
      exact List.head?_append_of_ne_nil _ Nat.toDigits_ne_nil
    · exact Or.inl (by decide)
  · next hexp =>
    have hne : d.digits ≠ 0 := by
      rcases h with hne | rfl
      · exact hne
      · exact absurd (Int.le_refl 0) hexp
    split
    · exact positional_wellFormed _ hzero (Or.inl rfl) (isDigits_zeros_append _ hds)
    · next hpoint =>
      refine positional_wellFormed _ (isDigits_of_subset hds ?_ (List.take_subset _ _)) (Or.inr ?_)
        (isDigits_of_subset hds ?_ (List.drop_subset _ _))
      · simp only [ne_eq, List.take_eq_nil_iff, Nat.toDigits_ne_nil, or_false]
        omega
      · refine leading_of_head? hne ?_
        rw [List.head?_take, if_neg (by omega)]
      · simp only [ne_eq, List.drop_eq_nil_iff]
        omega

theorem ofScientific_wellFormed (negative : Bool) {d : Decimal} (h : d.digits ≠ 0) :
    (ofScientific negative d).WellFormed := by
  have hds := isDigits_toDigits d.digits
  unfold ofScientific
  refine ⟨isDigits_of_subset hds ?_ (List.take_subset _ _), Or.inr ?_, ?_, ?_⟩
  · simp [Nat.toDigits_ne_nil]
  · refine leading_of_head? h ?_
    rw [List.head?_take, if_neg (by decide)]
  · intro ds hfraction
    dsimp only at hfraction
    split at hfraction
    · cases hfraction
    · next hlong =>
      rw [← Option.mem_some_iff.mp hfraction]
      refine isDigits_of_subset hds ?_ (List.drop_subset _ _)
      rwa [ne_eq, List.drop_eq_nil_iff]
  · intro e he
    rw [← Option.mem_some_iff.mp he]
    exact isDigits_toDigits _

theorem ofFloat_wellFormed (x : Finite) : (ofFloat x).WellFormed := by
  have hdigits : x.units ≠ 0 → (x.shortest .toEven).digits ≠ 0 := digits_shortestUnits_ne_zero _
  unfold ofFloat
  dsimp only
  split
  · refine ofPositional_wellFormed _ ?_
    by_cases hunits : x.units = 0
    · right
      unfold Finite.shortest shortestUnits
      rw [if_pos hunits]
    · exact Or.inl (hdigits hunits)
  · next hfar => exact ofScientific_wellFormed _ (hdigits fun hzero => hfar (Or.inl hzero))

theorem text_ofPositional (negative : Bool) (d : Decimal) :
    (ofPositional negative d).text =
      (if negative then ['-'] else []) ++ (d.positional ".0").toList := by
  have hlength : (toString d.digits).length = (Nat.toDigits 10 d.digits).length := by
    rw [← String.length_toList, toList_toString]
  unfold ofPositional Decimal.positional
  dsimp only
  rw [hlength]
  split
  · simp [text, signText, fractionText, exponentText]
  · split
    · simp [text, signText, fractionText, exponentText]
    · simp [text, signText, fractionText, exponentText]

theorem text_ofScientific (negative : Bool) (d : Decimal) :
    (ofScientific negative d).text = (if negative then ['-'] else []) ++ d.scientific.toList := by
  have hsign : ∀ power : Int, (if power < 0 then "-" else "+").toList =
      [if power < 0 then '-' else '+'] := by
    intro power
    split <;> rfl
  unfold ofScientific Decimal.scientific
  dsimp only
  rw [toList_toString]
  by_cases hshort : (Nat.toDigits 10 d.digits).length ≤ 1
  · simp [hshort, hsign, text, signText, fractionText, exponentText]
  · simp [hshort, hsign, text, signText, fractionText, exponentText]

theorem text_ofFloat (x : Finite) : (ofFloat x).text = x.markedText.toList := by
  have hsign : (if x.negative then ['-'] else []) = (if x.negative then "-" else "").toList := by
    cases x.negative <;> rfl
  unfold ofFloat Finite.markedText
  dsimp only
  rw [String.toList_append, ← hsign]
  split
  · exact text_ofPositional _ _
  · exact text_ofScientific _ _

end Literal

/-! ## Numbers -/

namespace Number

def literal : Number → Literal
  | integer n _ => .ofInt n
  | float x => .ofFloat x

theorem literal_wellFormed (n : Number) : n.literal.WellFormed := by
  cases n with
  | integer n h => exact Literal.ofInt_wellFormed n
  | float x => exact Literal.ofFloat_wellFormed x

theorem text_literal (n : Number) : n.literal.text = Token.spellNumber n := by
  cases n with
  | integer n h => exact Literal.text_ofInt n
  | float x => exact Literal.text_ofFloat x

/-- The word that is read where a number is written. -/
def reread (n : Number) : Token := n.literal.token

/-- A number is read up to its end, and as the same word whatever follows it. -/
theorem scanNumber?_spellNumber (n : Number) {rest : List Char} (h : Token.NoMore rest) :
    Token.scanNumber? (Token.spellNumber n ++ rest) = some (n.reread, rest) := by
  rw [← text_literal]
  exact Token.scanNumber?_literal n.literal_wellFormed h

theorem reread_integer {n : Int} (h : Integral n) : (integer n h).reread = .number (integer n h) :=
  Literal.token_ofInt h

end Number
end Json
end RecordRules
