/-
The words of a text.

Words that are written one after another are read one after another: a string reads as itself with
its escapes undone, a mark or a literal as itself, and a number as the word that its text spells.
-/
import RecordRules.Proofs.Json.Number

namespace RecordRules
namespace Json
namespace Token

/-! ## Strings -/

theorem hexUnit?_hexPair {n : Nat} (h : n < 0x20) :
    ∃ a b, hexPair n = [a, b] ∧ hexUnit? '0' '0' a b = some n := by
  have hall : ∀ n : Fin 0x20,
      hexUnit? '0' '0' (Nat.digitChar (n.val / 16)) (Nat.digitChar (n.val % 16)) = some n.val := by
    decide
  exact ⟨_, _, rfl, hall ⟨n, h⟩⟩

theorem scanString?_unescaped {c : Char} (hquote : c ≠ '"') (hslash : c ≠ '\\')
    (hc : ¬c.toNat < 0x20) (tail : List Char) :
    scanString? none (c :: tail) = (scanString? none tail).map fun s => s.cons c := by
  rw [scanString?]
  · rw [if_neg hc]
    rfl
  · exact hquote
  · intro a b c d rest h1 h2
    exact hslash h1
  · intro c rest h1 h2
    exact hslash h1

theorem scanString?_escaped {c e : Char} (h : escaped? e = some c) (tail : List Char) :
    scanString? none ('\\' :: e :: tail) = (scanString? none tail).map fun s => s.cons c := by
  rw [scanString?]
  · rw [h]
    rfl
  · rintro a b c d rest rfl
    cases h

theorem scanString?_control {c : Char} (hc : c.toNat < 0x20) (tail : List Char) :
    scanString? none (['\\', 'u', '0', '0'] ++ hexPair c.toNat ++ tail) =
      (scanString? none tail).map fun s => s.cons c := by
  obtain ⟨a, b, hpair, hunit⟩ := hexUnit?_hexPair hc
  have hlead : isLeading c.toNat = false := by
    simp only [isLeading, Bool.and_eq_false_iff, decide_eq_false_iff_not]
    omega
  have htrail : isTrailing c.toNat = false := by
    simp only [isTrailing, Bool.and_eq_false_iff, decide_eq_false_iff_not]
    omega
  rw [hpair]
  show scanString? none ('\\' :: 'u' :: '0' :: '0' :: a :: b :: tail) = _
  rw [scanString?, hunit]
  dsimp only
  rw [if_neg (by rw [hlead]; decide), if_neg (by rw [htrail]; decide), Char.ofNat_toNat]
  rfl

/-- A character of a string is read as it is written. -/
theorem scanString?_spellChar (c : Char) (tail : List Char) :
    scanString? none (spellChar c ++ tail) = (scanString? none tail).map fun s => s.cons c := by
  unfold spellChar
  split
  case h_8 hquote hslash _ _ _ _ _ =>
    split
    · next hc => exact scanString?_control hc tail
    · next hc => exact scanString?_unescaped hquote hslash hc tail
  all_goals exact scanString?_escaped rfl tail

theorem scanString?_spelled (s : List Char) (rest : List Char) :
    scanString? none (s.flatMap spellChar ++ '"' :: rest) = some (some s, rest) := by
  induction s with
  | nil => rw [List.flatMap_nil, List.nil_append, scanString?]; rfl
  | cons c s ih =>
    rw [List.flatMap_cons, List.append_assoc, scanString?_spellChar, ih]
    rfl


/-! ## Words -/

/-- The word that is read where a word is written. -/
def reread : Token → Token
  | number n => n.reread
  | t => t

/-- Only words that stand for a value or a mark are written. -/
def IsWritten : Token → Prop
  | overflow | loneSurrogate => False
  | _ => True

theorem scanWord?_of_head {s : List Char} (h : ∀ c ∈ s.head?, c = '-' ∨ c.isDigit = true) :
    scanWord? s = scanNumber? s := by
  unfold scanWord?
  split
  case h_11 => rfl
  all_goals exact absurd (h _ rfl) (by decide)

theorem head_spellNumber (n : Number) :
    ∃ c cs, spellNumber n = c :: cs ∧ (c = '-' ∨ c.isDigit = true) := by
  obtain ⟨hne, hds⟩ := n.literal_wellFormed.whole
  rw [← Number.text_literal]
  unfold Literal.text Literal.signText
  split
  · exact ⟨_, _, rfl, Or.inl rfl⟩
  · obtain ⟨c, cs, hwhole⟩ := List.exists_cons_of_ne_nil hne
    rw [hwhole]
    exact ⟨c, _, rfl, Or.inr (hds c (by rw [hwhole]; exact List.mem_cons_self))⟩

theorem scanWord?_spell {t : Token} (ht : t.IsWritten) {rest : List Char}
    (hrest : ∀ n, t = number n → NoMore rest) :
    scanWord? (t.spell ++ rest) = some (t.reread, rest) := by
  cases t with
  | overflow => exact ht.elim
  | loneSurrogate => exact ht.elim
  | number n =>
    obtain ⟨c, cs, hspell, hc⟩ := head_spellNumber n
    show scanWord? (spellNumber n ++ rest) = some (n.reread, rest)
    rw [scanWord?_of_head, Number.scanNumber?_spellNumber n (hrest n rfl)]
    rw [hspell]
    exact fun d hd => Option.mem_some_iff.mp hd ▸ hc
  | string s =>
    show (scanString? none ((s.toList.flatMap spellChar ++ ['"']) ++ rest)).map _ = _
    rw [List.append_assoc]
    rw [show ['"'] ++ rest = '"' :: rest from rfl, scanString?_spelled]
    simp [reread]
  | bool b => cases b <;> rfl
  | _ => rfl

/-- A word does not begin with a blank. -/
theorem head_spell {t : Token} (ht : t.IsWritten) :
    ∃ c cs, t.spell = c :: cs ∧ isGap c = false := by
  cases t with
  | overflow => exact ht.elim
  | loneSurrogate => exact ht.elim
  | number n =>
    obtain ⟨c, cs, hspell, hc⟩ := head_spellNumber n
    refine ⟨c, cs, hspell, ?_⟩
    rcases hc with rfl | hc
    · decide
    · simp only [isGap, Bool.or_eq_false_iff, beq_eq_false_iff_ne]
      refine ⟨⟨⟨?_, ?_⟩, ?_⟩, ?_⟩ <;>
      · rintro rfl
        exact absurd hc (by decide)
  | bool b => cases b <;> exact ⟨_, _, rfl, rfl⟩
  | _ => exact ⟨_, _, rfl, rfl⟩

/-- Words that can be told apart when they are written one after another. -/
def Legible : List Token → Prop
  | [] => True
  | t :: rest => t.IsWritten ∧ (∀ n, t = number n → NoMore (rest.flatMap spell)) ∧ Legible rest

theorem scanAll?_spelled {ts : List Token} (h : Legible ts) {rounds : Nat}
    (hrounds : ts.length ≤ rounds) : scanAll? rounds (ts.flatMap spell) = some (ts.map reread) := by
  induction ts generalizing rounds with
  | nil => cases rounds <;> rfl
  | cons t ts ih =>
    obtain ⟨hwritten, hmore, hrest⟩ := h
    obtain ⟨rounds, rfl⟩ : ∃ n, rounds = n + 1 := ⟨rounds - 1, by simp at hrounds; omega⟩
    obtain ⟨c, cs, hspell, hgap⟩ := head_spell hwritten
    have hword := scanWord?_spell hwritten hmore
    rw [List.flatMap_cons]
    rw [hspell] at hword ⊢
    rw [List.cons_append] at hword ⊢
    unfold scanAll?
    rw [List.dropWhile_cons_of_neg (by simp [hgap])]
    dsimp only
    rw [hword, Option.bind_eq_bind, Option.bind_some]
    dsimp only
    rw [ih hrest (by simpa using hrounds)]
    rfl

theorem length_le_length_flatMap_spell {ts : List Token} (h : Legible ts) :
    ts.length ≤ (ts.flatMap spell).length := by
  induction ts with
  | nil => exact Nat.le_refl _
  | cons t ts ih =>
    obtain ⟨hwritten, _, hrest⟩ := h
    obtain ⟨c, cs, hspell, _⟩ := head_spell hwritten
    have := ih hrest
    rw [List.flatMap_cons, hspell]
    simp only [List.length_cons, List.length_append]
    omega

/-- Words that are written one after another are read one after another. -/
theorem scan?_spelled {ts : List Token} (h : Legible ts) :
    scan? (ts.flatMap spell) = some (ts.map reread) :=
  scanAll?_spelled h (length_le_length_flatMap_spell h)

end Token
end Json
end RecordRules
