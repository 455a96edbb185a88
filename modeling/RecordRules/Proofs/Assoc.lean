/-
Lookups in association lists, lists that stay in order and lists that grow at their end.
-/
import RecordRules.Assoc

namespace RecordRules

/-! ## Association lists -/

namespace Assoc

variable {α β γ : Type} [DecidableEq α]

theorem lookup_put (key : α) (value : β) (entries : Assoc α β) (other : α) :
    (put key value entries).lookup other =
      if other = key then some value else entries.lookup other := by
  split
  · next h => rw [h, lookup_put_self]
  · next h => exact lookup_put_of_ne h value entries

theorem lookup_erase (key : α) (entries : Assoc α β) (other : α) :
    (erase key entries).lookup other = if other = key then none else entries.lookup other := by
  split
  · next h => rw [h, lookup_erase_self]
  · next h => exact lookup_erase_of_ne h entries

theorem mem_of_lookup {key : α} {value : β} {entries : Assoc α β}
    (h : entries.lookup key = some value) : (key, value) ∈ entries := by
  obtain ⟨before, after, rfl, _⟩ := List.lookup_eq_some_iff.mp h
  exact List.mem_append_right before List.mem_cons_self

theorem lookup_of_mem {key : α} {value : β} {entries : Assoc α β}
    (hkeys : (entries.map Prod.fst).Nodup) (h : (key, value) ∈ entries) :
    entries.lookup key = some value := by
  obtain ⟨before, after, rfl⟩ := List.append_of_mem h
  refine List.lookup_eq_some_iff.mpr ⟨before, after, rfl, fun e he => bne_iff_ne.mpr ?_⟩
  rw [List.map_append, List.map_cons] at hkeys
  have hapart := (List.nodup_append.mp hkeys).2.2 e.1 (List.mem_map_of_mem he) key
  exact (hapart List.mem_cons_self).symm

theorem put_of_lookup_eq_none {key : α} {entries : Assoc α β} (h : entries.lookup key = none)
    (value : β) : put key value entries = entries ++ [(key, value)] := by
  induction entries with
  | nil => rfl
  | cons e rest ih =>
    obtain ⟨hk, hrest⟩ := List.forall_mem_cons.mp (List.lookup_eq_none_iff.mp h)
    rw [put, if_neg (Ne.symm (bne_iff_ne.mp hk)), ih (List.lookup_eq_none_iff.mpr hrest),
      List.cons_append]

theorem mem_keys_put {key other : α} {value : β} {entries : Assoc α β}
    (h : other ∈ (put key value entries).map Prod.fst) :
    other = key ∨ other ∈ entries.map Prod.fst := by
  induction entries with
  | nil => exact Or.inl (List.mem_singleton.mp h)
  | cons e rest ih =>
    obtain ⟨k, v⟩ := e
    by_cases hk : k = key
    · rw [put, if_pos hk] at h
      exact (List.mem_cons.mp h).imp_right (List.mem_cons_of_mem _)
    · rw [put, if_neg hk] at h
      rcases List.mem_cons.mp h with rfl | h
      · exact Or.inr List.mem_cons_self
      · exact (ih h).imp_right (List.mem_cons_of_mem _)

theorem nodup_keys_put {entries : Assoc α β} (h : (entries.map Prod.fst).Nodup) (key : α)
    (value : β) : ((put key value entries).map Prod.fst).Nodup := by
  induction entries with
  | nil => exact List.pairwise_singleton _ _
  | cons e rest ih =>
    obtain ⟨k, v⟩ := e
    obtain ⟨hnot, hrest⟩ := List.nodup_cons.mp h
    by_cases hk : k = key
    · rw [put, if_pos hk]
      exact List.nodup_cons.mpr ⟨hk ▸ hnot, hrest⟩
    · rw [put, if_neg hk]
      refine List.nodup_cons.mpr ⟨fun hmem => ?_, ih hrest⟩
      rcases mem_keys_put hmem with heq | hmem
      · exact hk heq
      · exact hnot hmem

theorem lookup_map (f : β → γ) (entries : Assoc α β) (key : α) :
    (entries.map fun e => (e.1, f e.2)).lookup key = (entries.lookup key).map f := by
  induction entries with
  | nil => rfl
  | cons e rest ih =>
    rw [List.map_cons, List.lookup_cons, List.lookup_cons, ih]
    split <;> rfl

end Assoc

/-! ## Lists in order -/

section

variable {α : Type} {before : α → α → Bool} {x : α} {l : List α}

/-- An item that comes before none of a list is put at its end. -/
theorem insertBefore_eq_append (h : ∀ y ∈ l, before x y = false) :
    insertBefore before x l = l ++ [x] := by
  induction l with
  | nil => rfl
  | cons y rest ih =>
    obtain ⟨hy, hrest⟩ := List.forall_mem_cons.mp h
    rw [insertBefore, hy, ih hrest]
    rfl

/-- An item that is not looked for is put in anywhere. -/
theorem find?_insertBefore_of_neg {p : α → Bool} (h : p x = false) (l : List α) :
    (insertBefore before x l).find? p = l.find? p := by
  have hnot : ¬p x = true := ne_true_of_eq_false h
  induction l with
  | nil => exact List.find?_cons_of_neg hnot
  | cons y rest ih =>
    unfold insertBefore
    split
    · exact List.find?_cons_of_neg hnot
    · rw [List.find?_cons, List.find?_cons, ih]

theorem filter_insertBefore_of_neg {p : α → Bool} (h : p x = false) (l : List α) :
    (insertBefore before x l).filter p = l.filter p := by
  have hnot : ¬p x = true := ne_true_of_eq_false h
  induction l with
  | nil => exact List.filter_cons_of_neg hnot
  | cons y rest ih =>
    unfold insertBefore
    split
    · exact List.filter_cons_of_neg hnot
    · rw [List.filter_cons, List.filter_cons, ih]

theorem pairwise_insertBefore
    (htrans : ∀ {a b c}, before a b = true → before b c = true → before a c = true)
    (htotal : ∀ y ∈ l, before x y = true ∨ before y x = true)
    (h : l.Pairwise fun a b => before a b = true) :
    (insertBefore before x l).Pairwise fun a b => before a b = true := by
  induction l with
  | nil => exact List.pairwise_singleton _ _
  | cons y rest ih =>
    obtain ⟨hy, hrest⟩ := List.pairwise_cons.mp h
    obtain ⟨htotaly, htotal⟩ := List.forall_mem_cons.mp htotal
    unfold insertBefore
    split
    · next hbefore =>
      refine List.pairwise_cons.mpr ⟨fun z hz => ?_, h⟩
      rcases List.mem_cons.mp hz with rfl | hz
      · exact hbefore
      · exact htrans hbefore (hy z hz)
    · next hnot =>
      refine List.pairwise_cons.mpr ⟨fun z hz => ?_, ih htotal hrest⟩
      rcases mem_insertBefore.mp hz with rfl | hz
      · exact htotaly.resolve_left hnot
      · exact hy z hz

/-- Items that are equally far to the front do not hinder the order. -/
theorem pairwise_not_after_insertBefore
    (htrans : ∀ {a b c}, before a b = true → before b c = true → before a c = true)
    (hasymm : ∀ {a b}, before a b = true → before b a = false)
    (h : l.Pairwise fun a b => before b a = false) :
    (insertBefore before x l).Pairwise fun a b => before b a = false := by
  induction l with
  | nil => exact List.pairwise_singleton _ _
  | cons y rest ih =>
    obtain ⟨hy, hrest⟩ := List.pairwise_cons.mp h
    unfold insertBefore
    split
    · next hbefore =>
      refine List.pairwise_cons.mpr ⟨fun z hz => ?_, h⟩
      rcases List.mem_cons.mp hz with rfl | hz
      · exact hasymm hbefore
      · refine Bool.eq_false_iff.mpr fun hzx => ?_
        have hzy := htrans hzx hbefore
        rw [hy z hz] at hzy
        cases hzy
    · next hnot =>
      refine List.pairwise_cons.mpr ⟨fun z hz => ?_, ih hrest⟩
      rcases mem_insertBefore.mp hz with rfl | hz
      · exact Bool.eq_false_iff.mpr hnot
      · exact hy z hz

end

/-! ## Order by age -/

/-- Older, or equally old and before it by its text. -/
def Older (a b : Int × String) : Prop := a.1 < b.1 ∨ (a.1 = b.1 ∧ a.2 < b.2)

theorem Older.trans {a b c : Int × String} (hab : Older a b) (hbc : Older b c) : Older a c := by
  rcases hab with hab | ⟨hab, htext⟩
  · rcases hbc with hbc | ⟨hbc, _⟩
    · exact Or.inl (by omega)
    · exact Or.inl (by omega)
  · rcases hbc with hbc | ⟨hbc, htext'⟩
    · exact Or.inl (by omega)
    · exact Or.inr ⟨hab.trans hbc, String.lt_trans htext htext'⟩

theorem Older.asymm {a b : Int × String} (h : Older a b) : ¬Older b a := by
  rintro (h' | ⟨h', htext'⟩)
  · rcases h with h | ⟨h, _⟩ <;> omega
  · rcases h with h | ⟨_, htext⟩
    · omega
    · exact String.lt_asymm htext htext'

theorem older_total {a b : Int × String} (h : a.2 ≠ b.2) : Older a b ∨ Older b a := by
  rcases Int.lt_trichotomy a.1 b.1 with hlt | heq | hgt
  · exact Or.inl (Or.inl hlt)
  · by_cases htext : a.2 < b.2
    · exact Or.inl (Or.inr ⟨heq, htext⟩)
    · exact Or.inr (Or.inr ⟨heq.symm, Std.lt_of_le_of_ne (String.not_lt.mp htext) h.symm⟩)
  · exact Or.inr (Or.inl hgt)

/-! ## Lists that grow at their end -/

theorem getElem?_concat_of_some {α : Type} {l : List α} {b : α} {i : Nat} (h : l[i]? = some b)
    (a : α) : (l ++ [a])[i]? = some b := by
  rw [List.getElem?_append_left (List.getElem?_eq_some_iff.mp h).1]
  exact h

/-- An item of a list with one more at its end stands where it stood, or is the new one. -/
theorem getElem?_concat_cases {α : Type} {l : List α} {a b : α} {i : Nat}
    (h : (l ++ [a])[i]? = some b) :
    (l[i]? = some b ∧ (l ++ [a]).take i = l.take i) ∨
      (i = l.length ∧ b = a ∧ (l ++ [a]).take i = l) := by
  rcases Nat.lt_or_ge i l.length with hlt | hge
  · rw [List.getElem?_append_left hlt] at h
    exact Or.inl ⟨h, List.take_append_of_le_length (Nat.le_of_lt hlt)⟩
  · have hbound := List.getElem?_eq_some_iff.mp h
    obtain ⟨hlt, hb⟩ := hbound
    rw [List.length_append, List.length_singleton] at hlt
    have hi : i = l.length := by omega
    subst hi
    refine Or.inr ⟨rfl, ?_, List.take_left⟩
    rw [← hb]
    exact List.getElem_concat_length rfl _

end RecordRules
