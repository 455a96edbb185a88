/-
Answers that may be errors.

A computation that goes through has gone through step by step, and one that stops has stopped at one
of its steps.
-/

namespace RecordRules

theorem bind_ok {ε α β : Type} {x : Except ε α} {f : α → Except ε β} {b : β}
    (h : (x >>= f) = .ok b) : ∃ a, x = .ok a ∧ f a = .ok b := by
  cases x with
  | error e => cases h
  | ok a => exact ⟨a, rfl, h⟩

theorem bind_error {ε α β : Type} {x : Except ε α} {f : α → Except ε β} {e : ε}
    (h : (x >>= f) = .error e) : x = .error e ∨ ∃ a, x = .ok a ∧ f a = .error e := by
  cases x with
  | error e' =>
    cases h
    exact Or.inl rfl
  | ok a => exact Or.inr ⟨a, rfl, h⟩

theorem map_ok {ε α β : Type} {x : Except ε α} {f : α → β} {b : β} (h : x.map f = .ok b) :
    ∃ a, x = .ok a ∧ f a = b := by
  cases x with
  | error e => cases h
  | ok a => exact ⟨a, rfl, Except.ok.inj h⟩

theorem map_error {ε α β : Type} {x : Except ε α} {f : α → β} {e : ε} (h : x.map f = .error e) :
    x = .error e := by
  cases x with
  | error e' => exact congrArg Except.error (Except.error.inj h)
  | ok a => cases h

/-- What goes through has passed the check before it. -/
theorem of_guard_ok {ε α : Type} {p : Bool} {e : ε} {x : Except ε α} {a : α}
    (h : (if !p then .error e else x) = .ok a) : p = true ∧ x = .ok a := by
  cases p with
  | true => exact ⟨rfl, h⟩
  | false => cases h

/-- What every step of a fold keeps, the fold keeps. -/
theorem foldlM_ok {ε α β : Type} {f : β → α → Except ε β} {P : β → Prop} {l : List α} {b b' : β}
    (hstep : ∀ b b', ∀ a ∈ l, P b → f b a = .ok b' → P b') (h : P b)
    (hfold : l.foldlM f b = .ok b') : P b' := by
  induction l generalizing b with
  | nil =>
    cases hfold
    exact h
  | cons a rest ih =>
    rw [List.foldlM_cons] at hfold
    obtain ⟨next, hnext, hfold⟩ := bind_ok hfold
    exact ih (fun b b' a ha => hstep b b' a (List.mem_cons_of_mem _ ha))
      (hstep b next a List.mem_cons_self h hnext) hfold

/-- A list that goes through gives an answer for each of its members, and no others. -/
theorem mapM_ok {ε α β : Type} {f : α → Except ε β} {l : List α} {bs : List β}
    (h : l.mapM f = .ok bs) :
    (∀ a ∈ l, ∃ b ∈ bs, f a = .ok b) ∧ ∀ b ∈ bs, ∃ a ∈ l, f a = .ok b := by
  induction l generalizing bs with
  | nil =>
    cases h
    exact ⟨nofun, nofun⟩
  | cons first rest ih =>
    rw [List.mapM_cons] at h
    obtain ⟨b, hb, h⟩ := bind_ok h
    obtain ⟨bs', hbs', h⟩ := bind_ok h
    cases h
    obtain ⟨hfor, hof⟩ := ih hbs'
    refine ⟨fun a ha => ?_, fun b' hb' => ?_⟩
    · rcases List.mem_cons.mp ha with rfl | ha
      · exact ⟨b, List.mem_cons_self, hb⟩
      · obtain ⟨b', hb', ha⟩ := hfor a ha
        exact ⟨b', List.mem_cons_of_mem _ hb', ha⟩
    · rcases List.mem_cons.mp hb' with rfl | hb'
      · exact ⟨first, List.mem_cons_self, hb⟩
      · obtain ⟨a, ha, hb'⟩ := hof b' hb'
        exact ⟨a, List.mem_cons_of_mem _ ha, hb'⟩

end RecordRules
