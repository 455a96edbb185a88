/-
The history of a registry.

An operation on a registry is an edit or a query, made in place.  A history lists a registry as one
operation after the other leaves it, the last one first.  An operation that fails and one that only
reads leave the registry as it was, and an edit that is made raises the generation by one, so there
are never two registries of one generation in a history.
-/
import RecordRules.Proofs.Registry.InPlace
import RecordRules.Proofs.Registry.Leads
import RecordRules.Proofs.Registry.Snapshot

namespace RecordRules
namespace Registry

/-! ## Operations -/

inductive Query where
  | snapshot
  | generation
  | getDataType (id : DataTypeId)
  | kindOf (id : DataTypeId)
  | listDataTypes
  | kindsFor (fields : List Field)
  | getModule (id : ModuleId)
  | hasModule (id : ModuleId)
  | listModules
  | relationshipsFrom (id : ModuleId)
  | relationshipCount
  | listFields (module : ModuleId)
  | getField (module : ModuleId) (id : FieldId)
  | getFieldByName (module : ModuleId) (name : String)
  | labelField (module : ModuleId)

namespace Query

def Answer : Query → Type
  | snapshot => Snapshot
  | generation => Nat
  | getDataType _ => DataType
  | kindOf _ => Option Kind
  | listDataTypes => List DataType
  | kindsFor _ => Assoc DataTypeId Kind
  | getModule _ => Module
  | hasModule _ => Bool
  | listModules => List Module
  | relationshipsFrom _ => List Relationship
  | relationshipCount => Nat
  | listFields _ => List Field
  | getField _ _ => Option Field
  | getFieldByName _ _ => Option Field
  | labelField _ => Option Field

def answer (r : Registry) : (q : Query) → Except RegistryError q.Answer
  | snapshot => .ok r.snapshot
  | generation => .ok r.generation
  | getDataType id => r.getDataType id
  | kindOf id => .ok (r.kindOf id)
  | listDataTypes => .ok r.listDataTypes
  | kindsFor fields => .ok (r.kindsFor fields)
  | getModule id => r.getModule id
  | hasModule id => .ok (r.hasModule id)
  | listModules => .ok r.listModules
  | relationshipsFrom id => .ok (r.relationshipsFrom id)
  | relationshipCount => .ok r.relationshipCount
  | listFields module => .ok (r.listFields module)
  | getField module id => .ok (r.getField? module id)
  | getFieldByName module name => .ok (r.getFieldByName? module name)
  | labelField module => .ok (r.labelField? module)

def ask (q : Query) : InPlace Registry q.Answer := do
  let r ← get
  InPlace.check (q.answer r)

end Query

inductive Operation where
  | edit (e : Edit)
  | query (q : Query)

def Operation.run : Operation → InPlace Registry Unit
  | edit e => e.inPlace
  | query q => discard q.ask

/-- A registry as operations of a sort leave it, from a certain start.  The last one comes first. -/
inductive History (start : Registry → Prop) (allowed : List Registry → Operation → Prop) :
    List Registry → Prop where
  | start {r : Registry} (h : start r) : History start allowed [r]
  | next {r : Registry} {past : List Registry} (h : History start allowed (r :: past))
      (o : Operation) (ho : allowed (r :: past) o) :
      History start allowed (o.run.leaves r :: r :: past)

variable {r r' : Registry} {past : List Registry} {start : Registry → Prop}
  {allowed : List Registry → Operation → Prop}

/-! ## One operation -/

theorem generation_of_bumped {α β : Type} {x : Except RegistryError α} {next : α → β × Registry}
    (hnext : ∀ a, (next a).2.generation = r.generation + 1)
    (h : (x >>= fun a => .ok (next a)).map (·.2) = .ok r') : r'.generation = r.generation + 1 := by
  obtain ⟨_, hr, rfl⟩ := map_ok h
  obtain ⟨a, _, hr⟩ := bind_ok hr
  cases hr
  exact hnext a

theorem Edit.generation_perform {e : Edit} (h : e.perform r = .ok r') :
    r'.generation = r.generation + 1 := by
  cases e with
  | createDataType name kind fresh now => exact generation_of_bumped (fun _ => rfl) h
  | renameDataType id name now =>
    obtain ⟨_, hr, rfl⟩ := map_ok h
    obtain ⟨clean, _, hr⟩ := bind_ok hr
    exact generation_of_bumped (fun _ => rfl) (congrArg (Except.map (·.2)) hr)
  | setDataTypeActive id active now => exact generation_of_bumped (fun _ => rfl) h
  | deleteDataType id => exact generation_of_bumped (fun _ => rfl) h
  | createModule id name now => exact generation_of_bumped (fun _ => rfl) h
  | renameModule id name now => exact generation_of_bumped (fun _ => rfl) h
  | setRelationships id relationships now => exact generation_of_bumped (fun _ => rfl) h
  | deleteModule id => exact generation_of_bumped (fun _ => rfl) h
  | createField draft fresh now =>
    obtain ⟨_, hr, rfl⟩ := map_ok h
    obtain ⟨_, _, hr'⟩ := createField_ok hr
    rw [hr']
    rfl
  | setLabel module id now => exact generation_of_bumped (fun _ => rfl) h
  | deleteFieldsOf module =>
    cases h
    rfl

/-- An operation fails and leaves everything as it is, or it reads and does so too, or it is an edit
that is made. -/
theorem Operation.run_cases (h : r.graph.Indexed) (o : Operation) :
    (∃ error, o.run r = .error error r) ∨ (∃ q, o = .query q) ∧ o.run r = .ok () r ∨
      ∃ e r', o = .edit e ∧ e.perform r = .ok r' ∧ o.run r = .ok () r' := by
  cases o with
  | edit e =>
    have heq : (Operation.edit e).run r = _ := Edit.inPlace_eq h e
    cases hperform : e.perform r with
    | error error =>
      rw [hperform] at heq
      exact Or.inl ⟨error, heq⟩
    | ok r' =>
      rw [hperform] at heq
      exact Or.inr (Or.inr ⟨e, r', rfl, hperform, heq⟩)
  | query q =>
    have heq : q.ask r = match q.answer r with
        | .ok a => .ok a r
        | .error e => .error e r := by
      show InPlace.check (q.answer r) r = _
      cases q.answer r <;> rfl
    cases hanswer : q.answer r with
    | error error =>
      rw [hanswer] at heq
      exact Or.inl ⟨error, InPlace.bind_of_error heq _⟩
    | ok answer =>
      rw [hanswer] at heq
      exact Or.inr (Or.inl ⟨⟨q, rfl⟩, InPlace.bind_of_ok heq _⟩)

/-- An operation leaves a registry as it is, or it is an edit that is made. -/
theorem Operation.leaves_cases (h : r.graph.Indexed) (o : Operation) :
    o.run.leaves r = r ∨ ∃ e, o = .edit e ∧ e.perform r = .ok (o.run.leaves r) := by
  unfold InPlace.leaves
  rcases Operation.run_cases h o with ⟨_, hrun⟩ | ⟨_, hrun⟩ | ⟨e, r', he, hperform, hrun⟩
  · rw [hrun]
    exact Or.inl rfl
  · rw [hrun]
    exact Or.inl rfl
  · rw [hrun]
    exact Or.inr ⟨e, he, hperform⟩

theorem Operation.leaves_of_perform (h : r.graph.Indexed) {e : Edit}
    (hperform : e.perform r = .ok r') : (Operation.edit e).run.leaves r = r' := by
  have heq : (Operation.edit e).run r = _ := Edit.inPlace_eq h e
  unfold InPlace.leaves
  rw [heq, hperform]
  rfl

/-! ## A history -/

theorem History.indexed (h : History start allowed past) (hstart : ∀ r, start r → r.graph.Indexed) :
    ∀ r ∈ past, r.graph.Indexed := by
  induction h with
  | start h => exact List.forall_mem_singleton.mpr (hstart _ h)
  | @next r past _ o _ ih =>
    refine List.forall_mem_cons.mpr ⟨?_, ih⟩
    have hr := ih r List.mem_cons_self
    rcases o.leaves_cases hr with heq | ⟨e, _, hperform⟩
    · rw [heq]
      exact hr
    · exact (Edit.does hperform).indexed hr

theorem Started.indexed (h : r.Started) : r.graph.Indexed := by
  rcases h with rfl | ⟨s, hbuilt⟩
  · exact ModuleGraph.indexed_empty
  · exact indexed_ofSnapshot hbuilt

theorem History.generation_le (h : History Started allowed past) :
    ∀ r ∈ past.head?, ∀ a ∈ past, a.generation ≤ r.generation := by
  induction h with
  | start h =>
    rintro _ ⟨⟩ a ha
    exact Nat.le_of_eq (congrArg _ (List.mem_singleton.mp ha))
  | @next r past h o _ ih =>
    rintro _ ⟨⟩
    have hle := ih r rfl
    have hr := h.indexed (fun _ => Started.indexed) r List.mem_cons_self
    refine List.forall_mem_cons.mpr ⟨Nat.le_refl _, ?_⟩
    rcases o.leaves_cases hr with hleaves | ⟨e, _, hperform⟩
    · rw [hleaves]
      exact hle
    · rw [Edit.generation_perform hperform]
      exact fun a ha => Nat.le_succ_of_le (hle a ha)

/-- No two registries of a history have the same generation. -/
theorem History.eq_of_generation_eq (h : History Started allowed past) :
    ∀ a ∈ past, ∀ b ∈ past, a.generation = b.generation → a = b := by
  induction h with
  | start h =>
    intro a ha b hb _
    rw [List.mem_singleton.mp ha, List.mem_singleton.mp hb]
  | @next r past h o _ ih =>
    have hle := h.generation_le r rfl
    have hr := h.indexed (fun _ => Started.indexed) r List.mem_cons_self
    have hnew : ∀ a ∈ r :: past, (o.run.leaves r).generation = a.generation →
        o.run.leaves r = a := by
      intro a ha heq
      rcases o.leaves_cases hr with hleaves | ⟨e, _, hperform⟩
      · rw [hleaves] at heq ⊢
        exact ih r List.mem_cons_self a ha heq
      · rw [Edit.generation_perform hperform] at heq
        have := hle a ha
        omega
    intro a ha b hb hab
    rcases List.mem_cons.mp ha with rfl | ha
    · rcases List.mem_cons.mp hb with rfl | hb
      · rfl
      · exact hnew b hb hab
    · rcases List.mem_cons.mp hb with rfl | hb
      · exact (hnew a ha hab.symm).symm
      · exact ih a ha b hb hab

end Registry

open Registry in
/-- An operation on a registry that fails leaves it exactly as it was, and so does a query; an edit
that succeeds is made in full and raises the generation by one.  So in a history of a registry there
is one registry of each generation, with one snapshot and one answer to each query. -/
theorem operations_are_whole_and_counted {past : List Registry}
    (h : History Started (fun _ _ => True) past) :
    (∀ r ∈ past, ∀ (o : Operation) (r' : Registry),
      (∀ error, o.run r = .error error r' → r' = r) ∧
      (o.run r = .ok () r' → match o with
        | .edit e => e.perform r = .ok r' ∧ r'.generation = r.generation + 1
        | .query _ => r' = r)) ∧
    ∀ a ∈ past, ∀ b ∈ past, a.generation = b.generation → a = b := by
  refine ⟨fun r hr o r' => ?_, h.eq_of_generation_eq⟩
  have hindexed := h.indexed (fun _ => Started.indexed) r hr
  rcases o.run_cases hindexed with ⟨_, hrun⟩ | ⟨⟨q, rfl⟩, hrun⟩ | ⟨e, made, rfl, hperform, hrun⟩
  · rw [hrun]
    refine ⟨fun _ herror => ?_, nofun⟩
    cases herror
    rfl
  · rw [hrun]
    refine ⟨nofun, fun hok => ?_⟩
    cases hok
    rfl
  · rw [hrun]
    refine ⟨nofun, fun hok => ?_⟩
    cases hok
    exact ⟨hperform, Edit.generation_perform hperform⟩

open Registry Sample in
/-- The goods are created and looked at, and they are not created twice. -/
theorem operations_are_whole_and_counted_on_sample :
    ∃ past, History Started (fun _ _ => True) past ∧
      past.map (·.generation) = [2, 1, 1, 1, 0] ∧
      ∀ a ∈ past, ∀ b ∈ past, a.generation = b.generation → a = b := by
  have hempty : History Started (fun _ _ => True) [.empty] := .start (Or.inl rfl)
  have hgoods := hempty.next (.edit (.createModule goods "Goods" 1)) trivial
  have hlooked := hgoods.next (.query .snapshot) trivial
  have htwice := hlooked.next (.edit (.createModule goods "Goods" 2)) trivial
  have hreturns := htwice.next (.edit (.createModule returns "Returns" 3)) trivial
  exact ⟨_, hreturns, rfl, (operations_are_whole_and_counted hreturns).2⟩

end RecordRules
