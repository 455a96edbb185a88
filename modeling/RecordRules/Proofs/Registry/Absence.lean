/-
Modules that are not there.

The deletion of a module takes its fields and their identifiers along, and its outgoing
relationships.  All other modules keep theirs, also relationships that lead to the module.  A module
that is not there has no fields and gets none; only its creation brings it back, and then it has
nothing yet.
-/
import RecordRules.Proofs.Registry.Consistency

namespace RecordRules

/-! ## The graph -/

namespace ModuleGraph

variable {g g' : ModuleGraph} {m : Module} {id other : ModuleId}

theorem slot?_of_not_contains (h : g.contains id = false) : g.slot? id = none := by
  unfold slot?
  rw [Option.not_isSome_iff_eq_none.mp (Bool.eq_false_iff.mp h)]
  rfl

/-- A removed module empties its own slot only. -/
theorem Indexed.slot?_remove_of_ne (h : g.Indexed) (hremove : g.remove id = .ok (m, g'))
    (hne : other ≠ id) : g'.slot? other = g.slot? other := by
  obtain ⟨s, hs, _, rfl⟩ := remove_ok hremove
  obtain ⟨i, _, hi, hid, hset⟩ := h.setSlot_eq hs
  unfold slot? Assoc.get?
  rw [Assoc.lookup_erase_of_ne hne, hset none]
  refine Option.bind_congr fun j hj => ?_
  -- the index leads to the slots of different modules, so this is another slot
  obtain ⟨s', hs', hid'⟩ := (h.index other j).mp hj
  have hij : i ≠ j := by
    rintro rfl
    rw [hi] at hs'
    cases hs'
    exact hne (hid'.symm.trans hid)
  rw [List.getElem?_set_ne hij]

/-- No removal fills a slot. -/
theorem slot?_of_remove (hremove : g.remove id = .ok (m, g')) {s : Slot}
    (hs : g'.slot? other = some s) : g.slot? other = some s := by
  obtain ⟨_, _, _, rfl⟩ := remove_ok hremove
  unfold slot? Assoc.get? at hs ⊢
  obtain ⟨j, hj, hs⟩ := Option.bind_eq_some_iff.mp hs
  rw [Option.join_eq_some_iff] at hs
  have hne : other ≠ id := by
    rintro rfl
    rw [Assoc.lookup_erase_self] at hj
    cases hj
  rw [Assoc.lookup_erase_of_ne hne] at hj
  rw [hj, Option.bind_some, Option.join_eq_some_iff]
  unfold setSlot at hs
  split at hs
  · rw [List.getElem?_set] at hs
    split at hs
    · split at hs
      · cases hs
      · cases hs
    · exact hs
  · exact hs

/-- A created module has no relationships. -/
theorem Indexed.relationshipsFrom_create (h : g.Indexed) {name : String} {now : Int}
    (hcreate : g.create id name now = .ok (m, g')) : g'.relationshipsFrom id = [] := by
  have hindexed := h.create hcreate
  obtain ⟨clean, rfl, hinsert⟩ := create_ok hcreate
  obtain ⟨_, _, rfl⟩ := insert_ok hinsert
  have hslot := (slot?_eq_some_iff hindexed).mpr
    ⟨List.mem_append_right _ (List.mem_singleton_self _), rfl⟩
  unfold relationshipsFrom
  rw [hslot]
  rfl

end ModuleGraph

/-! ## The fields -/

namespace FieldTable

variable {t : FieldTable}

/-- The identifiers of a module's fields become free, and all others stay with their owners. -/
theorem Tidy.owners_removeOf (h : t.Tidy) (howns : t.OwnsFieldsOnly) (module : ModuleId)
    (id : FieldId) :
    List.lookup id (t.removeOf module).2.owners =
      (List.lookup id t.owners).filter fun owner => owner ≠ module := by
  have hfree : (∃ f ∈ t.list module, f.id = id) ↔ List.lookup id t.owners = some module := by
    refine ⟨?_, howns id module⟩
    rintro ⟨f, hf, rfl⟩
    exact h.owned module f hf
  show List.lookup id (disown (t.list module) t.owners) = _
  by_cases howner : List.lookup id t.owners = some module
  · obtain ⟨f, hf, hid⟩ := hfree.mpr howner
    rw [howner, Option.filter_some_neg (by simp)]
    refine Option.eq_none_iff_forall_ne_some.mpr fun owner hleft => ?_
    exact (lookup_of_lookup_disown hleft).2 f hf hid
  · rw [lookup_disown fun f hf hid => howner (hfree.mp ⟨f, hf, hid⟩)]
    cases hleft : List.lookup id t.owners with
    | none => rfl
    | some owner =>
      have hne : owner ≠ module := fun heq => howner (hleft.trans (congrArg some heq))
      rw [Option.filter_some_pos (by simpa using hne)]

end FieldTable

/-! ## The registry -/

namespace Registry

variable {r r' : Registry} {e : Edit} {module : ModuleId}

/-- What holds of the graph and the fields of every registry, however it was built and edited. -/
structure InOrder (r : Registry) : Prop where
  indexed : r.graph.Indexed
  tidy : r.fields.Tidy
  owns : r.fields.OwnsFieldsOnly

theorem InOrder.addFields {fs : List Field} (h : r.InOrder)
    (hadd : Registry.addFields fs r = .ok r') : r'.InOrder := by
  induction fs generalizing r with
  | nil =>
    cases hadd
    exact h
  | cons f rest ih =>
    unfold Registry.addFields at hadd
    split at hadd
    · cases hadd
    · split at hadd
      · cases hadd
      · next hfree =>
        have hnew : List.lookup f.id r.fields.owners = none :=
          Option.not_isSome_iff_eq_none.mp hfree
        refine ih ⟨?_, ?_, ?_⟩ hadd
        · exact h.indexed
        · exact h.tidy.insert hnew
        · exact h.owns.insert f

theorem Started.inOrder (h : r.Started) : r.InOrder := by
  rcases h with rfl | ⟨s, hbuilt⟩
  · exact ⟨ModuleGraph.indexed_empty, FieldTable.tidy_empty, FieldTable.ownsFieldsOnly_empty⟩
  · unfold ofSnapshot at hbuilt
    obtain ⟨catalog, _, hbuilt⟩ := bind_ok hbuilt
    obtain ⟨graph, hgraph, hadd⟩ := bind_ok hbuilt
    refine InOrder.addFields ⟨?_, FieldTable.tidy_empty, FieldTable.ownsFieldsOnly_empty⟩ hadd
    exact foldlM_ok (fun _ _ m _ hg hinsert => hg.insert hinsert) ModuleGraph.indexed_empty hgraph

theorem InOrder.edit (h : r.InOrder) (hperform : e.perform r = .ok r') : r'.InOrder where
  indexed := (Edit.does hperform).indexed h.indexed
  tidy := (Edit.does hperform).tidy h.tidy
  owns := (Edit.does hperform).ownsFieldsOnly h.owns

/-- A registry has nothing of a module. -/
structure Lacks (r : Registry) (module : ModuleId) : Prop where
  hasModule : r.hasModule module = false
  getModule : r.getModule module = .error (.moduleNotFound module)
  unlisted : ∀ m ∈ r.listModules, m.id ≠ module
  relationships : r.relationshipsFrom module = []
  fields : r.listFields module = []
  owners : ∀ id, List.lookup id r.fields.owners ≠ some module

/-- It is enough that the module is not there and that there are no fields of it. -/
theorem InOrder.lacks (h : r.InOrder) (hgone : r.hasModule module = false)
    (hfields : r.listFields module = []) : r.Lacks module where
  hasModule := hgone
  getModule := by
    show r.graph.get module = _
    unfold ModuleGraph.get
    rw [ModuleGraph.slot?_of_not_contains hgone]
  unlisted m hm hid := Bool.eq_false_iff.mp hgone
    ((ModuleGraph.contains_iff h.indexed).mpr ⟨m, hm, hid⟩)
  relationships := by
    show r.graph.relationshipsFrom module = _
    unfold ModuleGraph.relationshipsFrom
    rw [ModuleGraph.slot?_of_not_contains hgone]
    rfl
  fields := hfields
  owners id howner := by
    obtain ⟨f, hf, _⟩ := h.owns id module howner
    rw [show r.fields.list module = [] from hfields] at hf
    cases hf

/-- What an edit does not create stays away. -/
theorem Lacks.edit (h : r.Lacks module) (hr : r.InOrder) (hperform : e.perform r = .ok r')
    (hne : ∀ name now, e ≠ .createModule module name now) : r'.Lacks module := by
  have hdoes := Edit.does hperform
  refine (hr.edit hperform).lacks (hdoes.not_contains hne h.hasModule) ?_
  refine List.eq_nil_iff_forall_not_mem.mpr fun f hf => ?_
  rcases hdoes.mem_list hf with ⟨old, hold, _⟩ | ⟨d, fresh, now, _, rfl, hhome, _⟩
  · rw [show r.fields.list module = [] from h.fields] at hold
    cases hold
  · exact Bool.eq_false_iff.mp h.hasModule hhome

/-- The operation creates a module. -/
def Operation.Creates (o : Operation) (r : Registry) (module : ModuleId) : Prop :=
  ∃ name now created, o = .edit (.createModule module name now) ∧
    r.createModule module name now = .ok created

theorem InOrder.leaves (h : r.InOrder) (o : Operation) : (o.run.leaves r).InOrder := by
  rcases o.leaves_cases h.indexed with hleaves | ⟨e, _, hperform⟩
  · rw [hleaves]
    exact h
  · exact h.edit hperform

theorem Lacks.leaves (h : r.Lacks module) (hr : r.InOrder) {o : Operation}
    (hother : ¬o.Creates r module) : (o.run.leaves r).Lacks module := by
  rcases o.leaves_cases hr.indexed with hleaves | ⟨e, rfl, hperform⟩
  · rw [hleaves]
    exact h
  · refine h.edit hr hperform ?_
    rintro name now rfl
    obtain ⟨created, hcreate, _⟩ := map_ok hperform
    exact hother ⟨name, now, created, rfl, hcreate⟩

/-- Other modules are as they were, with their fields and the relationships that lead from them. -/
structure SameBut (module : ModuleId) (r r' : Registry) : Prop where
  getModule : ∀ other, other ≠ module → r'.getModule other = r.getModule other
  relationships : ∀ other, other ≠ module → r'.relationshipsFrom other = r.relationshipsFrom other
  fields : ∀ other, other ≠ module → r'.listFields other = r.listFields other
  owners : ∀ id, List.lookup id r'.fields.owners =
    (List.lookup id r.fields.owners).filter fun owner => owner ≠ module
  catalog : r'.catalog = r.catalog

theorem InOrder.deleteModule (h : r.InOrder) {m : Module}
    (hdelete : r.deleteModule module = .ok (m, r')) :
    r'.InOrder ∧ r'.Lacks module ∧ SameBut module r r' := by
  have hperform : (Edit.deleteModule module).perform r = .ok r' := by
    rw [Edit.perform, hdelete]
    rfl
  have hafter := h.edit hperform
  obtain ⟨graph, hremove, rfl⟩ := deleteModule_ok hdelete
  have hslot {other : ModuleId} (hne : other ≠ module) : graph.slot? other = r.graph.slot? other :=
    h.indexed.slot?_remove_of_ne hremove hne
  refine ⟨hafter, hafter.lacks ?_ ?_, ?_, ?_, ?_, ?_, rfl⟩
  · exact (ModuleGraph.contains_remove hremove module).trans (if_pos rfl)
  · exact (FieldTable.list_removeOf r.fields module module).trans (if_pos rfl)
  · intro other hne
    show graph.get other = r.graph.get other
    unfold ModuleGraph.get
    rw [hslot hne]
  · intro other hne
    show graph.relationshipsFrom other = r.graph.relationshipsFrom other
    unfold ModuleGraph.relationshipsFrom
    rw [hslot hne]
  · exact fun other hne => (FieldTable.list_removeOf r.fields module other).trans (if_neg hne)
  · exact h.tidy.owners_removeOf h.owns module

/-- A module is there and has nothing. -/
structure Bare (r : Registry) (module : ModuleId) : Prop where
  hasModule : r.hasModule module = true
  relationships : r.relationshipsFrom module = []
  fields : r.listFields module = []
  owners : ∀ id, List.lookup id r.fields.owners ≠ some module

/-- A module that is created has nothing, whatever there was of it before. -/
theorem Lacks.creates (h : r.Lacks module) (hr : r.InOrder) {o : Operation}
    (ho : o.Creates r module) : (o.run.leaves r).Bare module := by
  obtain ⟨name, now, ⟨m, r'⟩, rfl, hcreate⟩ := ho
  have hperform : (Edit.createModule module name now).perform r = .ok r' := by
    rw [Edit.perform, hcreate]
    rfl
  rw [Operation.leaves_of_perform hr.indexed hperform]
  obtain ⟨graph, hgraph, rfl⟩ := createModule_ok hcreate
  refine ⟨?_, ?_, h.fields, h.owners⟩
  · show graph.contains module = true
    rw [ModuleGraph.contains_create hgraph, if_pos rfl]
  · exact hr.indexed.relationshipsFrom_create hgraph

end Registry
end RecordRules
