/-
Names that are given once.

A field is built only under a name that no field of its module has, and its subfields only under
names that are different.  No later edit gives a field another name or other subfields, so names
stay apart.
-/
import RecordRules.Proofs.Registry.Edits
import RecordRules.Proofs.Registry.Parts
import RecordRules.Proofs.Validation.Defaults

namespace RecordRules

/-! ## Fields of a module -/

namespace Field.NamesApart

variable {fields : List Field}

theorem nil : NamesApart [] := ⟨.nil, List.forall_mem_nil _⟩

theorem sublist {kept : List Field} (h : NamesApart fields) (hkept : kept.Sublist fields) :
    NamesApart kept :=
  ⟨h.names.sublist (hkept.map _), fun f hf => h.subnames f (hkept.subset hf)⟩

/-- A change of fields that leaves their names and subfields alone keeps names apart. -/
theorem map {change : Field → Field} (h : NamesApart fields)
    (hname : ∀ f, (change f).name = f.name) (hsubfields : ∀ f, (change f).subfields = f.subfields) :
    NamesApart (fields.map change) := by
  refine ⟨?_, List.forall_mem_map.mpr fun f hf subfields heq => ?_⟩
  · have hnames : (fields.map change).map name = fields.map name := by
      rw [List.map_map]
      exact List.map_congr_left fun f _ => hname f
    exact hnames ▸ h.names
  · rw [hsubfields] at heq
    exact h.subnames f hf subfields heq

theorem concat {f : Field} (h : NamesApart fields) (hname : ∀ g ∈ fields, g.name ≠ f.name)
    (hsubnames : ∀ subfields, f.subfields = some subfields → (subfields.map Subfield.name).Nodup) :
    NamesApart (fields ++ [f]) := by
  refine ⟨?_, List.forall_mem_append.mpr ⟨h.subnames, List.forall_mem_singleton.mpr hsubnames⟩⟩
  rw [List.map_append, List.map_singleton, List.nodup_append]
  refine ⟨h.names, List.pairwise_singleton _ _, ?_⟩
  rintro _ hold _ hnew rfl
  obtain ⟨g, hg, heq⟩ := List.mem_map.mp hold
  exact hname g hg (heq.trans (List.mem_singleton.mp hnew))

end Field.NamesApart

/-! ## New fields -/

namespace FieldTable

variable {t t' : FieldTable} {f : Field} {c : Catalog} {now : Int}

/-- Subfields pass their check if their names are different from each other and from those seen. -/
theorem nodup_of_checkSubfields {field : String} {seen : List String} {subfields : List Subfield}
    (h : checkSubfields c field seen subfields = .ok ()) :
    (subfields.map Subfield.name).Nodup ∧ ∀ s ∈ subfields, s.name ∉ seen := by
  induction subfields generalizing seen with
  | nil => exact ⟨.nil, List.forall_mem_nil _⟩
  | cons s rest ih =>
    unfold checkSubfields at h
    split at h
    · cases h
    · split at h
      · cases h
      · next hseen =>
        split at h
        · cases h
        · cases h
        · obtain ⟨hnodup, hrest⟩ := ih h
          refine ⟨List.nodup_cons.mpr ⟨fun hmem => ?_, hnodup⟩,
            List.forall_mem_cons.mpr ⟨by simpa using hseen, fun s' hs' hmem => ?_⟩⟩
          · obtain ⟨s', hs', heq⟩ := List.mem_map.mp hmem
            exact hrest s' hs' (heq ▸ List.mem_cons_self)
          · exact hrest s' hs' (List.mem_cons_of_mem _ hmem)

/-- A new field has a name of its own, and so has each of its subfields. -/
theorem build_names {d : FieldDraft} {fresh : FieldId} (h : t.build c d fresh now = .ok f) :
    (∀ g ∈ t.list f.module, g.name ≠ f.name) ∧
      ∀ subfields, f.subfields = some subfields → (subfields.map Subfield.name).Nodup := by
  obtain ⟨name, type, _, _, hfree, _, _, hsubfields, rfl⟩ := build_cases h
  refine ⟨by simpa [getByName?] using hfree, fun subfields hsome => ?_⟩
  exact (nodup_of_checkSubfields (hsubfields subfields hsome).2).1

/-! ## The table -/

/-- In each module names are given once. -/
def NamesApart (t : FieldTable) : Prop := ∀ module, Field.NamesApart (t.list module)

theorem NamesApart.insert {d : FieldDraft} {fresh : FieldId} (h : t.NamesApart)
    (hbuild : t.build c d fresh now = .ok f) : (t.insert f).NamesApart := by
  intro module
  rw [list_insert]
  split
  · next hmodule =>
    obtain ⟨hname, hsubnames⟩ := build_names hbuild
    have hmap : Field.NamesApart ((t.list module).map (unlabelled f.isLabel)) :=
      (h module).map (fun g => (unlabelled_sameAs f.isLabel g).name)
        fun g => (unlabelled_sameAs f.isLabel g).subfields
    refine hmap.concat (List.forall_mem_map.mpr fun g hg => ?_) hsubnames
    rw [(unlabelled_sameAs f.isLabel g).name]
    exact hname g (hmodule ▸ hg)
  · exact h module

theorem NamesApart.setLabel {module : ModuleId} {id : FieldId} (h : t.NamesApart)
    (hset : t.setLabel module id now = .ok (f, t')) : t'.NamesApart := by
  intro m
  rw [list_setLabel hset]
  split
  · exact (h m).map (fun g => (relabelled_sameAs id now g).name)
      fun g => (relabelled_sameAs id now g).subfields
  · exact h m

theorem NamesApart.removeOf (h : t.NamesApart) (module : ModuleId) :
    (t.removeOf module).2.NamesApart := by
  intro m
  rw [list_removeOf]
  split
  · exact .nil
  · exact h m

theorem NamesApart.removeTyped (h : t.NamesApart) (type : DataTypeId) :
    (t.removeTyped type).2.NamesApart := by
  intro m
  rw [list_removeTyped]
  exact (h m).sublist List.filter_sublist

end FieldTable

/-! ## Names in a registry -/

theorem Registry.Edit.Does.namesApart {r : Registry} {e : Edit} {catalog : Catalog}
    {graph : ModuleGraph} {fields : FieldTable} (h : e.Does r catalog graph fields)
    (hr : r.fields.NamesApart) : fields.NamesApart := by
  cases h with
  | deleteDataType => exact hr.removeTyped _
  | deleteModule => exact hr.removeOf _
  | createField _ h => exact hr.insert h
  | setLabel h => exact hr.setLabel h
  | deleteFieldsOf => exact hr.removeOf _
  | _ => exact hr

/-- Edits keep names apart, whatever they start from. -/
theorem Registry.Grown.namesApart {r : Registry} {allowed : Edit → Prop}
    (h : r.Grown (fun start => start.fields.NamesApart) allowed) : r.fields.NamesApart := by
  induction h with
  | start h => exact h
  | edit _ e _ hr ih => exact (Edit.does hr).namesApart ih

end RecordRules
