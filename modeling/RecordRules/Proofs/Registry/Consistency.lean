/-
What holds in every registry that operations have made.

The fields of a registry refer to modules and to data types, and to each other by their names, their
identifiers and the label.  Every operation leaves these references as they have to be, whether it
fails or not, as long as the identifiers that are made for new data types are new.
-/
import Mathlib.Data.List.DropRight
import RecordRules.Proofs.Registry.History
import RecordRules.Proofs.Registry.Names

namespace RecordRules

/-! ## Clean names -/

namespace Text

theorem trim_eq_rdropWhile (s : List Char) :
    trim s = (dropBlanks s).rdropWhile isBlankChar :=
  rfl

/-- Nothing is dropped from the start of what has no blank there. -/
theorem dropBlanks_of_prefix {s t : List Char} (h : t <+: dropBlanks s) : dropBlanks t = t := by
  cases t with
  | nil => rfl
  | cons c rest =>
    obtain ⟨more, hmore⟩ := h
    have hnot := List.head?_dropWhile_not isBlankChar s
    unfold dropBlanks at hmore
    rw [← hmore] at hnot
    exact List.dropWhile_cons_of_neg (ne_true_of_eq_false hnot)

theorem trim_trim (s : List Char) : trim (trim s) = trim s := by
  have hprefix : trim s <+: dropBlanks s := List.rdropWhile_prefix isBlankChar (dropBlanks s)
  rw [trim_eq_rdropWhile (trim s), dropBlanks_of_prefix hprefix]
  exact List.rdropWhile_idempotent isBlankChar (dropBlanks s)

theorem trimmed_trimmed (s : String) : trimmed (trimmed s) = trimmed s := by
  unfold trimmed
  rw [String.toList_ofList, trim_trim]

end Text

/-- A name that is neither empty nor longer than allowed, with no blanks around it. -/
structure CleanName (name : String) : Prop where
  trimmed : Text.trimmed name = name
  notEmpty : name ≠ ""
  short : name.length ≤ 100

theorem cleanName_ok {what : Named} {name clean : String} (h : cleanName what name = .ok clean) :
    CleanName clean := by
  unfold cleanName at h
  dsimp only at h
  split_ifs at h with hempty hlong
  cases h
  exact ⟨Text.trimmed_trimmed name, fun heq => hempty (by rw [heq]; rfl), Nat.not_lt.mp hlong⟩

/-! ## Data types that are there -/

namespace Catalog

variable {c c' : Catalog} {t : DataType} {id other : DataTypeId}

theorem get?_filter (types : List DataType) (id other : DataTypeId) :
    get? ⟨types.filter fun u => u.id ≠ other⟩ id =
      if id = other then none else get? ⟨types⟩ id := by
  unfold get?
  split
  · next h =>
    refine List.find?_eq_none.mpr fun u hu => ?_
    simpa [h] using (List.mem_filter.mp hu).2
  · next h =>
    rw [List.find?_filter]
    congr 1
    funext u
    by_cases hu : u.id = id
    · simp [hu, h]
    · simp [hu]

theorem kindOf_create {name kind : String} {now : Int}
    (hcreate : c.create name kind other now = .ok (t, c')) (hne : id ≠ other) :
    c'.kindOf id = c.kindOf id := by
  obtain ⟨rfl, _, _, rfl⟩ := create_ok hcreate
  have hkept := get?_filter c.types id t.id
  rw [if_neg hne] at hkept
  refine congrArg (Option.map (·.kind)) (Eq.trans ?_ hkept)
  exact find?_insertBefore_of_neg (p := fun u : DataType => u.id = id)
    (decide_eq_false hne.symm) _

theorem kindOf_update {change : DataType → DataType} (hupdate : c.update other change = .ok (t, c'))
    (hid : ∀ u, (change u).id = u.id) (hkind : ∀ u, (change u).kind = u.kind) :
    c'.kindOf id = c.kindOf id := by
  obtain rfl := update_ok hupdate
  have hkeep (u : DataType) : (if u.id = other then change u else u).id = u.id ∧
      (if u.id = other then change u else u).kind = u.kind := by
    split
    · exact ⟨hid u, hkind u⟩
    · exact ⟨rfl, rfl⟩
  have hsame : (fun u : DataType => decide (u.id = id)) ∘
      (fun u => if u.id = other then change u else u) = fun u => decide (u.id = id) :=
    funext fun u => by rw [Function.comp_apply, (hkeep u).1]
  unfold kindOf get?
  rw [List.find?_map, hsame, Option.map_map]
  exact congrArg (Option.map · _) (funext fun u => (hkeep u).2)

theorem kindOf_remove (hremove : c.remove other = .ok c') (id : DataTypeId) :
    c'.kindOf id = if id = other then none else c.kindOf id := by
  obtain rfl := remove_ok hremove
  unfold kindOf
  rw [get?_filter]
  split <;> rfl

end Catalog

namespace Registry

variable {r r' : Registry} {past : List Registry} {e : Edit} {catalog : Catalog}
  {graph : ModuleGraph} {fields : FieldTable}

/-- An edit leaves the kind of a data type as it is, or it creates the data type or deletes it. -/
theorem Edit.Does.kindOf (h : e.Does r catalog graph fields) (id : DataTypeId) :
    catalog.kindOf id = r.kindOf id ∨ (∃ name kind now, e = .createDataType name kind id now) ∨
      e = .deleteDataType id ∧ catalog.kindOf id = none := by
  cases h with
  | @createDataType name kind fresh now t catalog hcreate =>
    by_cases hid : id = fresh
    · exact Or.inr (Or.inl ⟨name, kind, now, hid ▸ rfl⟩)
    · exact Or.inl (Catalog.kindOf_create hcreate hid)
  | renameDataType hupdate =>
    exact Or.inl (Catalog.kindOf_update hupdate (fun _ => rfl) fun _ => rfl)
  | setDataTypeActive hupdate =>
    exact Or.inl (Catalog.kindOf_update hupdate (fun _ => rfl) fun _ => rfl)
  | @deleteDataType other catalog hremove =>
    have hkind := Catalog.kindOf_remove hremove id
    split at hkind
    · next hid => exact Or.inr (Or.inr ⟨hid ▸ rfl, hkind⟩)
    · exact Or.inl hkind
  | _ => exact Or.inl rfl

/-- An edit leaves a module there unless it deletes the module. -/
theorem Edit.Does.contains (h : e.Does r catalog graph fields) {module : ModuleId}
    (hne : e ≠ .deleteModule module) (hthere : r.graph.contains module = true) :
    graph.contains module = true := by
  cases h with
  | createModule hcreate => rw [ModuleGraph.contains_create hcreate, hthere, ite_self]
  | renameModule hrename => exact (ModuleGraph.contains_rename hrename module).trans hthere
  | setRelationships hset => exact (ModuleGraph.contains_setRelationships hset module).trans hthere
  | @deleteModule id m graph hremove =>
    have hother : module ≠ id := by
      rintro rfl
      exact hne rfl
    rw [ModuleGraph.contains_remove hremove, if_neg hother]
    exact hthere
  | _ => exact hthere

/-- An edit does not bring in a module unless it creates the module. -/
theorem Edit.Does.not_contains (h : e.Does r catalog graph fields) {module : ModuleId}
    (hne : ∀ name now, e ≠ .createModule module name now)
    (hgone : r.graph.contains module = false) : graph.contains module = false := by
  cases h with
  | @createModule id name now m graph hcreate =>
    have hother : module ≠ id := by
      rintro rfl
      exact hne name now rfl
    rw [ModuleGraph.contains_create hcreate, if_neg hother]
    exact hgone
  | renameModule hrename => exact (ModuleGraph.contains_rename hrename module).trans hgone
  | setRelationships hset => exact (ModuleGraph.contains_setRelationships hset module).trans hgone
  | deleteModule hremove => rw [ModuleGraph.contains_remove hremove, hgone, ite_self]
  | _ => exact hgone

/-- Where the fields come from that there are after an edit: from a draft, or they were there and
the edit has deleted neither their module nor their data type. -/
theorem Edit.Does.mem_list (h : e.Does r catalog graph fields) {module : ModuleId} {f : Field}
    (hf : f ∈ fields.list module) :
    (∃ old ∈ r.fields.list module, f.SameAs old ∧ e ≠ .deleteModule module ∧
      e ≠ .deleteDataType f.dataType) ∨
    ∃ d fresh now, e = .createField d fresh now ∧ module = d.module ∧
      r.graph.contains d.module = true ∧ r.fields.build r.catalog d fresh now = .ok f := by
  cases h with
  | @deleteDataType type catalog hremove =>
    rw [FieldTable.list_removeTyped] at hf
    obtain ⟨hf, htype⟩ := List.mem_filter.mp hf
    refine Or.inl ⟨f, hf, .refl f, nofun, fun heq => ?_⟩
    cases heq
    simp at htype
  | @deleteModule other m graph hremove =>
    rw [FieldTable.list_removeOf] at hf
    split at hf
    · cases hf
    · next hne =>
      refine Or.inl ⟨f, hf, .refl f, fun heq => ?_, nofun⟩
      cases heq
      exact hne rfl
  | @createField d fresh now g hhome hbuild =>
    rcases FieldTable.mem_list_insert hf with ⟨hmodule, rfl⟩ | ⟨old, hold, hsame, _⟩
    · have hd := (FieldTable.build_ok hbuild).2.1
      exact Or.inr ⟨d, fresh, now, rfl, hmodule.trans hd, hhome, hbuild⟩
    · exact Or.inl ⟨old, hold, hsame, nofun, nofun⟩
  | setLabel hset =>
    obtain ⟨old, hold, hsame, _⟩ := FieldTable.mem_list_setLabel hset hf
    exact Or.inl ⟨old, hold, hsame, nofun, nofun⟩
  | deleteFieldsOf =>
    exact Or.inl ⟨f, (FieldTable.list_removeOf_sublist ..).subset hf, .refl f, nofun, nofun⟩
  | _ => exact Or.inl ⟨f, hf, .refl f, nofun, nofun⟩

theorem Edit.Does.tidy (h : e.Does r catalog graph fields) (hr : r.fields.Tidy) : fields.Tidy := by
  cases h with
  | deleteDataType => exact hr.removeTyped _
  | deleteModule => exact hr.removeOf _
  | createField _ hbuild => exact hr.insert (FieldTable.build_ok hbuild).1
  | setLabel hset => exact hr.setLabel hset
  | deleteFieldsOf => exact hr.removeOf _
  | _ => exact hr

end Registry

/-! ## Owners of fields -/

namespace FieldTable

variable {t t' : FieldTable} {f : Field}

/-- The table knows no owner of a field that is not there. -/
def OwnsFieldsOnly (t : FieldTable) : Prop :=
  ∀ id module, List.lookup id t.owners = some module → ∃ f ∈ t.list module, f.id = id

theorem ownsFieldsOnly_empty : empty.OwnsFieldsOnly := nofun

theorem OwnsFieldsOnly.insert (h : t.OwnsFieldsOnly) (f : Field) : (t.insert f).OwnsFieldsOnly := by
  intro id module howner
  change List.lookup id (Assoc.put f.id f.module t.owners) = some module at howner
  rw [Assoc.lookup_put] at howner
  rw [list_insert]
  split at howner
  · next hid =>
    cases howner
    rw [if_pos rfl]
    exact ⟨f, List.mem_append_right _ (List.mem_singleton_self f), hid.symm⟩
  · obtain ⟨old, hold, hid⟩ := h id module howner
    split
    · refine ⟨unlabelled f.isLabel old, List.mem_append_left _ (List.mem_map_of_mem hold), ?_⟩
      exact (unlabelled_sameAs f.isLabel old).id.trans hid
    · exact ⟨old, hold, hid⟩

theorem OwnsFieldsOnly.setLabel {module : ModuleId} {chosen : FieldId} {now : Int}
    (h : t.OwnsFieldsOnly) (hset : t.setLabel module chosen now = .ok (f, t')) :
    t'.OwnsFieldsOnly := by
  intro id m howner
  rw [(setLabel_ok hset).1] at howner
  obtain ⟨old, hold, hid⟩ := h id m howner
  rw [list_setLabel hset]
  split
  · exact ⟨relabelled chosen now old, List.mem_map_of_mem hold, (relabelled_id ..).trans hid⟩
  · exact ⟨old, hold, hid⟩

/-- An owner that is left owned a field before, and not one of those that are removed. -/
theorem lookup_of_lookup_disown {removed : List Field} {owners : Assoc FieldId ModuleId}
    {id : FieldId} {module : ModuleId} (h : List.lookup id (disown removed owners) = some module) :
    List.lookup id owners = some module ∧ ∀ f ∈ removed, f.id ≠ id := by
  unfold disown at h
  induction removed generalizing owners with
  | nil => exact ⟨h, List.forall_mem_nil _⟩
  | cons f rest ih =>
    obtain ⟨howner, hrest⟩ := ih h
    rw [Assoc.lookup_erase] at howner
    split at howner
    · cases howner
    · next hne => exact ⟨howner, List.forall_mem_cons.mpr ⟨Ne.symm hne, hrest⟩⟩

theorem OwnsFieldsOnly.removeOf (h : t.OwnsFieldsOnly) (module : ModuleId) :
    (t.removeOf module).2.OwnsFieldsOnly := by
  intro id m howner
  obtain ⟨howner, hgone⟩ := lookup_of_lookup_disown howner
  obtain ⟨f, hf, hid⟩ := h id m howner
  rw [list_removeOf]
  split
  · next hm => exact absurd hid (hgone f (hm ▸ hf))
  · exact ⟨f, hf, hid⟩

theorem OwnsFieldsOnly.removeTyped (h : t.OwnsFieldsOnly) (type : DataTypeId) :
    (t.removeTyped type).2.OwnsFieldsOnly := by
  intro id m howner
  obtain ⟨howner, hgone⟩ := lookup_of_lookup_disown howner
  obtain ⟨f, hf, hid⟩ := h id m howner
  refine ⟨f, ?_, hid⟩
  rw [list_removeTyped]
  refine List.mem_filter.mpr ⟨hf, decide_eq_true fun htype => hgone f ?_ hid⟩
  -- the field is in the entry of its module, from which those of the data type are removed
  unfold list Assoc.get? at hf
  cases hentry : List.lookup m t.byModule with
  | none =>
    rw [hentry] at hf
    cases hf
  | some fields =>
    rw [hentry] at hf
    exact List.mem_flatMap.mpr ⟨(m, fields), Assoc.mem_of_lookup hentry,
      List.mem_filter.mpr ⟨hf, decide_eq_true htype⟩⟩

/-! ## Subfields -/

theorem of_checkSubfields {c : Catalog} {field : String} {seen : List String}
    {subfields : List Subfield} (h : checkSubfields c field seen subfields = .ok ()) :
    ∀ s ∈ subfields, Text.isBlank s.name = false ∧
      ∃ kind, c.kindOf s.dataType = some kind ∧ kind ≠ .array := by
  induction subfields generalizing seen with
  | nil => exact List.forall_mem_nil _
  | cons s rest ih =>
    unfold checkSubfields at h
    split at h
    · cases h
    · next hblank =>
      split at h
      · cases h
      · split at h
        · cases h
        · cases h
        · next kind hkind hother =>
          exact List.forall_mem_cons.mpr
            ⟨⟨by simpa using hblank, kind, hother, fun heq => hkind (heq ▸ rfl)⟩, ih h⟩

end FieldTable

namespace Registry

variable {r r' : Registry} {past : List Registry} {e : Edit} {catalog : Catalog}
  {graph : ModuleGraph} {fields : FieldTable}

theorem Edit.Does.ownsFieldsOnly (h : e.Does r catalog graph fields)
    (hr : r.fields.OwnsFieldsOnly) : fields.OwnsFieldsOnly := by
  cases h with
  | deleteDataType => exact hr.removeTyped _
  | deleteModule => exact hr.removeOf _
  | createField => exact hr.insert _
  | setLabel hset => exact hr.setLabel hset
  | deleteFieldsOf => exact hr.removeOf _
  | _ => exact hr

/-! ## What holds of a field -/

/-- What holds of a stored field, given the registries that there have been. -/
structure Sound (past : List Registry) (r : Registry) (f : Field) : Prop where
  name : CleanName f.name
  kind : (r.kindOf f.dataType).isSome = true
  array : ∀ subfields, f.subfields = some subfields → r.kindOf f.dataType = some .array
  subfields : ∀ subfields, f.subfields = some subfields → ∀ s ∈ subfields,
    Text.isBlank s.name = false ∧
      ∃ a ∈ past, ∃ kind, a.kindOf s.dataType = some kind ∧ kind ≠ .array

variable {f g : Field}

theorem Sound.mono {later : List Registry} (h : Sound past r f) (hpast : ∀ a ∈ past, a ∈ later) :
    Sound later r f where
  name := h.name
  kind := h.kind
  array := h.array
  subfields subfields hf s hs := by
    obtain ⟨hname, a, ha, hkind⟩ := h.subfields subfields hf s hs
    exact ⟨hname, a, hpast a ha, hkind⟩

/-- A field stays sound as long as its data type keeps its kind. -/
theorem Sound.sameAs (h : Sound past r f) (hsame : g.SameAs f)
    (hkind : ∀ kind, r.kindOf f.dataType = some kind → r'.kindOf f.dataType = some kind) :
    Sound past r' g where
  name := hsame.name ▸ h.name
  kind := by
    obtain ⟨kind, hsome⟩ := Option.isSome_iff_exists.mp h.kind
    rw [hsame.dataType, hkind kind hsome]
    rfl
  array subfields hg := by
    rw [hsame.dataType]
    exact hkind .array (h.array subfields (hsame.subfields ▸ hg))
  subfields subfields hg := h.subfields subfields (hsame.subfields ▸ hg)

theorem sound_of_build {d : FieldDraft} {fresh : FieldId} {now : Int}
    (hbuild : r.fields.build r.catalog d fresh now = .ok f) (hr : r ∈ past) : Sound past r f := by
  obtain ⟨name, type, hname, _, _, htype, _, hsubfields, rfl⟩ := FieldTable.build_cases hbuild
  have hkind : r.kindOf d.dataType = some type.kind := by
    rw [Registry.kindOf, Catalog.kindOf, htype]
    rfl
  refine ⟨cleanName_ok hname, ?_, fun subfields hf => ?_, fun subfields hf s hs => ?_⟩
  · rw [hkind]
    rfl
  · rw [hkind, (hsubfields subfields hf).1]
  · obtain ⟨hblank, kind, hsub⟩ := FieldTable.of_checkSubfields (hsubfields subfields hf).2 s hs
    exact ⟨hblank, r, hr, kind, hsub⟩

/-! ## What holds of a registry -/

/-- An operation makes no data type under an identifier that one has or had. -/
def Operation.IsFresh (past : List Registry) : Operation → Prop
  | .edit (.createDataType _ _ fresh _) => ∀ r ∈ past, r.kindOf fresh = none
  | _ => True

/-- In whichever registries a data type is, it is of the same kind. -/
def KindsAgree (past : List Registry) : Prop :=
  ∀ a ∈ past, ∀ b ∈ past, ∀ id kind kind', a.kindOf id = some kind → b.kindOf id = some kind' →
    kind = kind'

/-- What holds of the fields of a registry, given the registries that there have been. -/
structure Keeps (past : List Registry) (r : Registry) : Prop where
  tidy : r.fields.Tidy
  namesApart : r.fields.NamesApart
  owns : r.fields.OwnsFieldsOnly
  home : ∀ module, ∀ f ∈ r.fields.list module, r.graph.contains module = true
  sound : ∀ module, ∀ f ∈ r.fields.list module, Sound past r f

theorem keeps_empty (past : List Registry) : Keeps past .empty where
  tidy := FieldTable.tidy_empty
  namesApart _ := .nil
  owns := FieldTable.ownsFieldsOnly_empty
  home _ := List.forall_mem_nil _
  sound _ := List.forall_mem_nil _

theorem Keeps.mono {later : List Registry} (h : Keeps past r) (hpast : ∀ a ∈ past, a ∈ later) :
    Keeps later r :=
  ⟨h.tidy, h.namesApart, h.owns, h.home, fun m f hf => (h.sound m f hf).mono hpast⟩

theorem Keeps.edit (h : Keeps past r) (hr : r ∈ past) (hfresh : (Operation.edit e).IsFresh past)
    (hperform : e.perform r = .ok r') : Keeps past r' := by
  have hdoes := Edit.does hperform
  refine ⟨hdoes.tidy h.tidy, hdoes.namesApart h.namesApart, hdoes.ownsFieldsOnly h.owns,
    fun m f hf => ?_, fun m f hf => ?_⟩
  · rcases hdoes.mem_list hf with ⟨old, hold, _, hne, _⟩ | ⟨d, fresh, now, rfl, rfl, hhome, _⟩
    · exact hdoes.contains hne (h.home m old hold)
    · exact hdoes.contains nofun hhome
  · rcases hdoes.mem_list hf with ⟨old, hold, hsame, _, hne⟩ | ⟨d, fresh, now, rfl, rfl, _, hbuild⟩
    · refine (h.sound m old hold).sameAs hsame fun kind hkind => ?_
      rcases hdoes.kindOf old.dataType with hkept | ⟨name, kind', now, rfl⟩ | ⟨rfl, _⟩
      · exact hkept.trans hkind
      · rw [hfresh r hr] at hkind
        cases hkind
      · exact absurd (hsame.dataType ▸ rfl) hne
    · refine (sound_of_build hbuild hr).sameAs (.refl f) fun kind hkind => ?_
      rcases hdoes.kindOf f.dataType with hkept | ⟨_, _, _, hother⟩ | ⟨hother, _⟩
      · exact hkept.trans hkind
      · cases hother
      · cases hother

theorem KindsAgree.edit (h : KindsAgree past) (hr : r ∈ past)
    (hfresh : (Operation.edit e).IsFresh past) (hperform : e.perform r = .ok r') :
    KindsAgree (r' :: past) := by
  -- what is of some kind after the edit was so before it, or there is no other registry with it
  have hnew : ∀ a ∈ past, ∀ id kind kind', a.kindOf id = some kind → r'.kindOf id = some kind' →
      kind = kind' := by
    intro a ha id kind kind' hkind hkind'
    rcases (Edit.does hperform).kindOf id with hkept | ⟨_, _, _, rfl⟩ | ⟨_, hnone⟩
    · exact h a ha r hr id kind kind' hkind (hkept.symm.trans hkind')
    · rw [hfresh a ha] at hkind
      cases hkind
    · cases hnone.symm.trans hkind'
  intro a ha b hb id kind kind' hkind hkind'
  rcases List.mem_cons.mp ha with rfl | holda
  · rcases List.mem_cons.mp hb with rfl | holdb
    · exact Option.some.inj (hkind.symm.trans hkind')
    · exact (hnew b holdb id kind' kind hkind' hkind).symm
  · rcases List.mem_cons.mp hb with rfl | holdb
    · exact hnew a holda id kind kind' hkind hkind'
    · exact h a holda b holdb id kind kind' hkind hkind'

theorem History.keeps (h : History (· = .empty) Operation.IsFresh past) :
    KindsAgree past ∧ ∀ r ∈ past, Keeps past r := by
  induction h with
  | start h =>
    subst h
    refine ⟨fun a ha b hb id kind kind' hkind hkind' => ?_, fun r hr => ?_⟩
    · cases List.mem_singleton.mp ha
      cases hkind
    · cases List.mem_singleton.mp hr
      exact keeps_empty _
  | @next r past h o hfresh ih =>
    obtain ⟨hagree, hkeeps⟩ := ih
    have hindexed := h.indexed (fun _ hempty => hempty ▸ ModuleGraph.indexed_empty) r
      List.mem_cons_self
    have hlater (next : Registry) : ∀ a ∈ r :: past, a ∈ next :: r :: past :=
      fun a => List.mem_cons_of_mem _
    rcases o.leaves_cases hindexed with hleaves | ⟨e, rfl, hperform⟩
    · rw [hleaves]
      have hold : ∀ a ∈ r :: r :: past, a ∈ r :: past :=
        List.forall_mem_cons.mpr ⟨List.mem_cons_self, fun a ha => ha⟩
      exact ⟨fun a ha b hb => hagree a (hold a ha) b (hold b hb),
        fun a ha => (hkeeps a (hold a ha)).mono (hlater r)⟩
    · refine ⟨hagree.edit List.mem_cons_self hfresh hperform, List.forall_mem_cons.mpr ⟨?_, ?_⟩⟩
      · exact ((hkeeps r List.mem_cons_self).edit List.mem_cons_self hfresh hperform).mono
          (hlater _)
      · exact fun a ha => (hkeeps a ha).mono (hlater _)

/-- What fields refer to is there, and what has to be different is so. -/
structure Consistent (r : Registry) : Prop where
  /-- The fields of a module are those that are stored for it. -/
  stored : ∀ entry ∈ r.fields.byModule, r.listFields entry.1 = entry.2
  home : ∀ module, ∀ f ∈ r.listFields module, f.module = module ∧ r.hasModule module = true
  dataType : ∀ module, ∀ f ∈ r.listFields module, ∃ t, r.getDataType f.dataType = .ok t
  ids : (r.fields.byModule.flatMap fun entry => entry.2.map (·.id)).Nodup
  owners : ∀ id module, List.lookup id r.fields.owners = some module ↔
    ∃ f ∈ r.listFields module, f.id = id
  clean : ∀ module, ∀ f ∈ r.listFields module, CleanName f.name
  names : ∀ module, ((r.listFields module).map (·.name)).Nodup
  label : ∀ module, ((r.listFields module).filter (·.isLabel)).length ≤ 1
  array : ∀ module, ∀ f ∈ r.listFields module, ∀ subfields, f.subfields = some subfields →
    r.kindOf f.dataType = some .array
  subnames : ∀ module, ∀ f ∈ r.listFields module, ∀ subfields, f.subfields = some subfields →
    (subfields.map (·.name)).Nodup ∧ ∀ s ∈ subfields, Text.isBlank s.name = false
  subkinds : ∀ module, ∀ f ∈ r.listFields module, ∀ subfields, f.subfields = some subfields →
    ∀ s ∈ subfields, r.kindOf s.dataType ≠ some .array

end Registry

theorem FieldTable.Tidy.list_eq {t : FieldTable} (h : t.Tidy) {entry : ModuleId × List Field}
    (hentry : entry ∈ t.byModule) : t.list entry.1 = entry.2 := by
  unfold list Assoc.get?
  rw [Assoc.lookup_of_mem h.keys hentry]
  rfl

/-- Fields of different modules have different identifiers, and so have those of one module. -/
theorem FieldTable.Tidy.nodup_ids {t : FieldTable} (h : t.Tidy) :
    (t.byModule.flatMap fun entry => entry.2.map (·.id)).Nodup := by
  refine List.nodup_flatMap.mpr ⟨fun entry hentry => h.list_eq hentry ▸ h.unique entry.1, ?_⟩
  refine (List.pairwise_map.mp h.keys).imp_of_mem fun {a b} ha hb hne id hida hidb => ?_
  obtain ⟨f, hf, rfl⟩ := List.mem_map.mp hida
  obtain ⟨g, hg, hid⟩ := List.mem_map.mp hidb
  have howner := h.owned a.1 f (h.list_eq ha ▸ hf)
  rw [← hid, h.owned b.1 g (h.list_eq hb ▸ hg)] at howner
  exact hne (Option.some.inj howner).symm

theorem FieldTable.Tidy.length_label_le {t : FieldTable} (h : t.Tidy) (module : ModuleId) :
    ((t.list module).filter (·.isLabel)).length ≤ 1 := by
  have hlabel {f : Field} (hf : f ∈ (t.list module).filter (·.isLabel)) :
      f ∈ t.list module ∧ f.isLabel = true :=
    List.mem_filter.mp hf
  have hnodup : (((t.list module).filter (·.isLabel)).map (·.id)).Nodup :=
    (h.unique module).sublist (List.filter_sublist.map _)
  generalize (t.list module).filter (·.isLabel) = labels at hlabel hnodup
  match labels with
  | [] => exact Nat.zero_le 1
  | [f] => exact Nat.le_refl 1
  | f :: g :: rest =>
    obtain ⟨hf, hflabel⟩ := hlabel (f := f) List.mem_cons_self
    obtain ⟨hg, hglabel⟩ := hlabel (f := g) (List.mem_cons_of_mem _ List.mem_cons_self)
    have hid := h.label module f hf g hg hflabel hglabel
    rw [List.map_cons, List.map_cons, hid] at hnodup
    exact absurd List.mem_cons_self (List.nodup_cons.mp hnodup).1

open Registry

theorem Registry.Keeps.consistent {past : List Registry} {r : Registry} (h : Keeps past r)
    (hr : r ∈ past) (hagree : KindsAgree past) : r.Consistent where
  stored entry hentry := h.tidy.list_eq hentry
  home module f hf := ⟨h.tidy.home module f hf, h.home module f hf⟩
  dataType module f hf := by
    obtain ⟨kind, hkind⟩ := Option.isSome_iff_exists.mp (h.sound module f hf).kind
    obtain ⟨t, ht, _⟩ := Option.map_eq_some_iff.mp hkind
    refine ⟨t, ?_⟩
    rw [Registry.getDataType, Catalog.get, ht]
  ids := h.tidy.nodup_ids
  owners id module := by
    refine ⟨h.owns id module, ?_⟩
    rintro ⟨f, hf, rfl⟩
    exact h.tidy.owned module f hf
  clean module f hf := (h.sound module f hf).name
  names module := (h.namesApart module).names
  label module := h.tidy.length_label_le module
  array module f hf := (h.sound module f hf).array
  subnames module f hf subfields hsub :=
    ⟨(h.namesApart module).subnames f hf subfields hsub,
      fun s hs => ((h.sound module f hf).subfields subfields hsub s hs).1⟩
  subkinds module f hf subfields hsub s hs harray := by
    obtain ⟨_, a, ha, kind, hkind, hother⟩ := (h.sound module f hf).subfields subfields hsub s hs
    exact hother (hagree a ha r hr s.dataType kind .array hkind harray)

/-- Whatever operations are done on the empty registry, and whether they fail or not, every registry
of the history is consistent, and no data type is of one kind in one of them and of another kind in
another one, if the identifiers that are made for new data types are new. -/
theorem registries_are_consistent {past : List Registry}
    (h : History (· = .empty) Operation.IsFresh past) :
    (∀ r ∈ past, r.Consistent) ∧ KindsAgree past := by
  obtain ⟨hagree, hkeeps⟩ := h.keeps
  exact ⟨fun r hr => (hkeeps r hr).consistent hr hagree, hagree⟩

namespace Sample

def lists : DataTypeId := ⟨"lists", by decide +kernel⟩

/-- Goods come in lines, each of which has a note. -/
def lined : FieldDraft :=
  { FieldDraft.ofName goods " lines " lists with subfields := some [.ofName "note" label] }

end Sample

open Sample in
/-- The data type of the notes is deleted, and with it a field, but not the lines. -/
theorem registries_are_consistent_on_sample :
    ∃ past, History (· = .empty) Operation.IsFresh past ∧
      past.map (fun r => (r.listFields goods).map (·.name)) =
        [["lines"], ["lines", "title"], ["lines"], [], [], [], []] ∧
      ∀ r ∈ past, r.Consistent := by
  have hempty : History (· = .empty) Operation.IsFresh [.empty] := .start rfl
  have hlabel := hempty.next (.edit (.createDataType "Label" "string" label 1))
    (List.forall_mem_singleton.mpr rfl)
  have hlines := hlabel.next (.edit (.createDataType "Lines" "array" lists 2))
    (List.forall_mem_cons.mpr ⟨rfl, List.forall_mem_singleton.mpr rfl⟩)
  have hgoods := hlines.next (.edit (.createModule goods "Goods" 3)) trivial
  have hlined := hgoods.next (.edit (.createField lined note 4)) trivial
  have htitle := hlined.next (.edit (.createField (drafted "title" true) title 5)) trivial
  have hdeleted := htitle.next (.edit (.deleteDataType label)) trivial
  exact ⟨_, hdeleted, rfl, (registries_are_consistent hdeleted).1⟩

end RecordRules
