/-
Registries that are built again from their snapshots.

A registry that edits have made from read documents is well kept, and a well-kept registry can be
built again from its snapshot: taking in the entries one by one in their order meets no duplicate
and moves nothing.  What is built answers every question as the registry does.
-/
import RecordRules.Proofs.Registry.Edits
import RecordRules.Proofs.Registry.Parts

namespace RecordRules

open Json

/-! ## Well-kept registries -/

namespace Registry

/-- All parts of the registry are well kept, and every field is of a module that is there. -/
structure WellKept (r : Registry) : Prop where
  catalog : r.catalog.WellKept
  graph : r.graph.WellKept
  fields : r.fields.WellKept
  home : ∀ module, ∀ f ∈ r.fields.list module, r.graph.contains module = true

theorem wellKept_empty : empty.WellKept where
  catalog := Catalog.wellKept_empty
  graph := ModuleGraph.wellKept_empty
  fields := FieldTable.wellKept_empty
  home _ := List.forall_mem_nil _

/-- The documents that come with an edit were read, and its time is a machine word. -/
def Edit.IsRead : Edit → Prop
  | createDataType _ _ _ now | renameDataType _ _ now | setDataTypeActive _ _ now
  | createModule _ _ now | renameModule _ _ now | setLabel _ _ now => Word now
  | setRelationships _ relationships now =>
    Word now ∧ ∀ r ∈ relationships, ∃ tree, Relationship.ofJson? tree = some r
  | createField draft _ now => Word now ∧ ∃ tree, FieldDraft.ofJson? tree = some draft
  | deleteDataType _ | deleteModule _ | deleteFieldsOf _ => True

/-- An edit keeps a registry well kept. -/
theorem WellKept.edit {r r' : Registry} (h : r.WellKept) {e : Edit} (he : e.IsRead)
    (hr : e.perform r = .ok r') : r'.WellKept := by
  have hdoes := Edit.does hr
  obtain ⟨catalog, graph, fields, generation⟩ := r'
  dsimp only at hdoes
  cases hdoes with
  | createDataType hcreate => exact ⟨h.catalog.create he hcreate, h.graph, h.fields, h.home⟩
  | renameDataType hupdate =>
    refine ⟨h.catalog.update ?_ ?_ ?_ hupdate, h.graph, h.fields, h.home⟩
    · exact fun _ => rfl
    · exact fun _ => rfl
    · exact fun _ hu => ⟨hu.1, he⟩
  | setDataTypeActive hupdate =>
    refine ⟨h.catalog.update ?_ ?_ ?_ hupdate, h.graph, h.fields, h.home⟩
    · exact fun _ => rfl
    · exact fun _ => rfl
    · exact fun _ hu => ⟨hu.1, he⟩
  | deleteDataType hremove =>
    refine ⟨h.catalog.remove hremove, h.graph, h.fields.removeTyped _, fun m f hf => ?_⟩
    rw [FieldTable.list_removeTyped] at hf
    exact h.home m f (List.mem_of_mem_filter hf)
  | createModule hcreate =>
    refine ⟨h.catalog, h.graph.create he hcreate, h.fields, fun m f hf => ?_⟩
    rw [ModuleGraph.contains_create hcreate, h.home m f hf, ite_self]
  | renameModule hrename =>
    refine ⟨h.catalog, h.graph.rename he hrename, h.fields, fun m f hf => ?_⟩
    rw [ModuleGraph.contains_rename hrename]
    exact h.home m f hf
  | setRelationships hset =>
    refine ⟨h.catalog, h.graph.setRelationships he.1 (fun r hr => ?_) hset, h.fields,
      fun m f hf => ?_⟩
    · obtain ⟨tree, hread⟩ := he.2 r hr
      exact Relationship.reread hread
    · rw [ModuleGraph.contains_setRelationships hset]
      exact h.home m f hf
  | deleteModule hremove =>
    refine ⟨h.catalog, h.graph.remove hremove, h.fields.removeOf _, fun m f hf => ?_⟩
    rw [FieldTable.list_removeOf] at hf
    split at hf
    · cases hf
    · next hne =>
      rw [ModuleGraph.contains_remove hremove, if_neg hne]
      exact h.home m f hf
  | createField hhome hbuild =>
    obtain ⟨hnew, hmodule, hsubfields, hcreated, hupdated⟩ := FieldTable.build_ok hbuild
    obtain ⟨hnow, tree, hread⟩ := he
    refine ⟨h.catalog, h.graph, h.fields.insert hnew ⟨?_, hcreated ▸ hnow, hupdated ▸ hnow⟩,
      fun m f hf => ?_⟩
    · rw [hsubfields]
      exact FieldDraft.of_ofJson? hread
    · rcases FieldTable.mem_list_insert hf with ⟨hm, rfl⟩ | ⟨old, hold, _⟩
      · rw [hm, hmodule]
        exact hhome
      · exact h.home m old hold
  | setLabel hset =>
    obtain ⟨hfields, hwas⟩ := h.fields.setLabel he hset
    refine ⟨h.catalog, h.graph, hfields, fun m f hf => ?_⟩
    obtain ⟨old, hold, _⟩ := hwas m f hf
    exact h.home m old hold
  | deleteFieldsOf =>
    refine ⟨h.catalog, h.graph, h.fields.removeOf _, fun m f hf => ?_⟩
    rw [FieldTable.list_removeOf] at hf
    split at hf
    · cases hf
    · exact h.home m f hf

/-! ## Taking in a snapshot -/

theorem WellKept.addFields {fs : List Field} {r r' : Registry} (h : r.WellKept)
    (hfs : ∀ f ∈ fs, f.Legible) (hadd : Registry.addFields fs r = .ok r') : r'.WellKept := by
  induction fs generalizing r with
  | nil =>
    cases hadd
    exact h
  | cons f rest ih =>
    obtain ⟨hf, hrest⟩ := List.forall_mem_cons.mp hfs
    unfold Registry.addFields at hadd
    split_ifs at hadd with hmodule howned
    refine ih ?_ hrest hadd
    refine ⟨h.catalog, h.graph, h.fields.insert (Option.not_isSome_iff_eq_none.mp howned) hf,
      fun m g hg => ?_⟩
    rcases FieldTable.mem_list_insert hg with ⟨hm, rfl⟩ | ⟨old, hold, _⟩
    · rw [hm]
      simpa using hmodule
    · exact h.home m old hold

theorem wellKept_ofSnapshot {s : Snapshot} {r : Registry} (hs : s.Legible)
    (h : ofSnapshot s = .ok r) : r.WellKept := by
  unfold ofSnapshot at h
  obtain ⟨catalog, hcatalog, h⟩ := bind_ok h
  obtain ⟨graph, hgraph, h⟩ := bind_ok h
  refine WellKept.addFields ⟨?_, ?_, FieldTable.wellKept_empty, fun _ => List.forall_mem_nil _⟩
    hs.fields h
  · exact foldlM_ok (fun _ _ t ht hc hinsert => hc.insert (hs.dataTypes t ht) hinsert)
      Catalog.wellKept_empty hcatalog
  · exact foldlM_ok (fun _ _ m hm hg hinsert => hg.insert (hs.modules m hm) hinsert)
      ModuleGraph.wellKept_empty hgraph

/-! ## Building a part again -/

end Registry

namespace Catalog

/-- Data types that stand in order are taken in one after the other. -/
theorem foldlM_insert {types : List DataType} {c : Catalog}
    (h : WellKept ⟨c.types ++ types⟩) : types.foldlM insert c = .ok ⟨c.types ++ types⟩ := by
  induction types generalizing c with
  | nil => rw [List.append_nil]; rfl
  | cons t rest ih =>
    obtain ⟨_, _, hapart⟩ := List.pairwise_append.mp h.ordered
    have hbefore (u : DataType) (hu : u ∈ c.types) : u.before t = true :=
      hapart u hu t List.mem_cons_self
    have hnew : c.get? t.id = none := by
      refine get?_eq_none_iff.mpr fun u hu hid => ?_
      have heq := h.unique u (List.mem_append_left _ hu) t
        (List.mem_append_right _ List.mem_cons_self) hid
      have hself := hbefore u hu
      rw [heq] at hself
      rw [DataType.not_before_of_before hself] at hself
      cases hself
    have hinsert : c.insert t = .ok ⟨c.types ++ [t]⟩ := by
      rw [insert, hnew, add, insertBefore_eq_append fun u hu =>
        DataType.not_before_of_before (hbefore u hu)]
      rfl
    have hrest := ih (c := ⟨c.types ++ [t]⟩) (by simpa using h)
    rw [List.append_assoc] at hrest
    rw [List.foldlM_cons, hinsert]
    exact hrest

end Catalog

namespace ModuleGraph

/-- Modules of different identifiers are taken in one after the other. -/
theorem foldlM_insert {modules : List Module} {g : ModuleGraph} (hg : g.WellKept)
    (hids : ((g.list ++ modules).map (·.id)).Nodup)
    (hbase : ∀ m ∈ modules, ∀ r ∈ m.relationships, r.base = m.id)
    (hlegible : ∀ m ∈ modules, m.Legible) :
    ∃ g', modules.foldlM insert g = .ok g' ∧ g'.WellKept ∧ g'.list = g.list ++ modules := by
  induction modules generalizing g with
  | nil => exact ⟨g, rfl, hg, (List.append_nil _).symm⟩
  | cons m rest ih =>
    have hnew : g.contains m.id = false := by
      rw [Bool.eq_false_iff]
      intro hcontains
      obtain ⟨old, hold, hid⟩ := (contains_iff hg.toIndexed).mp hcontains
      rw [List.map_append, List.map_cons] at hids
      exact (List.nodup_append.mp hids).2.2 old.id (List.mem_map_of_mem hold) m.id
        List.mem_cons_self hid
    obtain ⟨hbasem, hbase⟩ := List.forall_mem_cons.mp hbase
    obtain ⟨hlegiblem, hlegible⟩ := List.forall_mem_cons.mp hlegible
    obtain ⟨next, hinsert⟩ := insert_eq_ok hnew hbasem
    have hlist := list_insert hinsert
    obtain ⟨g', hfold, hg', hlist'⟩ := ih (hg.insert hlegiblem hinsert)
      (by rw [hlist]; simpa using hids) hbase hlegible
    refine ⟨g', ?_, hg', ?_⟩
    · rw [List.foldlM_cons, hinsert]
      exact hfold
    · rw [hlist', hlist, List.append_assoc]
      rfl

end ModuleGraph

namespace FieldTable

variable {t : FieldTable} {f : Field} {module : ModuleId}

/-- A field that does not take the label of another one is put at the end of its module. -/
theorem list_insert_eq_append (t : FieldTable) (f : Field)
    (hlabel : f.isLabel = true → ∀ g ∈ t.list f.module, g.isLabel = false) (module : ModuleId) :
    (t.insert f).list module = t.list module ++ [f].filter fun f => f.module = module := by
  rw [list_insert]
  split
  · next h =>
    subst h
    have hsame : (t.list f.module).map (unlabelled f.isLabel) = t.list f.module := by
      refine (List.map_congr_left fun g hg => ?_).trans (List.map_id _)
      cases hf : f.isLabel with
      | false => rfl
      | true =>
        have hg := hlabel hf g hg
        cases g
        cases hg
        rfl
    rw [hsame]
    simp
  · next h => simp [Ne.symm h]

/-- The fields of some modules, as far as they are of a module. -/
theorem filter_flatMap_list (h : t.WellKept) {modules : List ModuleId} (hmodules : modules.Nodup)
    (module : ModuleId) :
    (modules.flatMap t.list).filter (fun f => f.module = module) =
      if module ∈ modules then t.list module else [] := by
  induction modules with
  | nil => rfl
  | cons m rest ih =>
    obtain ⟨hm, hrest⟩ := List.nodup_cons.mp hmodules
    rw [List.flatMap_cons, List.filter_append, ih hrest]
    by_cases hmodule : module = m
    · subst hmodule
      have hall : (t.list module).filter (fun f => f.module = module) = t.list module :=
        List.filter_eq_self.mpr fun f hf => decide_eq_true (h.home module f hf)
      rw [hall, if_neg hm, if_pos List.mem_cons_self, List.append_nil]
    · have hnone : (t.list m).filter (fun f => f.module = module) = [] :=
        List.filter_eq_nil_iff.mpr fun f hf => by simp [h.home m f hf, Ne.symm hmodule]
      rw [hnone, List.nil_append]
      simp [hmodule]

theorem nodup_ids_flatMap_list (h : t.WellKept) {modules : List ModuleId}
    (hmodules : modules.Nodup) : ((modules.flatMap t.list).map (·.id)).Nodup := by
  rw [List.map_flatMap, List.nodup_flatMap]
  refine ⟨fun m _ => h.unique m, hmodules.imp fun {m m'} hne id hid hid' => ?_⟩
  obtain ⟨f, hf, rfl⟩ := List.mem_map.mp hid
  obtain ⟨f', hf', heq⟩ := List.mem_map.mp hid'
  have howner := h.owned m f hf
  rw [← heq, h.owned m' f' hf'] at howner
  exact hne (Option.some.inj howner).symm

end FieldTable

namespace Registry

/-- Fields are taken in one after the other if their modules are there, their identifiers are new,
and no two of them are labels of one module. -/
theorem addFields_eq_ok {fs : List Field} {r : Registry} (h : r.WellKept)
    (hhome : ∀ f ∈ fs, r.graph.contains f.module = true) (hids : (fs.map (·.id)).Nodup)
    (hnew : ∀ f ∈ fs, List.lookup f.id r.fields.owners = none)
    (hlabel : ∀ m, (r.fields.list m ++ fs.filter fun f => f.module = m).Pairwise
      fun f g => f.isLabel = true → g.isLabel = false)
    (hlegible : ∀ f ∈ fs, f.Legible) :
    ∃ fields, addFields fs r = .ok { r with fields } ∧
      ∀ m, fields.list m = r.fields.list m ++ fs.filter fun f => f.module = m := by
  induction fs generalizing r with
  | nil => exact ⟨r.fields, rfl, fun m => (List.append_nil _).symm⟩
  | cons f rest ih =>
    obtain ⟨hhomef, hhome⟩ := List.forall_mem_cons.mp hhome
    obtain ⟨hnewf, hnew⟩ := List.forall_mem_cons.mp hnew
    obtain ⟨hlegiblef, hlegible⟩ := List.forall_mem_cons.mp hlegible
    obtain ⟨hidf, hids⟩ := List.nodup_cons.mp hids
    have hmoved := r.fields.list_insert_eq_append f fun hf g hg => by
      have hpairs := (List.pairwise_append.mp (hlabel f.module)).2.2 g hg f (by simp)
      rw [Bool.eq_false_iff]
      intro hg
      rw [hpairs hg] at hf
      cases hf
    have hlist (m : ModuleId) : (r.fields.insert f).list m ++ rest.filter (fun f => f.module = m) =
        r.fields.list m ++ (f :: rest).filter fun f => f.module = m := by
      rw [hmoved, List.append_assoc, ← List.filter_append]
      rfl
    have hnext : WellKept { r with fields := r.fields.insert f } := by
      refine ⟨h.catalog, h.graph, h.fields.insert hnewf hlegiblef, fun m g hg => ?_⟩
      rcases FieldTable.mem_list_insert hg with ⟨hm, rfl⟩ | ⟨old, hold, _⟩
      · rw [hm]
        exact hhomef
      · exact h.home m old hold
    obtain ⟨fields, hadd, hfields⟩ := ih hnext hhome hids
      (fun g hg => by
        have hne : g.id ≠ f.id := fun hid => hidf (List.mem_map.mpr ⟨g, hg, hid⟩)
        show List.lookup g.id (Assoc.put f.id f.module r.fields.owners) = none
        rw [Assoc.lookup_put_of_ne hne]
        exact hnew g hg)
      (fun m => (hlist m).symm ▸ hlabel m) hlegible
    refine ⟨fields, ?_, fun m => (hfields m).trans (hlist m)⟩
    rw [addFields, hhomef, Assoc.get?, hnewf]
    exact hadd

/-! ## Building the registry again -/

/-- Two registries give the same snapshot, and they answer every question alike. -/
structure Alike (r r' : Registry) : Prop where
  snapshot : r'.snapshot = r.snapshot
  listDataTypes : r'.listDataTypes = r.listDataTypes
  getDataType : ∀ id, r'.getDataType id = r.getDataType id
  kindOf : ∀ id, r'.kindOf id = r.kindOf id
  listModules : r'.listModules = r.listModules
  getModule : ∀ id, r'.getModule id = r.getModule id
  hasModule : ∀ id, r'.hasModule id = r.hasModule id
  relationshipsFrom : ∀ id, r'.relationshipsFrom id = r.relationshipsFrom id
  relationshipCount : r'.relationshipCount = r.relationshipCount
  listFields : ∀ module, r'.listFields module = r.listFields module
  getField? : ∀ module id, r'.getField? module id = r.getField? module id
  getFieldByName? : ∀ module name, r'.getFieldByName? module name = r.getFieldByName? module name
  labelField? : ∀ module, r'.labelField? module = r.labelField? module

/-- Well-kept registries are alike if they list the same data types, modules and fields. -/
theorem WellKept.alike {r r' : Registry} (h : r.WellKept) (h' : r'.WellKept)
    (hcatalog : r'.catalog = r.catalog) (hgraph : r'.graph.list = r.graph.list)
    (hfields : ∀ module, r'.fields.list module = r.fields.list module) : r.Alike r' where
  snapshot := by
    unfold Registry.snapshot
    rw [hcatalog, hgraph]
    exact congrArg _ (List.flatMap_congr fun m _ => hfields m.id)
  listDataTypes := congrArg Catalog.types hcatalog
  getDataType id := congrArg (Catalog.get · id) hcatalog
  kindOf id := congrArg (Catalog.kindOf · id) hcatalog
  listModules := hgraph
  getModule id := by
    unfold Registry.getModule ModuleGraph.get
    rw [h.graph.toIndexed.slot?_congr h'.graph.toIndexed hgraph]
  hasModule := h.graph.toIndexed.contains_congr h'.graph.toIndexed hgraph
  relationshipsFrom id := by
    unfold Registry.relationshipsFrom ModuleGraph.relationshipsFrom
    rw [h.graph.toIndexed.slot?_congr h'.graph.toIndexed hgraph]
  relationshipCount := by
    show r'.graph.relationshipCount = r.graph.relationshipCount
    rw [h.graph.count, h'.graph.count, hgraph]
  listFields := hfields
  getField? module id := congrArg (List.find? fun f : Field => f.id = id) (hfields module)
  getFieldByName? module name :=
    congrArg (List.find? fun f : Field => f.name = name) (hfields module)
  labelField? module := congrArg (List.find? fun f : Field => f.isLabel) (hfields module)

theorem WellKept.legible_snapshot {r : Registry} (h : r.WellKept) : r.snapshot.Legible where
  dataTypes := h.catalog.legible
  modules := h.graph.legible
  fields f hf := by
    obtain ⟨m, _, hf⟩ := List.mem_flatMap.mp hf
    exact h.fields.legible m.id f hf

/-- A well-kept registry is built again from its snapshot. -/
theorem WellKept.ofSnapshot_snapshot {r : Registry} (h : r.WellKept) :
    ∃ r', ofSnapshot r.snapshot = .ok r' ∧ r.Alike r' := by
  have hcatalog : r.catalog.types.foldlM Catalog.insert Catalog.empty = .ok r.catalog :=
    Catalog.foldlM_insert (c := .empty) h.catalog
  obtain ⟨graph, hmodules, hgraph, hlist⟩ :
      ∃ g, r.graph.list.foldlM ModuleGraph.insert ModuleGraph.empty = .ok g ∧ g.WellKept ∧
        g.list = r.graph.list :=
    ModuleGraph.foldlM_insert ModuleGraph.wellKept_empty h.graph.toIndexed.nodup_ids h.graph.base
      h.graph.legible
  have hhome (m : ModuleId) (f : Field) (hf : f ∈ r.fields.list m) :
      m ∈ r.graph.list.map (·.id) :=
    List.mem_map.mpr ((ModuleGraph.contains_iff h.graph.toIndexed).mp (h.home m f hf))
  have hflat : r.snapshot.fields = (r.graph.list.map (·.id)).flatMap r.fields.list :=
    (List.flatMap_map ..).symm
  have hfilter (m : ModuleId) :
      r.snapshot.fields.filter (fun f => f.module = m) = r.fields.list m := by
    rw [hflat, FieldTable.filter_flatMap_list h.fields h.graph.toIndexed.nodup_ids]
    split
    · rfl
    · next hm => exact (List.eq_nil_iff_forall_not_mem.mpr fun f hf => hm (hhome m f hf)).symm
  have hids : (r.snapshot.fields.map (·.id)).Nodup := by
    rw [hflat]
    exact FieldTable.nodup_ids_flatMap_list h.fields h.graph.toIndexed.nodup_ids
  have hstart : WellKept ⟨r.catalog, graph, .empty, 0⟩ :=
    ⟨h.catalog, hgraph, FieldTable.wellKept_empty, fun _ => List.forall_mem_nil _⟩
  obtain ⟨fields, hadd, hfields⟩ := addFields_eq_ok hstart
    (fun f hf => by
      obtain ⟨m, hm, hf⟩ := List.mem_flatMap.mp hf
      rw [h.fields.home m.id f hf]
      exact (ModuleGraph.contains_iff hgraph.toIndexed).mpr ⟨m, hlist ▸ hm, rfl⟩)
    hids (fun f _ => rfl)
    (fun m => by
      show ([] ++ r.snapshot.fields.filter fun f : Field => f.module = m).Pairwise _
      rw [List.nil_append, hfilter]
      refine (List.pairwise_map.mp (h.fields.unique m)).imp_of_mem fun {f g} hf hg hne hlabel => ?_
      rw [Bool.eq_false_iff]
      exact fun hlabel' => hne (h.fields.label m f hf g hg hlabel hlabel'))
    h.legible_snapshot.fields
  have hbuilt : ofSnapshot r.snapshot = .ok ⟨r.catalog, graph, fields, 0⟩ := by
    have hdataTypes : r.snapshot.dataTypes = r.catalog.types := rfl
    have hlisted : r.snapshot.modules = r.graph.list := rfl
    rw [ofSnapshot, hdataTypes, hlisted, hcatalog, hmodules]
    exact hadd
  refine ⟨_, hbuilt, h.alike (wellKept_ofSnapshot h.legible_snapshot hbuilt) rfl hlist fun m => ?_⟩
  exact (hfields m).trans (hfilter m)

/-! ## Registries that edits have made -/

/-- A registry is empty, or it was built from a snapshot that was read. -/
def Fresh (r : Registry) : Prop :=
  r = .empty ∨ ∃ tree s, Snapshot.ofJson? tree = some s ∧ ofSnapshot s = .ok r

theorem Grown.wellKept {r : Registry} (h : Grown Fresh Edit.IsRead r) : r.WellKept := by
  induction h with
  | start h =>
    rcases h with rfl | ⟨tree, s, hread, hbuilt⟩
    · exact wellKept_empty
    · exact wellKept_ofSnapshot (Snapshot.legible_of_ofJson? hread) hbuilt
  | edit _ e he hr ih => exact ih.edit he hr

end Registry

/-- A registry that edits have made, from nothing or from a snapshot, is built again from its
snapshot, and what is built answers every question alike.  So it is from the text of the snapshot,
if the text is not nested too deep and its numbers are read back as they are. -/
theorem snapshot_loses_nothing {r : Registry} (h : r.Grown Registry.Fresh Registry.Edit.IsRead) :
    ∃ r', Registry.ofSnapshot r.snapshot = .ok r' ∧ r.Alike r' ∧
      (r.snapshot.toJson.Survives → Registry.ofText r.snapshot.toJson.text = .ok r') := by
  obtain ⟨r', hbuilt, halike⟩ := h.wellKept.ofSnapshot_snapshot
  refine ⟨r', hbuilt, halike, fun hsurvives => ?_⟩
  unfold Registry.ofText
  rw [parse?_tree_of_survives hsurvives, Option.bind_some,
    h.wellKept.legible_snapshot.ofJson?_toJson]
  exact hbuilt

namespace Sample

def label : DataTypeId := ⟨"label", by decide +kernel⟩

def goods : ModuleId := ⟨"goods", by decide +kernel⟩

def returns : ModuleId := ⟨"returns", by decide +kernel⟩

def title : FieldId := ⟨"title", by decide +kernel⟩

def note : FieldId := ⟨"note", by decide +kernel⟩

/-- Goods have two fields, and their note is the label.  A module before them was deleted. -/
def goodsOnly : Registry :=
  { catalog := ⟨[⟨label, "Label", .string, none, true, 1, 1⟩]⟩
    graph :=
      { slots := [none, some ⟨⟨goods, "Goods", [], 3, 3⟩, []⟩]
        index := [(goods, 1)]
        relationshipCount := 0 }
    fields :=
      { byModule := [(goods, [⟨title, "title", goods, label, false, none, 4, 6⟩,
          ⟨note, "note", goods, label, true, none, 5, 6⟩])]
        owners := [(title, goods), (note, goods)] }
    generation := 7 }

def drafted (name : String) (isLabel : Bool) : FieldDraft :=
  { FieldDraft.ofName goods name label with isLabel }

theorem goodsOnly_grown : Registry.Grown Registry.Fresh Registry.Edit.IsRead goodsOnly := by
  have hword (n : Int) (h : 0 ≤ n ∧ n < 10) : Word n := ⟨by omega, by omega⟩
  have hstart : Registry.Grown Registry.Fresh Registry.Edit.IsRead .empty := .start (Or.inl rfl)
  have htype := hstart.edit (.createDataType "Label" "string" label 1) (hword 1 (by decide)) rfl
  have hreturns := htype.edit (.createModule returns "Returns" 2) (hword 2 (by decide)) rfl
  have hgoods := hreturns.edit (.createModule goods "Goods" 3) (hword 3 (by decide)) rfl
  have htitle := hgoods.edit (.createField (drafted "title" true) title 4)
    ⟨hword 4 (by decide), (drafted "title" true).toJson.tree, rfl⟩ rfl
  have hnote := htitle.edit (.createField (drafted "note" false) note 5)
    ⟨hword 5 (by decide), (drafted "note" false).toJson.tree, rfl⟩ rfl
  have hlabel := hnote.edit (.setLabel goods note 6) (hword 6 (by decide)) rfl
  exact hlabel.edit (.deleteModule returns) trivial rfl

theorem goodsOnly_survives : goodsOnly.snapshot.toJson.Survives := by
  refine ⟨by decide +kernel, fun n hn => ?_⟩
  have hnumbers : goodsOnly.snapshot.toJson.numbers =
      [1, 1, 4, 6, 5, 6, 3, 3].filterMap Number.ofInt? := rfl
  rw [hnumbers] at hn
  obtain ⟨i, _, hi⟩ := List.mem_filterMap.mp hn
  unfold Number.ofInt? at hi
  split at hi
  · cases hi
    exact Number.readsBack_integer _
  · cases hi

end Sample

/-- The label of the goods is found again from the text of the snapshot. -/
theorem snapshot_loses_nothing_on_sample :
    Registry.Grown Registry.Fresh Registry.Edit.IsRead Sample.goodsOnly ∧ ∃ r,
      Registry.ofText Sample.goodsOnly.snapshot.toJson.text = .ok r ∧
      (r.labelField? Sample.goods).map (·.id) = some Sample.note := by
  obtain ⟨r, _, halike, htext⟩ := snapshot_loses_nothing Sample.goodsOnly_grown
  refine ⟨Sample.goodsOnly_grown, r, htext Sample.goodsOnly_survives, ?_⟩
  rw [halike.labelField?]
  rfl

end RecordRules
