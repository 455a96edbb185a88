/-
Registries that are made by edits.

An edit is one request to change a registry, with the fresh identifier and the time that it is
given.  A registry has grown from a start if a row of edits leads there; edits that are refused
leave the registry as it is and do not count.
-/
import RecordRules.Proofs.Basic
import RecordRules.Registry.Basic

namespace RecordRules
namespace Registry

inductive Edit where
  | createDataType (name kind : String) (fresh : DataTypeId) (now : Int)
  | renameDataType (id : DataTypeId) (name : String) (now : Int)
  | setDataTypeActive (id : DataTypeId) (active : Bool) (now : Int)
  | deleteDataType (id : DataTypeId)
  | createModule (id : ModuleId) (name : String) (now : Int)
  | renameModule (id : ModuleId) (name : String) (now : Int)
  | setRelationships (id : ModuleId) (relationships : List Relationship) (now : Int)
  | deleteModule (id : ModuleId)
  | createField (draft : FieldDraft) (fresh : FieldId) (now : Int)
  | setLabel (module : ModuleId) (id : FieldId) (now : Int)
  | deleteFieldsOf (module : ModuleId)

/-- The registry after an edit, or why the edit is refused. -/
def Edit.perform (r : Registry) : Edit → Except RegistryError Registry
  | createDataType name kind fresh now => (r.createDataType name kind fresh now).map (·.2)
  | renameDataType id name now => (r.renameDataType id name now).map (·.2)
  | setDataTypeActive id active now => (r.setDataTypeActive id active now).map (·.2)
  | deleteDataType id => (r.deleteDataType id).map (·.2)
  | createModule id name now => (r.createModule id name now).map (·.2)
  | renameModule id name now => (r.renameModule id name now).map (·.2)
  | setRelationships id relationships now => (r.setRelationships id relationships now).map (·.2)
  | deleteModule id => (r.deleteModule id).map (·.2)
  | createField draft fresh now => (r.createField draft fresh now).map (·.2)
  | setLabel module id now => (r.setLabel module id now).map (·.2)
  | deleteFieldsOf module => .ok (r.deleteFieldsOf module).2

/-- The registries that edits of a sort lead to from certain starts. -/
inductive Grown (start : Registry → Prop) (allowed : Edit → Prop) : Registry → Prop where
  | start {r : Registry} (h : start r) : Grown start allowed r
  | edit {r r' : Registry} (h : Grown start allowed r) (e : Edit) (he : allowed e)
      (hr : e.perform r = .ok r') : Grown start allowed r'

/-! ## The operations

An operation that goes through does what the operation on its part of the registry does, and raises
the generation. -/

section

variable {r r' : Registry} {now : Int}

theorem createDataType_ok {name kind : String} {fresh : DataTypeId} {t : DataType}
    (h : r.createDataType name kind fresh now = .ok (t, r')) :
    ∃ catalog, r.catalog.create name kind fresh now = .ok (t, catalog) ∧
      r' = { r with catalog }.bump := by
  obtain ⟨⟨t', catalog⟩, hcreate, h⟩ := bind_ok h
  cases h
  exact ⟨catalog, hcreate, rfl⟩

theorem renameDataType_ok {id : DataTypeId} {name : String} {t : DataType}
    (h : r.renameDataType id name now = .ok (t, r')) :
    ∃ clean catalog,
      r.catalog.update id (fun t => { t with name := clean, updatedAt := now }) =
        .ok (t, catalog) ∧ r' = { r with catalog }.bump := by
  obtain ⟨clean, _, h⟩ := bind_ok h
  obtain ⟨⟨t', catalog⟩, hupdate, h⟩ := bind_ok h
  cases h
  exact ⟨clean, catalog, hupdate, rfl⟩

theorem setDataTypeActive_ok {id : DataTypeId} {active : Bool} {t : DataType}
    (h : r.setDataTypeActive id active now = .ok (t, r')) :
    ∃ catalog, r.catalog.update id (fun t => { t with isActive := active, updatedAt := now }) =
        .ok (t, catalog) ∧ r' = { r with catalog }.bump := by
  obtain ⟨⟨t', catalog⟩, hupdate, h⟩ := bind_ok h
  cases h
  exact ⟨catalog, hupdate, rfl⟩

theorem deleteDataType_ok {id : DataTypeId} {removed : List Field}
    (h : r.deleteDataType id = .ok (removed, r')) :
    ∃ catalog, r.catalog.remove id = .ok catalog ∧ removed = (r.fields.removeTyped id).1 ∧
      r' = { r with catalog, fields := (r.fields.removeTyped id).2 }.bump := by
  obtain ⟨catalog, hremove, h⟩ := bind_ok h
  cases h
  exact ⟨catalog, hremove, rfl, rfl⟩

theorem createModule_ok {id : ModuleId} {name : String} {m : Module}
    (h : r.createModule id name now = .ok (m, r')) :
    ∃ graph, r.graph.create id name now = .ok (m, graph) ∧ r' = { r with graph }.bump := by
  obtain ⟨⟨m', graph⟩, hcreate, h⟩ := bind_ok h
  cases h
  exact ⟨graph, hcreate, rfl⟩

theorem renameModule_ok {id : ModuleId} {name : String} {m : Module}
    (h : r.renameModule id name now = .ok (m, r')) :
    ∃ graph, r.graph.rename id name now = .ok (m, graph) ∧ r' = { r with graph }.bump := by
  obtain ⟨⟨m', graph⟩, hrename, h⟩ := bind_ok h
  cases h
  exact ⟨graph, hrename, rfl⟩

theorem setRelationships_ok {id : ModuleId} {relationships : List Relationship} {m : Module}
    (h : r.setRelationships id relationships now = .ok (m, r')) :
    ∃ graph, r.graph.setRelationships id relationships now = .ok (m, graph) ∧
      r' = { r with graph }.bump := by
  obtain ⟨⟨m', graph⟩, hset, h⟩ := bind_ok h
  cases h
  exact ⟨graph, hset, rfl⟩

theorem deleteModule_ok {id : ModuleId} {m : Module} (h : r.deleteModule id = .ok (m, r')) :
    ∃ graph, r.graph.remove id = .ok (m, graph) ∧
      r' = { r with graph, fields := (r.fields.removeOf id).2 }.bump := by
  obtain ⟨⟨m', graph⟩, hremove, h⟩ := bind_ok h
  cases h
  exact ⟨graph, hremove, rfl⟩

theorem createField_ok {d : FieldDraft} {fresh : FieldId} {f : Field}
    (h : r.createField d fresh now = .ok (f, r')) :
    r.graph.contains d.module = true ∧ r.fields.build r.catalog d fresh now = .ok f ∧
      r' = { r with fields := r.fields.insert f }.bump := by
  unfold createField at h
  split at h
  · cases h
  · next home =>
    obtain ⟨f', hbuild, h⟩ := bind_ok h
    cases h
    exact ⟨by simpa using home, hbuild, rfl⟩

theorem setLabel_ok {module : ModuleId} {id : FieldId} {f : Field}
    (h : r.setLabel module id now = .ok (f, r')) :
    ∃ fields, r.fields.setLabel module id now = .ok (f, fields) ∧
      r' = { r with fields }.bump := by
  obtain ⟨⟨f', fields⟩, hset, h⟩ := bind_ok h
  cases h
  exact ⟨fields, hset, rfl⟩

end

/-! ## What an edit does -/

/-- What an edit does to the parts of a registry.  The operation on a part has its result beside
the part that it leaves. -/
inductive Edit.Does (r : Registry) : Edit → Catalog → ModuleGraph → FieldTable → Prop where
  | createDataType {name kind : String} {fresh : DataTypeId} {now : Int} {t : DataType}
      {catalog : Catalog} (h : r.catalog.create name kind fresh now = .ok (t, catalog)) :
      Does r (.createDataType name kind fresh now) catalog r.graph r.fields
  | renameDataType {id : DataTypeId} {name clean : String} {now : Int} {t : DataType}
      {catalog : Catalog}
      (h : r.catalog.update id (fun t => { t with name := clean, updatedAt := now }) =
        .ok (t, catalog)) :
      Does r (.renameDataType id name now) catalog r.graph r.fields
  | setDataTypeActive {id : DataTypeId} {active : Bool} {now : Int} {t : DataType}
      {catalog : Catalog}
      (h : r.catalog.update id (fun t => { t with isActive := active, updatedAt := now }) =
        .ok (t, catalog)) :
      Does r (.setDataTypeActive id active now) catalog r.graph r.fields
  | deleteDataType {id : DataTypeId} {catalog : Catalog} (h : r.catalog.remove id = .ok catalog) :
      Does r (.deleteDataType id) catalog r.graph (r.fields.removeTyped id).2
  | createModule {id : ModuleId} {name : String} {now : Int} {m : Module} {graph : ModuleGraph}
      (h : r.graph.create id name now = .ok (m, graph)) :
      Does r (.createModule id name now) r.catalog graph r.fields
  | renameModule {id : ModuleId} {name : String} {now : Int} {m : Module} {graph : ModuleGraph}
      (h : r.graph.rename id name now = .ok (m, graph)) :
      Does r (.renameModule id name now) r.catalog graph r.fields
  | setRelationships {id : ModuleId} {relationships : List Relationship} {now : Int} {m : Module}
      {graph : ModuleGraph} (h : r.graph.setRelationships id relationships now = .ok (m, graph)) :
      Does r (.setRelationships id relationships now) r.catalog graph r.fields
  | deleteModule {id : ModuleId} {m : Module} {graph : ModuleGraph}
      (h : r.graph.remove id = .ok (m, graph)) :
      Does r (.deleteModule id) r.catalog graph (r.fields.removeOf id).2
  | createField {d : FieldDraft} {fresh : FieldId} {now : Int} {f : Field}
      (home : r.graph.contains d.module = true)
      (h : r.fields.build r.catalog d fresh now = .ok f) :
      Does r (.createField d fresh now) r.catalog r.graph (r.fields.insert f)
  | setLabel {module : ModuleId} {id : FieldId} {now : Int} {f : Field} {fields : FieldTable}
      (h : r.fields.setLabel module id now = .ok (f, fields)) :
      Does r (.setLabel module id now) r.catalog r.graph fields
  | deleteFieldsOf {module : ModuleId} :
      Does r (.deleteFieldsOf module) r.catalog r.graph (r.fields.removeOf module).2

theorem Edit.does {r r' : Registry} {e : Edit} (h : e.perform r = .ok r') :
    e.Does r r'.catalog r'.graph r'.fields := by
  cases e with
  | createDataType name kind fresh now =>
    obtain ⟨⟨t, _⟩, hr, rfl⟩ := map_ok h
    obtain ⟨catalog, hcreate, rfl⟩ := createDataType_ok hr
    exact .createDataType hcreate
  | renameDataType id name now =>
    obtain ⟨⟨t, _⟩, hr, rfl⟩ := map_ok h
    obtain ⟨clean, catalog, hupdate, rfl⟩ := renameDataType_ok hr
    exact .renameDataType hupdate
  | setDataTypeActive id active now =>
    obtain ⟨⟨t, _⟩, hr, rfl⟩ := map_ok h
    obtain ⟨catalog, hupdate, rfl⟩ := setDataTypeActive_ok hr
    exact .setDataTypeActive hupdate
  | deleteDataType id =>
    obtain ⟨⟨removed, _⟩, hr, rfl⟩ := map_ok h
    obtain ⟨catalog, hremove, _, rfl⟩ := deleteDataType_ok hr
    exact .deleteDataType hremove
  | createModule id name now =>
    obtain ⟨⟨m, _⟩, hr, rfl⟩ := map_ok h
    obtain ⟨graph, hcreate, rfl⟩ := createModule_ok hr
    exact .createModule hcreate
  | renameModule id name now =>
    obtain ⟨⟨m, _⟩, hr, rfl⟩ := map_ok h
    obtain ⟨graph, hrename, rfl⟩ := renameModule_ok hr
    exact .renameModule hrename
  | setRelationships id relationships now =>
    obtain ⟨⟨m, _⟩, hr, rfl⟩ := map_ok h
    obtain ⟨graph, hset, rfl⟩ := setRelationships_ok hr
    exact .setRelationships hset
  | deleteModule id =>
    obtain ⟨⟨m, _⟩, hr, rfl⟩ := map_ok h
    obtain ⟨graph, hremove, rfl⟩ := deleteModule_ok hr
    exact .deleteModule hremove
  | createField draft fresh now =>
    obtain ⟨⟨f, _⟩, hr, rfl⟩ := map_ok h
    obtain ⟨home, hbuild, rfl⟩ := createField_ok hr
    exact .createField home hbuild
  | setLabel module id now =>
    obtain ⟨⟨f, _⟩, hr, rfl⟩ := map_ok h
    obtain ⟨fields, hset, rfl⟩ := setLabel_ok hr
    exact .setLabel hset
  | deleteFieldsOf module =>
    cases h
    exact .deleteFieldsOf

/-- What the operations on a graph keep, every edit keeps. -/
theorem Edit.Does.keeps_graph {r : Registry} {e : Edit} {catalog : Catalog} {graph : ModuleGraph}
    {fields : FieldTable} (h : e.Does r catalog graph fields) {P : ModuleGraph → Prop}
    (hcreate : ∀ {g g' id name now m}, P g → g.create id name now = .ok (m, g') → P g')
    (hrename : ∀ {g g' id name now m}, P g → g.rename id name now = .ok (m, g') → P g')
    (hset : ∀ {g g' id relationships now m}, P g →
      g.setRelationships id relationships now = .ok (m, g') → P g')
    (hremove : ∀ {g g' id m}, P g → g.remove id = .ok (m, g') → P g') (hr : P r.graph) :
    P graph := by
  cases h with
  | createModule h => exact hcreate hr h
  | renameModule h => exact hrename hr h
  | setRelationships h => exact hset hr h
  | deleteModule h => exact hremove hr h
  | _ => exact hr

end Registry
end RecordRules
