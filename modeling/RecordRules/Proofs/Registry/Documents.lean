/-
Documents of a schema that are read as they were written.

A rule, a relationship or a subfield that was once read from a document is read again, just as it
is, from the document that it is written to.  What need not be so is met by reading: a null operand
counts as none, and a known action has one name.
-/
import Mathlib.Tactic.SplitIfs
import RecordRules.Proofs.Json.Document
import RecordRules.Registry.Basic

namespace RecordRules

open Json

/-! ## Names -/

@[simp] theorem Ident.ofJson?_toJson {subject : Subject} (id : Ident subject) :
    Ident.ofJson? id.toJson.tree = some id := Ident.ofString?_text id

@[simp] theorem Kind.ofJson?_toJson (k : Kind) : Kind.ofJson? k.toJson.tree = some k := by
  cases k <;> rfl

/-- Only a name that is not known is kept. -/
theorem Action.eq_of_ofName {s name : String} (h : ofName s = .other name) : name = s := by
  unfold ofName at h
  split_ifs at h
  cases h
  rfl

theorem Action.ofName_name (s : String) : ofName (ofName s).name = ofName s := by
  cases h : ofName s with
  | other name =>
    obtain rfl := eq_of_ofName h
    exact h
  | _ => rfl

/-! ## Data types -/

/-- What makes sure that a data type is read back as it is written. -/
structure DataType.Legible (t : DataType) : Prop where
  created : Word t.createdAt
  updated : Word t.updatedAt

theorem DataType.Legible.ofJson?_toJson {t : DataType} (h : t.Legible) :
    DataType.ofJson? t.toJson.tree = some t := by
  unfold ofJson? toJson
  rw [parts?_document (by simp [given])]
  simp [given, int_tree h.created, int_tree h.updated]

theorem DataType.legible_of_ofJson? {tree : Tree} {t : DataType} (h : ofJson? tree = some t) :
    t.Legible := by
  simp only [ofJson?, Option.bind_eq_bind, Option.bind_eq_some_iff] at h
  obtain ⟨parts, _, h⟩ := h
  split at h
  · simp only [Option.bind_eq_some_iff, Option.pure_def, Option.some.injEq] at h
    obtain ⟨_, _, _, _, _, _, _, _, _, _, createdAt, hcreated, updatedAt, hupdated, rfl⟩ := h
    exact ⟨word_of_defaulted hcreated, word_of_defaulted hupdated⟩
  · cases h

/-! ## Fields -/

@[simp] theorem Constraints.ofJson?_toJson (c : Constraints) :
    Constraints.ofJson? c.toJson.tree = some c := by
  unfold ofJson? toJson
  rw [parts?_document (by simp [given])]
  simp [given]

/-- A subfield is read back with what its default is read as. -/
theorem Subfield.ofJson?_toJson_of {s : Subfield} {default : Option Json}
    (hdefault : Json.optional .any (s.default.map tree) = some default) :
    Subfield.ofJson? s.toJson.tree = some { s with default } := by
  have hconstraints : Json.optional Constraints.ofJson?
      (s.constraints.map (tree ∘ Constraints.toJson)) = some s.constraints :=
    optional_tree (fun c _ => c.ofJson?_toJson) fun _ _ => document_ne_null _
  unfold ofJson? toJson
  rw [parts?_document (by simp [given])]
  simp [given, hconstraints, hdefault]

theorem Subfield.ofJson?_toJson {s : Subfield}
    (hdefault : ∀ v ∈ s.default, v ≠ .null ∧ v.IsNormal) :
    Subfield.ofJson? s.toJson.tree = some s :=
  ofJson?_toJson_of (optional_any_tree hdefault)

/-- A subfield that was read is read again from what it is written to. -/
theorem Subfield.reread {tree : Tree} {s : Subfield} (h : ofJson? tree = some s) :
    Subfield.ofJson? s.toJson.tree = some s := by
  refine ofJson?_toJson ?_
  simp only [ofJson?, Option.bind_eq_bind, Option.bind_eq_some_iff] at h
  obtain ⟨parts, _, h⟩ := h
  split at h
  · simp only [Option.bind_eq_some_iff, Option.pure_def, Option.some.injEq] at h
    obtain ⟨_, _, _, _, _, _, default, hdefault, _, _, rfl⟩ := h
    exact of_optional_any hdefault
  · cases h

/-- What makes sure that a field is read back as it is written. -/
structure Field.Legible (f : Field) : Prop where
  subfields : ∀ subfields ∈ f.subfields, ∀ s ∈ subfields,
    Subfield.ofJson? s.toJson.tree = some s
  created : Word f.createdAt
  updated : Word f.updatedAt

theorem Field.Legible.ofJson?_toJson {f : Field} (h : f.Legible) :
    Field.ofJson? f.toJson.tree = some f := by
  have hread : Json.optional Subfield.listOfJson?
      (f.subfields.map (tree ∘ Subfield.listToJson)) = some f.subfields :=
    optional_tree (fun subfields hmem => list_tree (h.subfields subfields hmem))
      fun _ _ => Json.noConfusion
  unfold ofJson? toJson
  rw [parts?_document (by simp [given])]
  simp [given, hread, int_tree h.created, int_tree h.updated]

theorem Field.legible_of_ofJson? {tree : Tree} {f : Field} (h : ofJson? tree = some f) :
    f.Legible := by
  simp only [ofJson?, Option.bind_eq_bind, Option.bind_eq_some_iff] at h
  obtain ⟨parts, _, h⟩ := h
  split at h
  · simp only [Option.bind_eq_some_iff, Option.pure_def, Option.some.injEq] at h
    obtain ⟨_, _, _, _, _, _, _, _, _, _, subfields, hsubfields, createdAt, hcreated, updatedAt,
      hupdated, rfl⟩ := h
    refine ⟨of_optional hsubfields fun t subfields hlist => ?_, word_of_defaulted hcreated,
      word_of_defaulted hupdated⟩
    exact of_list hlist fun t s hs => Subfield.reread hs
  · cases h

theorem FieldDraft.of_ofJson? {tree : Tree} {d : FieldDraft} (h : ofJson? tree = some d) :
    ∀ subfields ∈ d.subfields, ∀ s ∈ subfields, Subfield.ofJson? s.toJson.tree = some s := by
  simp only [ofJson?, Option.bind_eq_bind, Option.bind_eq_some_iff] at h
  obtain ⟨parts, _, h⟩ := h
  split at h
  · simp only [Option.bind_eq_some_iff, Option.pure_def, Option.some.injEq] at h
    obtain ⟨_, _, _, _, _, _, _, _, _, _, subfields, hsubfields, rfl⟩ := h
    exact of_optional hsubfields fun t subfields hlist => of_list hlist fun t s hs =>
      Subfield.reread hs
  · cases h

/-! ## Rules -/

/-- An action is read back if its name is not another spelling of a known one. -/
theorem Action.ofJson?_toJson {a : Action} (h : ofName a.name = a) :
    Action.ofJson? a.toJson.tree = some a := congrArg some h

theorem Action.ofName_of_ofJson? {tree : Tree} {a : Action} (h : ofJson? tree = some a) :
    ofName a.name = a := by
  obtain ⟨s, _, rfl⟩ := Option.map_eq_some_iff.mp h
  exact ofName_name s

@[simp] theorem Binding.ofJson?_toJson (b : Binding) : Binding.ofJson? b.toJson.tree = some b := by
  have hread (v : Json) : v.tree.isReadable = true := by simp [Tree.isReadable, value?_tree]
  unfold ofJson? Reader.whole
  rw [if_pos (hread _)]
  cases b with
  | sole => rfl
  | source => rfl
  | record id =>
    have hkeys : ["kind", "recordId"].Pairwise (· < ·) := by decide +kernel
    have htree : (record id).toJson.tree =
        .object [("kind", .string "record"), ("recordId", id.toJson.tree)] :=
      tree_document hkeys
    rw [htree]
    simp [soleMember?, ofParts?, parts?, Reader.string]
  | foreignKey key =>
    have hkeys : ["kind", "sourceField"].Pairwise (· < ·) := by decide +kernel
    have htree : (foreignKey key).toJson.tree =
        .object [("kind", .string "foreignKey"), ("sourceField", .string key)] :=
      tree_document hkeys
    rw [htree]
    simp [soleMember?, ofParts?, parts?, Reader.string]
  | byMatch key target =>
    have hkeys : ["kind", "sourceField", "targetField"].Pairwise (· < ·) := by decide +kernel
    have htree : (byMatch key target).toJson.tree = .object [("kind", .string "match"),
        ("sourceField", .string key), ("targetField", .string target)] :=
      tree_document hkeys
    rw [htree]
    simp [soleMember?, ofParts?, parts?, Reader.string]

/-- A rule is read back with what its operands are read as. -/
theorem Rule.ofJson?_toJson_of {r : Rule} {value delta : Option Json}
    (haction : Action.ofName r.action.name = r.action)
    (hvalue : Json.optional .any (r.value.map tree) = some value)
    (hdelta : Json.optional .any (r.delta.map tree) = some delta) :
    Rule.ofJson? r.toJson.tree = some { r with value, delta } := by
  have hbinding : Json.optional Binding.ofJson? (r.binding.map (tree ∘ Binding.toJson)) =
      some r.binding :=
    optional_tree (fun b _ => b.ofJson?_toJson) fun b _ => by
      cases b <;> exact document_ne_null _
  have hfields := defaulted_list_tree fun s (_ : s ∈ r.fields) => string_tree s
  unfold ofJson? toJson
  rw [parts?_document (by simp [given])]
  simp [given, hbinding, Action.ofJson?_toJson haction, hvalue, hdelta, hfields]

theorem Rule.ofJson?_toJson {r : Rule} (haction : Action.ofName r.action.name = r.action)
    (hvalue : ∀ v ∈ r.value, v ≠ .null ∧ v.IsNormal)
    (hdelta : ∀ v ∈ r.delta, v ≠ .null ∧ v.IsNormal) : Rule.ofJson? r.toJson.tree = some r :=
  ofJson?_toJson_of haction (optional_any_tree hvalue) (optional_any_tree hdelta)

/-- A rule that was read is read again from what it is written to. -/
theorem Rule.reread {tree : Tree} {r : Rule} (h : ofJson? tree = some r) :
    Rule.ofJson? r.toJson.tree = some r := by
  simp only [ofJson?, Option.bind_eq_bind, Option.bind_eq_some_iff] at h
  obtain ⟨parts, _, h⟩ := h
  split at h
  · simp only [Option.bind_eq_some_iff, Option.pure_def, Option.some.injEq] at h
    obtain ⟨action, haction, _, _, _, _, value, hvalue, delta, hdelta, _, _, _, _, rfl⟩ := h
    obtain ⟨t, _, hread⟩ := Option.bind_eq_some_iff.mp haction
    exact ofJson?_toJson (Action.ofName_of_ofJson? hread) (of_optional_any hvalue)
      (of_optional_any hdelta)
  · cases h

/-! ## Relationships and modules -/

/-- Every rule of the lists, changed by a function. -/
def RuleLists.map (f : Rule → Rule) (lists : RuleLists) : RuleLists :=
  ⟨lists.onCreate.map f, lists.onUpdate.map f, lists.onDelete.map f⟩

theorem RuleLists.map_id (lists : RuleLists) : lists.map id = lists := by simp [map]

/-- Rules are read back one by one, each as what it is read as. -/
theorem RuleLists.ofJson?_toJson_map {f : Rule → Rule} {lists : RuleLists}
    (h : ∀ event, ∀ r ∈ lists.get event, Rule.ofJson? r.toJson.tree = some (f r)) :
    RuleLists.ofJson? lists.toJson.tree = some (lists.map f) := by
  have hcreate := defaulted_list_tree_map (h .create)
  have hupdate := defaulted_list_tree_map (h .update)
  have hdelete := defaulted_list_tree_map (h .delete)
  simp only [get] at hcreate hupdate hdelete
  unfold ofJson? toJson
  rw [parts?_document (by simp [given])]
  simp [given, hcreate, hupdate, hdelete, map]

theorem RuleLists.ofJson?_toJson {lists : RuleLists}
    (h : ∀ event, ∀ r ∈ lists.get event, Rule.ofJson? r.toJson.tree = some r) :
    RuleLists.ofJson? lists.toJson.tree = some lists := by
  rw [ofJson?_toJson_map (f := id) h, map_id]

theorem RuleLists.of_ofJson? {tree : Tree} {lists : RuleLists} (h : ofJson? tree = some lists) :
    ∀ event, ∀ r ∈ lists.get event, Rule.ofJson? r.toJson.tree = some r := by
  simp only [ofJson?, Option.bind_eq_bind, Option.bind_eq_some_iff] at h
  obtain ⟨parts, _, h⟩ := h
  split at h
  · simp only [Option.bind_eq_some_iff, Option.pure_def, Option.some.injEq] at h
    obtain ⟨onCreate, hcreate, onUpdate, hupdate, onDelete, hdelete, rfl⟩ := h
    intro event
    cases event with
    | create => exact of_defaulted_list hcreate fun t r hr => Rule.reread hr
    | update => exact of_defaulted_list hupdate fun t r hr => Rule.reread hr
    | delete => exact of_defaulted_list hdelete fun t r hr => Rule.reread hr
  · cases h

/-- A relationship is read back with what its rules are read as. -/
theorem Relationship.ofJson?_toJson_of {r : Relationship} {rules : RuleLists}
    (h : RuleLists.ofJson? r.rules.toJson.tree = some rules) :
    Relationship.ofJson? r.toJson.tree = some { r with rules } := by
  unfold ofJson? toJson
  rw [parts?_document (by simp [given])]
  simp [given, h]

theorem Relationship.ofJson?_toJson {r : Relationship}
    (h : ∀ event, ∀ rule ∈ r.rules.get event, Rule.ofJson? rule.toJson.tree = some rule) :
    Relationship.ofJson? r.toJson.tree = some r :=
  ofJson?_toJson_of (RuleLists.ofJson?_toJson h)

/-- A relationship that was read is read again from what it is written to. -/
theorem Relationship.reread {tree : Tree} {r : Relationship} (h : ofJson? tree = some r) :
    Relationship.ofJson? r.toJson.tree = some r := by
  refine ofJson?_toJson ?_
  simp only [ofJson?, Option.bind_eq_bind, Option.bind_eq_some_iff] at h
  obtain ⟨parts, _, h⟩ := h
  split at h
  · simp only [Option.bind_eq_some_iff, Option.pure_def, Option.some.injEq] at h
    obtain ⟨_, _, _, _, _, _, _, _, rules, hrules, rfl⟩ := h
    refine of_defaulted hrules (fun event => ?_) fun t lists hlists => RuleLists.of_ofJson? hlists
    cases event <;> exact List.forall_mem_nil _
  · cases h

/-- What makes sure that a module is read back as it is written. -/
structure Module.Legible (m : Module) : Prop where
  relationships : ∀ r ∈ m.relationships, Relationship.ofJson? r.toJson.tree = some r
  created : Word m.createdAt
  updated : Word m.updatedAt

theorem Module.Legible.ofJson?_toJson {m : Module} (h : m.Legible) :
    Module.ofJson? m.toJson.tree = some m := by
  have hread : Relationship.listOfJson? (Relationship.listToJson m.relationships).tree =
      some m.relationships := list_tree h.relationships
  unfold ofJson? toJson
  rw [parts?_document (by simp [given])]
  simp [given, hread, int_tree h.created, int_tree h.updated]

theorem Module.legible_of_ofJson? {tree : Tree} {m : Module} (h : ofJson? tree = some m) :
    m.Legible := by
  simp only [ofJson?, Option.bind_eq_bind, Option.bind_eq_some_iff] at h
  obtain ⟨parts, _, h⟩ := h
  split at h
  · simp only [Option.bind_eq_some_iff, Option.pure_def, Option.some.injEq] at h
    obtain ⟨_, _, _, _, relationships, hrelationships, createdAt, hcreated, updatedAt, hupdated,
      rfl⟩ := h
    exact ⟨of_defaulted_list hrelationships fun t r hr => Relationship.reread hr,
      word_of_defaulted hcreated, word_of_defaulted hupdated⟩
  · cases h

/-! ## Snapshots -/

/-- Every entry of a snapshot is read back as it is written. -/
structure Snapshot.Legible (s : Snapshot) : Prop where
  dataTypes : ∀ t ∈ s.dataTypes, t.Legible
  modules : ∀ m ∈ s.modules, m.Legible
  fields : ∀ f ∈ s.fields, f.Legible

theorem Snapshot.Legible.ofJson?_toJson {s : Snapshot} (h : s.Legible) :
    Snapshot.ofJson? s.toJson.tree = some s := by
  have hdataTypes := list_tree fun t ht => (h.dataTypes t ht).ofJson?_toJson
  have hmodules := list_tree fun m hm => (h.modules m hm).ofJson?_toJson
  have hfields := list_tree fun f hf => (h.fields f hf).ofJson?_toJson
  unfold ofJson? toJson
  rw [parts?_document (by simp [given])]
  simp [given, hdataTypes, hmodules, hfields]

theorem Snapshot.legible_of_ofJson? {tree : Tree} {s : Snapshot} (h : ofJson? tree = some s) :
    s.Legible := by
  simp only [ofJson?, Option.bind_eq_bind, Option.bind_eq_some_iff] at h
  obtain ⟨parts, _, h⟩ := h
  split at h
  · simp only [Option.bind_eq_some_iff, Option.pure_def, Option.some.injEq] at h
    obtain ⟨dataTypes, hdataTypes, modules, hmodules, fields, hfields, rfl⟩ := h
    exact ⟨of_defaulted_list hdataTypes fun t x hx => DataType.legible_of_ofJson? hx,
      of_defaulted_list hmodules fun t x hx => Module.legible_of_ofJson? hx,
      of_defaulted_list hfields fun t x hx => Field.legible_of_ofJson? hx⟩
  · cases h

end RecordRules
