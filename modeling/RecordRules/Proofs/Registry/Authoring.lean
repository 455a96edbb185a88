/-
Documents of what the constructors and builders of a schema make.

An author makes a rule of the name of an action and then sets its parts, and makes relationships
and subfields likewise.  A part may be set to null, and it is written like any other value.  For a
reader a null is a part that is missing.  So a null that was set is what writing and reading loses,
and nothing else is lost.
-/
import RecordRules.Evaluation.Operand
import RecordRules.Proofs.Registry.Documents
import RecordRules.Proofs.Registry.Snapshot

namespace RecordRules

/-! ## What authors make -/

/-- The rules that an author can make of the name of an action. -/
inductive Rule.Authored : Rule → Prop where
  | new (name : String) : Authored (ofAction (Action.ofName name))
  | source {r : Rule} (h : r.Authored) (source : String) : Authored { r with source := some source }
  | target {r : Rule} (h : r.Authored) (target : String) : Authored { r with target := some target }
  | value {r : Rule} (h : r.Authored) {v : Json} (hv : v.IsNormal) :
      Authored { r with value := some v }
  | delta {r : Rule} (h : r.Authored) {v : Json} (hv : v.IsNormal) :
      Authored { r with delta := some v }
  | fields {r : Rule} (h : r.Authored) (fields : List String) : Authored { r with fields }
  | binding {r : Rule} (h : r.Authored) (binding : Binding) :
      Authored { r with binding := some binding }

/-- The relationships that an author can make. -/
inductive Relationship.Authored : Relationship → Prop where
  | new (base target : ModuleId) : Authored (between base target)
  | binding {r : Relationship} (h : r.Authored) (binding : Binding) : Authored { r with binding }
  | rule {r : Relationship} (h : r.Authored) (event : Event) {rule : Rule} (hrule : rule.Authored) :
      Authored (r.addRule event rule)

/-- The subfields that an author can make. -/
inductive Subfield.Authored : Subfield → Prop where
  | new (name : String) (dataType : DataTypeId) : Authored (ofName name dataType)
  | required {s : Subfield} (h : s.Authored) : Authored { s with required := true }
  | default {s : Subfield} (h : s.Authored) {v : Json} (hv : v.IsNormal) :
      Authored { s with default := some v }
  | constraints {s : Subfield} (h : s.Authored) (constraints : Constraints) :
      Authored { s with constraints := some constraints }

/-! ## Explicit nulls -/

namespace Json

/-- A part as a reader sees it, for whom null is missing. -/
def nonNull (part : Option Json) : Option Json := part.filter fun v => !v.isNull

theorem nonNull_of_ne {part : Option Json} (h : part ≠ some .null) : nonNull part = part := by
  cases part with
  | none => rfl
  | some v =>
    cases v with
    | null => exact absurd rfl h
    | _ => rfl

theorem nonNull_eq_self {part : Option Json} : nonNull part = part ↔ part ≠ some .null := by
  refine ⟨?_, nonNull_of_ne⟩
  rintro h rfl
  cases h

theorem or_nonNull {part other : Option Json} (h : part.or other ≠ some .null) :
    (nonNull part).or (nonNull other) = part.or other := by
  cases part with
  | none => exact nonNull_of_ne h
  | some v =>
    have hv : some v ≠ some .null := h
    rw [nonNull_of_ne hv]
    rfl

theorem optional_any_nonNull {part : Option Json} (h : ∀ v ∈ part, v.IsNormal) :
    optional .any (part.map tree) = some (nonNull part) := by
  by_cases hnull : part = some .null
  · rw [hnull]
    rfl
  · rw [nonNull_of_ne hnull]
    refine optional_any_tree fun v hv => ⟨?_, h v hv⟩
    rintro rfl
    exact hnull hv

/-- Reading a document gives what is kept.  So does reading its text, if the document survives being
written as a text. -/
structure ReadsAs {α : Type} (read : Reader α) (document : Json) (kept : α) : Prop where
  ofTree : read document.tree = some kept
  ofText : document.Survives → (Tree.parse? document.text).bind read = some kept

theorem ReadsAs.of_tree {α : Type} {read : Reader α} {document : Json} {kept : α}
    (h : read document.tree = some kept) : ReadsAs read document kept :=
  ⟨h, fun hsurvives => by rw [parse?_tree_of_survives hsurvives, Option.bind_some, h]⟩

end Json

open Json

/-! ## Rules -/

namespace Rule

/-- No operand is an explicit null. -/
def NullFree (r : Rule) : Prop := r.value ≠ some .null ∧ r.delta ≠ some .null

def withoutNulls (r : Rule) : Rule :=
  { r with value := nonNull r.value, delta := nonNull r.delta }

theorem withoutNulls_eq_self {r : Rule} : r.withoutNulls = r ↔ r.NullFree := by
  refine ⟨fun h => ?_, fun h => ?_⟩
  · exact ⟨nonNull_eq_self.mp (congrArg value h), nonNull_eq_self.mp (congrArg delta h)⟩
  · rw [withoutNulls, nonNull_of_ne h.1, nonNull_of_ne h.2]

/-- The operand of a rule changes only if it is null. -/
theorem literal_withoutNulls {r : Rule} (h : r.literal ≠ some .null) :
    r.withoutNulls.literal = r.literal := by
  obtain ⟨action, _, _, value, delta, _, _⟩ := r
  cases action with
  | validate => exact nonNull_of_ne h
  | increment | decrement =>
    have hgiven : delta.or value ≠ some .null := by
      intro hnull
      have hliteral : (delta.or value).or (some (.ofInt 1)) ≠ some .null := h
      rw [hnull] at hliteral
      exact hliteral rfl
    exact congrArg (Option.or · (some (.ofInt 1))) (or_nonNull hgiven)
  | _ => exact or_nonNull h

namespace Authored

/-- The action is what its name stands for, and the operands are in normal form. -/
theorem parts {r : Rule} (h : r.Authored) : Action.ofName r.action.name = r.action ∧
    (∀ v ∈ r.value, v.IsNormal) ∧ ∀ v ∈ r.delta, v.IsNormal := by
  induction h with
  | new name => exact ⟨Action.ofName_name name, nofun, nofun⟩
  | source _ _ ih => exact ih
  | target _ _ ih => exact ih
  | value _ hv ih => exact ⟨ih.1, fun _ hmem => Option.some.inj hmem ▸ hv, ih.2.2⟩
  | delta _ hv ih => exact ⟨ih.1, ih.2.1, fun _ hmem => Option.some.inj hmem ▸ hv⟩
  | fields _ _ ih => exact ih
  | binding _ _ ih => exact ih

theorem ofJson?_toJson {r : Rule} (h : r.Authored) :
    Rule.ofJson? r.toJson.tree = some r.withoutNulls := by
  obtain ⟨haction, hvalue, hdelta⟩ := h.parts
  exact ofJson?_toJson_of haction (optional_any_nonNull hvalue) (optional_any_nonNull hdelta)

end Authored
end Rule

/-! ## Relationships -/

theorem RuleLists.get_append (lists : RuleLists) (event other : Event) (rule : Rule) :
    (lists.append event rule).get other =
      if other = event then lists.get other ++ [rule] else lists.get other := by
  cases event <;> cases other <;> rfl

theorem RuleLists.get_map (f : Rule → Rule) (lists : RuleLists) (event : Event) :
    (lists.map f).get event = (lists.get event).map f := by
  cases event <;> rfl

theorem RuleLists.ext_get {lists others : RuleLists}
    (h : ∀ event, lists.get event = others.get event) : lists = others := by
  obtain ⟨onCreate, onUpdate, onDelete⟩ := lists
  obtain rfl : onCreate = others.onCreate := h .create
  obtain rfl : onUpdate = others.onUpdate := h .update
  obtain rfl : onDelete = others.onDelete := h .delete
  rfl

theorem RuleLists.map_eq_self {f : Rule → Rule} {lists : RuleLists} :
    lists.map f = lists ↔ ∀ event, ∀ r ∈ lists.get event, f r = r := by
  have hget (event : Event) : (lists.map f).get event = lists.get event ↔
      ∀ r ∈ lists.get event, f r = r := by
    have hmap := List.map_inj_left (l := lists.get event) (f := f) (g := id)
    rwa [List.map_id, ← get_map] at hmap
  refine ⟨fun h event => ?_, fun h => ext_get fun event => (hget event).mpr (h event)⟩
  exact (hget event).mp (congrArg (get · event) h)

namespace Relationship

def withoutNulls (r : Relationship) : Relationship :=
  { r with rules := r.rules.map Rule.withoutNulls }

theorem withoutNulls_eq_self {r : Relationship} :
    r.withoutNulls = r ↔ ∀ event, ∀ rule ∈ r.rules.get event, rule.NullFree := by
  have hrules : r.withoutNulls = r ↔ r.rules.map Rule.withoutNulls = r.rules :=
    ⟨congrArg rules, fun h => by rw [withoutNulls, h]⟩
  simp only [hrules, RuleLists.map_eq_self, Rule.withoutNulls_eq_self]

namespace Authored

theorem authored_rules {r : Relationship} (h : r.Authored) :
    ∀ event, ∀ rule ∈ r.rules.get event, rule.Authored := by
  induction h with
  | new base target =>
    intro event
    cases event <;> exact List.forall_mem_nil _
  | binding _ _ ih => exact ih
  | rule _ added hrule ih =>
    intro event rule hmem
    have hmem : rule ∈ (RuleLists.append _ added _).get event := hmem
    rw [RuleLists.get_append] at hmem
    split at hmem
    · rcases List.mem_append.mp hmem with hmem | hmem
      · exact ih event rule hmem
      · exact List.mem_singleton.mp hmem ▸ hrule
    · exact ih event rule hmem

theorem ofJson?_toJson {r : Relationship} (h : r.Authored) :
    Relationship.ofJson? r.toJson.tree = some r.withoutNulls :=
  ofJson?_toJson_of <| RuleLists.ofJson?_toJson_map fun event rule hrule =>
    (h.authored_rules event rule hrule).ofJson?_toJson

end Authored
end Relationship

/-! ## Subfields -/

namespace Subfield

def withoutNulls (s : Subfield) : Subfield := { s with default := nonNull s.default }

theorem withoutNulls_eq_self {s : Subfield} : s.withoutNulls = s ↔ s.default ≠ some .null := by
  refine ⟨fun h => nonNull_eq_self.mp (congrArg Subfield.default h), fun h => ?_⟩
  rw [withoutNulls, nonNull_of_ne h]

namespace Authored

theorem isNormal_default {s : Subfield} (h : s.Authored) : ∀ v ∈ s.default, v.IsNormal := by
  induction h with
  | new name dataType => exact nofun
  | required _ ih => exact ih
  | default _ hv _ => exact fun _ hmem => Option.some.inj hmem ▸ hv
  | constraints _ _ ih => exact ih

theorem ofJson?_toJson {s : Subfield} (h : s.Authored) :
    Subfield.ofJson? s.toJson.tree = some s.withoutNulls :=
  ofJson?_toJson_of (optional_any_nonNull h.isNormal_default)

end Authored
end Subfield

/-! ## Schemas -/

/-- A rule, a relationship or a subfield that an author made is read back from its document as it
is, but for explicit nulls.  Without them it is read back as it is, and the operand of a rule that
has them changes only if the operand is null. -/
theorem authored_documents_lose_only_nulls (r : Rule) (q : Relationship) (s : Subfield) :
    (r.Authored → ReadsAs Rule.ofJson? r.toJson r.withoutNulls ∧
      (r.withoutNulls = r ↔ r.NullFree) ∧
      (r.literal ≠ some .null → r.withoutNulls.literal = r.literal)) ∧
    (q.Authored → ReadsAs Relationship.ofJson? q.toJson q.withoutNulls ∧
      (q.withoutNulls = q ↔ ∀ event, ∀ rule ∈ q.rules.get event, rule.NullFree)) ∧
    (s.Authored → ReadsAs Subfield.ofJson? s.toJson s.withoutNulls ∧
      (s.withoutNulls = s ↔ s.default ≠ some .null)) := by
  refine ⟨fun h => ?_, fun h => ?_, fun h => ?_⟩
  · exact ⟨.of_tree h.ofJson?_toJson, Rule.withoutNulls_eq_self, Rule.literal_withoutNulls⟩
  · exact ⟨.of_tree h.ofJson?_toJson, Relationship.withoutNulls_eq_self⟩
  · exact ⟨.of_tree h.ofJson?_toJson, Subfield.withoutNulls_eq_self⟩

namespace Sample

/-- Adds an amount that the author left open. -/
def openIncrement : Rule := { Rule.ofAction .increment with delta := some .null }

def openRelationship : Relationship :=
  (Relationship.between goods returns).addRule .create openIncrement

def openSubfield : Subfield := { Subfield.ofName "note" label with default := some .null }

end Sample

/-- The open amount is lost, so that the rule adds 1 when it is read back. -/
theorem authored_documents_lose_only_nulls_on_sample :
    (Sample.openIncrement.literal = some .null ∧ ∃ r,
      ReadsAs Rule.ofJson? Sample.openIncrement.toJson r ∧ r.literal = some (.ofInt 1)) ∧
    (∃ r, ReadsAs Relationship.ofJson? Sample.openRelationship.toJson r ∧
      r ≠ Sample.openRelationship) ∧
    ∃ s, ReadsAs Subfield.ofJson? Sample.openSubfield.toJson s ∧ s ≠ Sample.openSubfield := by
  have hrule : Sample.openIncrement.Authored := .delta (.new "increment") rfl
  have hrelationship : Sample.openRelationship.Authored := .rule (.new _ _) .create hrule
  have hsubfield : Sample.openSubfield.Authored := .default (.new _ _) rfl
  obtain ⟨hrules, hrelationships, hsubfields⟩ := authored_documents_lose_only_nulls
    Sample.openIncrement Sample.openRelationship Sample.openSubfield
  obtain ⟨hread, -, -⟩ := hrules hrule
  obtain ⟨hreadRelationship, hkeptRelationship⟩ := hrelationships hrelationship
  obtain ⟨hreadSubfield, hkeptSubfield⟩ := hsubfields hsubfield
  refine ⟨⟨rfl, _, hread, rfl⟩, ⟨_, hreadRelationship, fun h => ?_⟩, _, hreadSubfield, fun h => ?_⟩
  · exact (hkeptRelationship.mp h .create _ List.mem_cons_self).2 rfl
  · exact hkeptSubfield.mp h rfl

end RecordRules
