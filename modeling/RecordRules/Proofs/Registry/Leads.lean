/-
Which module leads to which.

A module leads to the targets of its relationships.  Without cycles a chain of modules that lead on
passes none of them twice, so it is no longer than there are relationships; and the number that a
registry keeps is the number of its relationships, however it was built and edited.
-/
import Mathlib.Data.List.Perm.Subperm
import Mathlib.Logic.Relation
import RecordRules.Proofs.Registry.Edits
import RecordRules.Proofs.Registry.Parts

namespace RecordRules

open Relation

/-! ## Registries that count their relationships -/

theorem Registry.graph_addFields {fs : List Field} {r r' : Registry}
    (h : Registry.addFields fs r = .ok r') : r'.graph = r.graph := by
  induction fs generalizing r with
  | nil =>
    cases h
    rfl
  | cons f rest ih =>
    unfold Registry.addFields at h
    split at h
    · cases h
    · split at h
      · cases h
      · exact (ih h).trans rfl

theorem Registry.indexed_ofSnapshot {s : Snapshot} {r : Registry} (h : ofSnapshot s = .ok r) :
    r.graph.Indexed := by
  unfold ofSnapshot at h
  obtain ⟨catalog, _, h⟩ := bind_ok h
  obtain ⟨graph, hgraph, h⟩ := bind_ok h
  rw [graph_addFields h]
  exact foldlM_ok (fun _ _ m _ hg hinsert => hg.insert hinsert) ModuleGraph.indexed_empty hgraph

theorem Registry.Edit.Does.indexed {r : Registry} {e : Edit} {catalog : Catalog}
    {graph : ModuleGraph} {fields : FieldTable} (h : e.Does r catalog graph fields)
    (hr : r.graph.Indexed) : graph.Indexed :=
  h.keeps_graph .create .rename .setRelationships .remove hr

/-- A registry is empty, or it was built from a snapshot. -/
def Registry.Started (r : Registry) : Prop := r = .empty ∨ ∃ s, ofSnapshot s = .ok r

theorem Registry.Grown.indexed {r : Registry} {allowed : Edit → Prop}
    (h : r.Grown Started allowed) : r.graph.Indexed := by
  induction h with
  | start h =>
    rcases h with rfl | ⟨s, hbuilt⟩
    · exact ModuleGraph.indexed_empty
    · exact indexed_ofSnapshot hbuilt
  | edit _ e _ hr ih => exact (Edit.does hr).indexed ih

/-- Modules from which relationships lead are no more than there are relationships. -/
theorem ModuleGraph.Indexed.length_le_relationshipCount {g : ModuleGraph} (h : g.Indexed)
    {ids : List ModuleId} (hids : ids.Nodup) (hfrom : ∀ id ∈ ids, g.relationshipsFrom id ≠ []) :
    ids.length ≤ g.relationshipCount := by
  have hcount (modules : List Module) : (modules.filter fun m => m.relationships ≠ []).length ≤
      (modules.flatMap fun m => m.relationships).length := by
    induction modules with
    | nil => exact Nat.le_refl _
    | cons m rest ih =>
      rw [List.flatMap_cons, List.length_append, List.filter_cons]
      split
      · next hsome =>
        have hpos := List.length_pos_iff.mpr (of_decide_eq_true hsome)
        rw [List.length_cons]
        omega
      · omega
  have hmodules : ids ⊆ (g.list.filter fun m => m.relationships ≠ []).map (·.id) := by
    intro id hid
    have hsome := hfrom id hid
    unfold relationshipsFrom at hsome
    cases hs : g.slot? id with
    | none =>
      rw [hs] at hsome
      exact absurd rfl hsome
    | some s =>
      obtain ⟨hslot, rfl⟩ := (slot?_eq_some_iff h).mp hs
      rw [hs, Option.map_some, Option.getD_some, h.outgoing s hslot] at hsome
      refine List.mem_map_of_mem (List.mem_filter.mpr ⟨mem_list.mpr ⟨s, hslot, rfl⟩, ?_⟩)
      exact decide_eq_true hsome
  calc ids.length
    _ ≤ ((g.list.filter fun m => m.relationships ≠ []).map (·.id)).length :=
      (hids.subperm hmodules).length_le
    _ = (g.list.filter fun m => m.relationships ≠ []).length := List.length_map _
    _ ≤ (g.list.flatMap fun m => m.relationships).length := hcount g.list
    _ = g.relationshipCount := h.count.symm

/-! ## Chains of modules -/

namespace Registry

/-- A relationship leads from a module to another. -/
def Leads (r : Registry) (a b : ModuleId) : Prop := ∃ rel ∈ r.relationshipsFrom a, rel.target = b

/-- One or more relationships lead from a module to another. -/
def LeadsOn (r : Registry) : ModuleId → ModuleId → Prop := TransGen r.Leads

/-- No module leads to itself, be it through others. -/
def Acyclic (r : Registry) : Prop := ∀ m, ¬TransGen r.Leads m m

/-- Modules lead on to a module.  They are listed from the last one back. -/
inductive Chain (r : Registry) : List ModuleId → ModuleId → Prop where
  | start (m : ModuleId) : Chain r [] m
  | next {passed : List ModuleId} {m m' : ModuleId} (h : Chain r passed m) (leads : r.Leads m m') :
      Chain r (m :: passed) m'

variable {r : Registry} {passed : List ModuleId} {m : ModuleId}

theorem Chain.leads_of_mem (h : r.Chain passed m) {a : ModuleId} (ha : a ∈ passed) :
    TransGen r.Leads a m := by
  induction h with
  | start m => exact absurd ha List.not_mem_nil
  | next _ leads ih =>
    rcases List.mem_cons.mp ha with rfl | ha
    · exact .single leads
    · exact (ih ha).tail leads

/-- Without cycles no module is passed twice. -/
theorem Chain.nodup (h : r.Chain passed m) (hacyclic : r.Acyclic) : passed.Nodup := by
  induction h with
  | start m => exact .nil
  | next hchain leads ih =>
    exact List.nodup_cons.mpr ⟨fun hmem => hacyclic _ (hchain.leads_of_mem hmem), ih⟩

theorem Chain.relationshipsFrom_ne_nil (h : r.Chain passed m) :
    ∀ a ∈ passed, r.relationshipsFrom a ≠ [] := by
  induction h with
  | start m => exact List.forall_mem_nil _
  | next _ leads ih =>
    obtain ⟨rel, hrel, _⟩ := leads
    exact List.forall_mem_cons.mpr ⟨List.ne_nil_of_mem hrel, ih⟩

/-- Without cycles a chain is no longer than there are relationships. -/
theorem Chain.length_le (h : r.Chain passed m) (hindexed : r.graph.Indexed)
    (hacyclic : r.Acyclic) : passed.length ≤ r.relationshipCount :=
  hindexed.length_le_relationshipCount (h.nodup hacyclic) h.relationshipsFrom_ne_nil

end Registry
end RecordRules
