/-
Chains of events.

Each event of a run is led to by as many modules as it is deep, one after another, and so is one
that a warning says lay too deep.  In a registry without cycles there are no longer chains than
there are relationships, so the limit that holds by default cuts nothing off.
-/
import RecordRules.Proofs.Evaluation.Depth

namespace RecordRules

section

variable {σ : Type}

/-- Modules lead on to the module of every event, as many as it is deep. -/
structure Run.Chained (s : Setting) (run : Run σ) : Prop where
  chain : ∀ l ∈ run.layers ++ run.limits, ∃ passed,
    s.registry.Chain passed l.1.1 ∧ passed.length = l.2
  deep : ∀ l ∈ run.limits, s.maxDepth < l.2

theorem Run.chained_root (s : Setting) (store : σ) (module : ModuleId) (event : Event)
    (record : Record) (outcomes : List Outcome) :
    (Run.root store module event record outcomes).Chained s where
  chain := List.forall_mem_singleton.mpr ⟨[], .start module, rfl⟩
  deep := List.forall_mem_nil _

variable [RecordStore σ] [LawfulRecordStore σ] {s : Setting} {rootMode : Mode} {run run' : Run σ}

theorem Run.Chained.step (h : run.Chained s) (hstep : RunStep s rootMode run run') :
    run'.Chained s := by
  rcases hstep.layers_cases with
    ⟨hlayers, hlimits⟩ | ⟨t, u, hcurrent, hleads, hdepth, hcases⟩
  · refine ⟨?_, ?_⟩
    · rw [hlayers, hlimits]
      exact h.chain
    · rw [hlimits]
      exact h.deep
  · have hu : ∃ passed, s.registry.Chain passed u.module ∧ passed.length = u.depth := by
      obtain ⟨passed, hchain, hlength⟩ := h.chain t.layer
        (List.mem_append_left _ (layer_mem_layers_of_current? hcurrent))
      refine ⟨t.module :: passed, hchain.next hleads, ?_⟩
      rw [List.length_cons, hlength, hdepth]
      rfl
    have hchain : ∀ l ∈ run'.layers ++ run'.limits,
        l ∈ run.layers ++ run.limits ∨ l = u.layer := by
      rcases hcases with ⟨_, hlayers, hlimits⟩ | ⟨_, hlayers, hlimits⟩ <;>
        simp +contextual [hlayers, hlimits, or_imp]
    refine ⟨fun l hl => ?_, fun l hl => ?_⟩
    · rcases hchain l hl with hl | rfl
      · exact h.chain l hl
      · exact hu
    · rcases hcases with ⟨hdeep, _, hlimits⟩ | ⟨_, _, hlimits⟩
      · rw [hlimits] at hl
        rcases List.mem_append.mp hl with hl | hl
        · exact h.deep l hl
        · rw [List.mem_singleton.mp hl]
          exact hdeep
      · rw [hlimits] at hl
        exact h.deep l hl

theorem Reaches.chained (hreaches : Reaches s rootMode run run') (h : run.Chained s) :
    run'.Chained s := by
  induction hreaches with
  | refl => exact h
  | tail _ hstep ih => exact ih.step hstep

/-- In a registry without cycles, every event is led to by a chain of modules as long as the event
is deep, which is no longer than there are relationships.  So with the limit that holds by default
there is no warning of an event that lay too deep. -/
theorem default_limit_cuts_nothing_off {registry : Registry}
    (hregistry : registry.Grown Registry.Started fun _ => True) (hacyclic : registry.Acyclic)
    (config : Config) (clock : Clock) (store : σ) (module : ModuleId) (event : Event)
    (record : Record) (prechecked : Option (List Outcome)) :
    (∀ u ∈ (evaluation registry config clock store module event record prechecked).evaluated,
      ∃ passed, registry.Chain passed u.module ∧ passed.length = u.depth ∧
        u.depth ≤ registry.relationshipCount) ∧
    (config.maxDepth = none → ∀ m id e depth, .cycleLimitExceeded m id e depth ∉
      (evaluate registry config clock store module event record prechecked).1.warnings) := by
  have hchained := (evaluation_reaches registry config clock store module event record
    prechecked).chained (Run.chained_root _ store module event record _)
  have hlength {passed : List ModuleId} {m : ModuleId} (h : registry.Chain passed m) :
      passed.length ≤ registry.relationshipCount := h.length_le hregistry.indexed hacyclic
  constructor
  · intro u hu
    obtain ⟨passed, hchain, hdepth⟩ := hchained.chain u.layer
      (List.mem_append_left _ (List.mem_map_of_mem (List.mem_append_left _ hu)))
    exact ⟨passed, hchain, hdepth, hdepth.ge.trans (hlength hchain)⟩
  · intro hnone m id e depth hwarned
    have hlimit := Run.mem_limits_iff (k := (m, id, e)).mpr hwarned
    obtain ⟨passed, hchain, hdepth⟩ := hchained.chain _ (List.mem_append_right _ hlimit)
    have hdeep : config.maxDepth.getD registry.relationshipCount < depth := hchained.deep _ hlimit
    have hpassed := hlength hchain
    rw [hnone, Option.getD_none] at hdeep
    dsimp only at hdepth
    omega

end

/-! ## A schema without cycles -/

namespace Sample

/-- Orders lead to stock, and stock leads nowhere. -/
def salesOnly : Snapshot :=
  { dataTypes := []
    modules := [⟨orders, "Orders", [sale], 0, 0⟩, ⟨stock, "Stock", [], 0, 0⟩]
    fields := [sold] }

def sales : Registry :=
  { catalog := .empty
    graph :=
      { slots := [some ⟨⟨orders, "Orders", [sale], 0, 0⟩, [sale]⟩,
          some ⟨⟨stock, "Stock", [], 0, 0⟩, []⟩]
        index := [(orders, 0), (stock, 1)]
        relationshipCount := 1 }
    fields := { byModule := [(stock, [sold])], owners := [(sold.id, stock)] }
    generation := 0 }

theorem sales_ofSnapshot : Registry.ofSnapshot salesOnly = .ok sales := by rfl

theorem sales_leads {a b : ModuleId} (h : sales.Leads a b) : a = orders ∧ b = stock := by
  obtain ⟨rel, hrel, rfl⟩ := h
  by_cases horders : a = orders
  · subst horders
    cases List.mem_singleton.mp hrel
    exact ⟨rfl, rfl⟩
  · have hnone : sales.relationshipsFrom a = [] := by
      by_cases hstock : a = stock
      · rw [hstock]
        rfl
      · have hget : List.lookup a sales.graph.index = none := by
          simp [List.lookup_cons, sales, beq_eq_false_iff_ne.mpr horders,
            beq_eq_false_iff_ne.mpr hstock]
        simp [Registry.relationshipsFrom, ModuleGraph.relationshipsFrom, ModuleGraph.slot?, hget]
    rw [hnone] at hrel
    exact absurd hrel List.not_mem_nil

theorem sales_leadsOn {a b : ModuleId} (h : sales.LeadsOn a b) : a = orders ∧ b = stock := by
  induction h with
  | single h => exact sales_leads h
  | tail _ h ih => exact ⟨ih.1, (sales_leads h).2⟩

theorem sales_acyclic : sales.Acyclic := by
  intro m h
  obtain ⟨rfl, hstock⟩ := sales_leadsOn h
  exact absurd hstock (by decide +kernel)

end Sample

/-- The one event below the new order reaches the limit and is not cut off. -/
theorem default_limit_cuts_nothing_off_on_sample :
    Sample.sales.Grown Registry.Started (fun _ => True) ∧ Sample.sales.Acyclic ∧
      let final := evaluation Sample.sales .standard (.steady 5 0)
        (⟨[Sample.item, Sample.other]⟩ : MemoryStore) Sample.orders .create Sample.order none
      final.evaluated.map Trigger.depth = [0, 1] ∧ Sample.sales.relationshipCount = 1 ∧
        (∀ u ∈ final.evaluated, ∃ passed, Sample.sales.Chain passed u.module ∧
          passed.length = u.depth ∧ u.depth ≤ Sample.sales.relationshipCount) ∧
        ∀ m id e depth, .cycleLimitExceeded m id e depth ∉ final.warnings := by
  have hgrown : Sample.sales.Grown Registry.Started fun _ => True :=
    .start (Or.inr ⟨_, Sample.sales_ofSnapshot⟩)
  have hcut := default_limit_cuts_nothing_off hgrown Sample.sales_acyclic .standard (.steady 5 0)
    (⟨[Sample.item, Sample.other]⟩ : MemoryStore) Sample.orders .create Sample.order none
  exact ⟨hgrown, Sample.sales_acyclic, by decide +kernel, rfl, hcut.1, hcut.2 rfl⟩

end RecordRules
