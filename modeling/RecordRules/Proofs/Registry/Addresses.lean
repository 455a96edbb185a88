/-
Addresses in authored relationships.

The checks of the module graph are soundly described by what they let through: every address in a
rule or in a binding reads, those of targets lead into the target module, and a rule that needs a
target has one.  Edits keep this for all relationships, since it does not depend on what modules,
fields or data types there are.
-/
import RecordRules.Proofs.Registry.Edits
import RecordRules.Proofs.Registry.Parts

namespace RecordRules

/-! ## Addresses that lead somewhere -/

/-- A target address reads and leads into a module. -/
def Target.LeadsInto (address : String) (module : ModuleId) : Prop :=
  ∃ t, Target.parse address = .ok t ∧ t.module = module

def Source.Reads (text : String) : Prop := ∃ s, Source.parse text = .ok s

/-- The addresses in a binding are fit for a target module.  The target of a match is an address
only if it starts with a dollar sign. -/
structure Binding.Addressed (b : Binding) (target : ModuleId) : Prop where
  key : ∀ text, b.keySource? = some text → Source.Reads text
  field : ∀ key address body, b = .byMatch key address → address.toList = '$' :: body →
    Target.LeadsInto address target

structure Rule.Addressed (r : Rule) (module : ModuleId) : Prop where
  target : ∀ address, r.target = some address → Target.LeadsInto address module
  needed : r.action.needsTarget = true → r.target ≠ none
  source : ∀ text, r.source = some text → Source.Reads text
  binding : ∀ b, r.binding = some b → b.Addressed module

structure Relationship.Addressed (r : Relationship) : Prop where
  binding : r.binding.Addressed r.target
  rules : ∀ event, ∀ rule ∈ r.rules.get event, rule.Addressed r.target

/-! ## What the checks let through -/

namespace ModuleGraph

theorem checkTarget_ok {ε : Type} {badAddress : AddressError → ε}
    {outside : String → ModuleId → ε} {address : String} {target : ModuleId}
    (h : checkTarget badAddress outside address target = .ok ()) :
    Target.LeadsInto address target := by
  unfold checkTarget at h
  split at h
  · cases h
  · next t hparse =>
    split at h
    · next hmodule => exact ⟨t, hparse, hmodule⟩
    · cases h

theorem checkSource_ok {ε : Type} {badAddress : AddressError → ε} {text : String}
    (h : checkSource badAddress text = .ok ()) : Source.Reads text := by
  unfold checkSource at h
  split at h
  · cases h
  · next s hparse => exact ⟨s, hparse⟩

theorem checkBinding_ok {b : Binding} {target : ModuleId} (h : checkBinding b target = .ok ()) :
    b.Addressed target := by
  cases b with
  | sole | record _ | source => exact ⟨nofun, nofun⟩
  | foreignKey key =>
    refine ⟨?_, nofun⟩
    rintro text ⟨⟩
    exact checkSource_ok h
  | byMatch key field =>
    obtain ⟨_, hkey, hfield⟩ := bind_ok h
    refine ⟨?_, ?_⟩
    · rintro text ⟨⟩
      exact checkSource_ok hkey
    · rintro key' address body ⟨⟩ hbody
      unfold checkMatchTarget at hfield
      rw [hbody] at hfield
      exact checkTarget_ok hfield

/-- The checks of a rule, one after another. -/
theorem checkRule_eq (r : Rule) (target : ModuleId) :
    checkRule r target = (do
      r.target.elim (if r.action.needsTarget then .error (.missingTarget r.action) else .ok ())
        fun address => checkTarget .badAddress .outside address target
      r.source.elim (.ok ()) (checkSource .badAddress)
      r.binding.elim (.ok ()) fun b => (checkBinding b target).mapError .badBinding) := by
  unfold checkRule
  cases r.binding with
  | none => cases r.target <;> cases r.source <;> cases r.action.needsTarget <;> rfl
  | some b =>
    dsimp only [Option.elim]
    cases checkBinding b target with
    | error fault => cases r.target <;> cases r.source <;> cases r.action.needsTarget <;> rfl
    | ok _ => cases r.target <;> cases r.source <;> cases r.action.needsTarget <;> rfl

theorem checkRule_ok {r : Rule} {target : ModuleId} (h : checkRule r target = .ok ()) :
    r.Addressed target := by
  rw [checkRule_eq] at h
  obtain ⟨_, htarget, h⟩ := bind_ok h
  obtain ⟨_, hsource, hbinding⟩ := bind_ok h
  refine ⟨fun address haddress => ?_, fun hneeds hnone => ?_, fun text htext => ?_,
    fun b hb => ?_⟩
  · rw [haddress] at htarget
    exact checkTarget_ok htarget
  · rw [hnone, Option.elim, if_pos hneeds] at htarget
    cases htarget
  · rw [htext] at hsource
    exact checkSource_ok hsource
  · rw [hb, Option.elim] at hbinding
    refine checkBinding_ok ?_
    cases hcheck : checkBinding b target with
    | ok _ => rfl
    | error fault =>
      rw [hcheck] at hbinding
      cases hbinding

theorem checkRules_ok {event : Event} {target : ModuleId} {index : Nat} {rules : List Rule}
    (h : checkRules event target index rules = .ok ()) : ∀ r ∈ rules, r.Addressed target := by
  induction rules generalizing index with
  | nil => exact List.forall_mem_nil _
  | cons r rest ih =>
    unfold checkRules at h
    split at h
    · cases h
    · next hr => exact List.forall_mem_cons.mpr ⟨checkRule_ok hr, ih h⟩

theorem addressed_of_checkRelationship {g : ModuleGraph} {id : ModuleId} {r : Relationship}
    (h : g.checkRelationship id r = .ok ()) : r.Addressed := by
  unfold checkRelationship at h
  split at h
  · cases h
  · split at h
    · cases h
    · split at h
      · cases h
      · next hbinding =>
        obtain ⟨_, hcreate, h⟩ := bind_ok h
        obtain ⟨_, hupdate, hdelete⟩ := bind_ok h
        refine ⟨checkBinding_ok hbinding, fun event => ?_⟩
        cases event with
        | create => exact checkRules_ok hcreate
        | update => exact checkRules_ok hupdate
        | delete => exact checkRules_ok hdelete

/-! ## Addresses in a graph -/

/-- The relationships that the evaluator sees have addresses that lead somewhere. -/
def Addressed (g : ModuleGraph) : Prop := ∀ s, some s ∈ g.slots → ∀ r ∈ s.outgoing, r.Addressed

variable {g g' : ModuleGraph} {id : ModuleId} {name : String} {now : Int} {m : Module}

theorem mem_setSlot {s s' : Option Slot} (h : s' ∈ g.setSlot id s) : s' ∈ g.slots ∨ s' = s := by
  unfold setSlot at h
  split at h
  · exact List.mem_or_eq_of_mem_set h
  · exact Or.inl h

theorem Addressed.insert (hg : g.Addressed) (hm : ∀ r ∈ m.relationships, r.Addressed)
    (h : g.insert m = .ok g') : g'.Addressed := by
  obtain ⟨_, _, rfl⟩ := insert_ok h
  intro s hs
  rcases List.mem_append.mp hs with hs | hs
  · exact hg s hs
  · cases List.mem_singleton.mp hs
    exact hm

theorem Addressed.create (hg : g.Addressed) (h : g.create id name now = .ok (m, g')) :
    g'.Addressed := by
  obtain ⟨clean, rfl, hinsert⟩ := create_ok h
  exact hg.insert (List.forall_mem_nil _) hinsert

theorem Addressed.rename (hg : g.Addressed) (h : g.rename id name now = .ok (m, g')) :
    g'.Addressed := by
  obtain ⟨s, clean, hs, rfl, rfl⟩ := rename_ok h
  intro s' hs'
  rcases mem_setSlot hs' with hs' | hs'
  · exact hg s' hs'
  · cases hs'
    exact hg s (mem_slots_of_slot? hs)

theorem Addressed.remove (hg : g.Addressed) (h : g.remove id = .ok (m, g')) : g'.Addressed := by
  obtain ⟨s, _, _, rfl⟩ := remove_ok h
  intro s' hs'
  rcases mem_setSlot hs' with hs' | hs'
  · exact hg s' hs'
  · cases hs'

theorem Addressed.setRelationships {relationships : List Relationship} (hg : g.Addressed)
    (h : g.setRelationships id relationships now = .ok (m, g')) : g'.Addressed := by
  obtain ⟨hchecks, s, _, rfl, rfl⟩ := setRelationships_ok h
  intro s' hs'
  rcases mem_setSlot hs' with hs' | hs'
  · exact hg s' hs'
  · cases hs'
    exact fun r hr => addressed_of_checkRelationship (hchecks r hr)

theorem Addressed.relationshipsFrom (hg : g.Addressed) (id : ModuleId) :
    ∀ r ∈ g.relationshipsFrom id, r.Addressed := by
  unfold ModuleGraph.relationshipsFrom
  cases hs : g.slot? id with
  | none => exact List.forall_mem_nil _
  | some s => exact hg s (mem_slots_of_slot? hs)

end ModuleGraph

/-! ## Addresses in a registry -/

theorem Registry.Edit.Does.addressed {r : Registry} {e : Edit} {catalog : Catalog}
    {graph : ModuleGraph} {fields : FieldTable} (h : e.Does r catalog graph fields)
    (hr : r.graph.Addressed) : graph.Addressed :=
  h.keeps_graph .create .rename .setRelationships .remove hr

theorem Registry.Grown.addressed {r : Registry} {allowed : Edit → Prop}
    (h : r.Grown (· = .empty) allowed) : r.graph.Addressed := by
  induction h with
  | start h =>
    rw [h]
    exact fun s hs => absurd hs List.not_mem_nil
  | edit _ e _ hr ih => exact (Edit.does hr).addressed ih

end RecordRules
