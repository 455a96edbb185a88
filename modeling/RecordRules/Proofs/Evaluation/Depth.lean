/-
How deep the events of a run lie.

The event of a change lies one level below the event whose rule made the change, and it keeps its
depth while it waits.  So the keys and the depths of the events of a run are a list that only grows
at its end, and an event that is not let in is one that lies too deep or has been let in before.
-/
import RecordRules.Proofs.Evaluation.Propagation
import RecordRules.Proofs.Registry.Leads

namespace RecordRules

/-- The key of an event and its depth. -/
def Trigger.layer (t : Trigger) : EventKey × Nat := (t.key, t.depth)

namespace Run

variable {σ : Type} {run run' : Run σ}

/-! ## The layers of a run -/

/-- The keys and the depths of the events that were evaluated or wait. -/
def layers (run : Run σ) : List (EventKey × Nat) := run.events.map Trigger.layer

theorem map_fst_layers (hvisited : run.evaluated.map Trigger.key = run.visited) :
    run.layers.map Prod.fst = run.keys := by
  have hkeys : Prod.fst ∘ Trigger.layer = Trigger.key := rfl
  rw [layers, events, List.map_map, hkeys, List.map_append, hvisited, keys]

theorem Orderly.nodup_layers [RecordStore σ] {registry : Registry} {store : σ} {root : EventKey}
    (h : run.Orderly registry store root) : run.layers.Nodup := by
  refine List.Nodup.of_map Prod.fst ?_
  rw [map_fst_layers h.visited]
  exact h.nodup

theorem layer_mem_layers_of_current? {t : Trigger} (h : run.current? = some t) :
    t.layer ∈ run.layers :=
  List.mem_map_of_mem (List.mem_append_left _ (List.mem_of_getLast? h))

theorem Idles.layers (h : run.Idles run') : run'.layers = run.layers := by
  rw [Run.layers, Run.layers, events, events, evaluated_congr h.history, h.queue]

theorem layers_take {t : Trigger} {rest : List Trigger} (hqueue : run.queue = t :: rest) :
    (run.take t rest).layers = run.layers :=
  congrArg (List.map Trigger.layer) (events_take hqueue)

theorem map_layer_absorb (t : Trigger) (queue : List Trigger) :
    (absorb t queue).map Trigger.layer = queue.map Trigger.layer := by
  have hdepth : (absorb t queue).map Trigger.depth = queue.map Trigger.depth := by
    unfold absorb
    rw [List.map_map]
    refine List.map_congr_left fun u _ => ?_
    rw [Function.comp_apply]
    split <;> rfl
  have hzip (l : List Trigger) :
      l.map Trigger.layer = (l.map Trigger.key).zip (l.map Trigger.depth) :=
    (List.zip_map' ..).symm
  rw [hzip, hzip, map_key_absorb, hdepth]

/-- The event of a change has a key that was let in before, or it lies too deep, or it is let in. -/
theorem layers_wrote (s : Setting) {happening : Happening} {u : Trigger}
    (hcauses : happening.Causes u) (store : σ) (writes : Nat) (o : Outcome) :
    (u.key ∈ run.keys ∧ (run.wrote s store writes happening u o).layers = run.layers ∧
        (run.wrote s store writes happening u o).limits = run.limits) ∨
      (s.maxDepth < u.depth ∧ (run.wrote s store writes happening u o).layers = run.layers ∧
        (run.wrote s store writes happening u o).limits = run.limits ++ [u.layer]) ∨
      (u.key ∉ run.keys ∧ u.depth ≤ s.maxDepth ∧
        (run.wrote s store writes happening u o).keys = run.keys ++ [u.key] ∧
        (run.wrote s store writes happening u o).layers = run.layers ++ [u.layer] ∧
        (run.wrote s store writes happening u o).limits = run.limits) := by
  unfold layers events limits keys
  rw [evaluated_wrote s run store writes hcauses o, wrote_visited]
  simp only [List.map_append, List.mem_append, not_or]
  rcases wrote_cases s run store writes happening u o with
    ⟨hwaits, hq, hw⟩ | ⟨_, hdeep, hq, hw⟩ | ⟨_, _, hseen, hq, hw⟩ | ⟨hfree, hdepth, hnew, hq, hw⟩
  · rw [hq, hw, map_layer_absorb]
    exact Or.inl ⟨Or.inr hwaits, rfl, rfl⟩
  · rw [hq, hw, List.filterMap_append]
    exact Or.inr (Or.inl ⟨hdeep, rfl, rfl⟩)
  · rw [hq, hw, List.filterMap_append]
    exact Or.inl ⟨Or.inl hseen, rfl, List.append_nil _⟩
  · rw [hq, hw, List.map_append, List.map_append, List.append_assoc, List.append_assoc]
    exact Or.inr (Or.inr ⟨⟨hnew, hfree⟩, hdepth, rfl, rfl, rfl⟩)

end Run

section

variable {σ : Type} [RecordStore σ] {s : Setting} {run run' : Run σ}

theorem Scope.InPlace.leads {c : Scope} {mode : Mode} {t : Trigger} (h : c.InPlace s mode t) :
    s.registry.Leads t.module c.target :=
  ⟨c.relationship, List.mem_of_getElem? h.relationship, rfl⟩

/-- A step lets in at most one event, one level below the one that is being evaluated and in a
module that it leads to.  An event that a warning says lay too deep is such an event as well. -/
theorem RunStep.layers_cases [LawfulRecordStore σ] {rootMode : Mode}
    (h : RunStep s rootMode run run') :
    (run'.layers = run.layers ∧ run'.limits = run.limits) ∨
      ∃ t u : Trigger, run.current? = some t ∧ s.registry.Leads t.module u.module ∧
        u.depth = t.depth + 1 ∧
        ((s.maxDepth < u.depth ∧ run'.layers = run.layers ∧ run'.limits = run.limits ++ [u.layer]) ∨
          (u.depth ≤ s.maxDepth ∧ run'.layers = run.layers ++ [u.layer] ∧
            run'.limits = run.limits)) := by
  rcases h.cases with hidle | ⟨t, rest, hqueue, rfl⟩ | ⟨t, c, hcurrent, place, _, _, hwrite⟩
  · exact Or.inl ⟨hidle.layers, hidle.limits⟩
  · exact Or.inl ⟨Run.layers_take hqueue, rfl⟩
  · obtain ⟨store, writes, happening, u, o, rfl, he⟩ := hwrite.effect
    have hleads : s.registry.Leads t.module u.module := by
      rw [he.module]
      exact place.leads
    have hdepth : u.depth = t.depth + 1 := by
      rw [he.depth, place.trigger]
    rcases Run.layers_wrote s he.causes store writes o with
      ⟨_, hsame⟩ | hdeep | ⟨_, hhigh, _, hnew⟩
    · exact Or.inl hsame
    · exact Or.inr ⟨t, u, hcurrent, hleads, hdepth, Or.inl hdeep⟩
    · exact Or.inr ⟨t, u, hcurrent, hleads, hdepth, Or.inr ⟨hhigh, hnew⟩⟩

end

end RecordRules
