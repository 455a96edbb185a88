/-
Events are evaluated in layers.

The events that were evaluated and those that wait are one list that is sorted by depth, and what
is let in lies at most one level below the event that is being evaluated.  The outcomes follow the
events that they belong to.  So a report goes down layer by layer, and has the outcomes of an event
in one place.
-/
import RecordRules.Proofs.Evaluation.Checks
import RecordRules.Proofs.Evaluation.Depth

namespace RecordRules

/-! ## Layers -/

/-- The key of the event that an outcome belongs to. -/
def Outcome.key (o : Outcome) : EventKey := (o.module, o.record, o.event)

def Outcome.layer (o : Outcome) : EventKey × Nat := (o.key, o.depth)

theorem Outcome.Of.layer {o : Outcome} {s : Setting} {mode : Mode} {t : Trigger}
    (h : o.Of s mode t) : o.layer = t.layer := by
  obtain ⟨c, place, itemIndex, target, status, rfl⟩ := h
  rw [← place.trigger]
  rfl

theorem Happening.Causes.key_eq {h : Happening} {u v : Trigger} (hu : h.Causes u)
    (hv : h.Causes v) : v.key = u.key := by
  cases h with
  | evaluated t => exact hu.elim
  | changed module field w =>
    obtain ⟨_, hm, he, hr⟩ := hu
    obtain ⟨_, hm', he', hr'⟩ := hv
    rw [Trigger.key, Trigger.key, hm, he, hr, hm', he', hr']
  | deleted module r =>
    obtain ⟨hm, he, hr⟩ := hu
    obtain ⟨hm', he', hr'⟩ := hv
    rw [Trigger.key, Trigger.key, hm, he, hr, hm', he', hr']

namespace Run

variable {σ : Type} {s : Setting} {run run' : Run σ}

/-- The depth of the events that the rules of the event that is being evaluated cause. -/
def reach (run : Run σ) : Nat := (run.current?.map fun t => t.depth + 1).getD 0

/-- An event of a key was scheduled for the first time while another was being evaluated: then the
first change was made that it tells of, and a change is scheduled at once. -/
def FirstCaused (run : Run σ) (t : Trigger) (k : EventKey) : Prop :=
  ∃ before happening after u, run.history = before ++ happening :: after ∧
    (before.filterMap Happening.trigger?).getLast? = some t ∧
    (happening.Causes u ∧ u.key = k) ∧ ∀ h ∈ before, ∀ v, h.Causes v → v.key ≠ k

theorem FirstCaused.goesOn {t : Trigger} {k : EventKey} (h : run.FirstCaused t k)
    {hs : List Happening} (hhistory : run'.history = run.history ++ hs) : run'.FirstCaused t k := by
  obtain ⟨before, happening, after, u, hsplit, hfirst⟩ := h
  refine ⟨before, happening, after ++ hs, u, ?_, hfirst⟩
  rw [hhistory, hsplit, List.append_assoc, List.cons_append]

/-- What holds at every point of a run. -/
structure InLayers (s : Setting) (run : Run σ) : Prop where
  sorted : run.layers.Pairwise fun l m => l.2 ≤ m.2
  near : ∀ l ∈ run.layers, l.2 ≤ run.reach
  bounded : ∀ l ∈ run.layers, l.2 ≤ s.maxDepth
  limits : ∀ l ∈ run.limits, l.2 = s.maxDepth + 1
  /-- The event of a change was let in, or else it lay too deep, and so do all that are to come. -/
  known : ∀ h ∈ run.history, ∀ u, h.Causes u → u.key ∈ run.keys ∨ s.maxDepth < run.reach
  first : ∀ l ∈ run.layers, 0 < l.2 → ∃ t, t.depth + 1 = l.2 ∧ run.FirstCaused t l.1

theorem inLayers_root (s : Setting) (store : σ) (module : ModuleId) (event : Event)
    (record : Record) (outcomes : List Outcome) :
    (Run.root store module event record outcomes).InLayers s where
  sorted := List.pairwise_singleton ..
  near := List.forall_mem_singleton.mpr (Nat.zero_le _)
  bounded := List.forall_mem_singleton.mpr (Nat.zero_le _)
  limits := List.forall_mem_nil _
  known := List.forall_mem_nil _
  first := List.forall_mem_singleton.mpr fun h => absurd h (Nat.lt_irrefl 0)

/-- A run that goes on may let in events at its reach that had not been caused before, and notes
changes whose events are let in or lie too deep. -/
theorem InLayers.goesOn (h : run.InLayers s) (letIn : List (EventKey × Nat))
    (noted : List Happening) (hlayers : run'.layers = run.layers ++ letIn)
    (hhistory : run'.history = run.history ++ noted) (hreach : run.reach ≤ run'.reach)
    (hkeys : run.keys ⊆ run'.keys) (hlimits : ∀ l ∈ run'.limits, l.2 = s.maxDepth + 1)
    (hletIn : ∀ l ∈ letIn, l.2 = run.reach ∧ l.2 ≤ s.maxDepth ∧
      ∃ t, t.depth + 1 = l.2 ∧ run'.FirstCaused t l.1)
    (hnoted : ∀ e ∈ noted, ∀ u, e.Causes u → u.key ∈ run'.keys ∨ s.maxDepth < run'.reach) :
    run'.InLayers s where
  sorted := by
    rw [hlayers]
    refine List.pairwise_append.mpr ⟨h.sorted, ?_, fun l hl m hm => ?_⟩
    · refine List.pairwise_of_forall_mem_list fun l hl m hm => ?_
      rw [(hletIn l hl).1, (hletIn m hm).1]
    · rw [(hletIn m hm).1]
      exact h.near l hl
  near := by
    rw [hlayers]
    refine List.forall_mem_append.mpr ⟨fun l hl => (h.near l hl).trans hreach, fun l hl => ?_⟩
    rw [(hletIn l hl).1]
    exact hreach
  bounded := by
    rw [hlayers]
    exact List.forall_mem_append.mpr ⟨h.bounded, fun l hl => (hletIn l hl).2.1⟩
  limits := hlimits
  known := by
    rw [hhistory]
    refine List.forall_mem_append.mpr ⟨fun e he u hu => ?_, hnoted⟩
    exact (h.known e he u hu).imp (fun hk => hkeys hk) (·.trans_le hreach)
  first := by
    rw [hlayers]
    refine List.forall_mem_append.mpr ⟨fun l hl hdeep => ?_, fun l hl _ => (hletIn l hl).2.2⟩
    obtain ⟨t, ht, hfirst⟩ := h.first l hl hdeep
    exact ⟨t, ht, hfirst.goesOn hhistory⟩

theorem InLayers.of_idles (h : run.InLayers s) (hidle : run.Idles run') : run'.InLayers s := by
  have hreach : run'.reach = run.reach := by
    rw [reach, reach, current?_congr (evaluated_congr hidle.history)]
  have hkeys : run'.keys = run.keys := by rw [keys, keys, hidle.visited, hidle.queue]
  refine h.goesOn [] [] ?_ ?_ hreach.ge ?_ ?_ (List.forall_mem_nil _)
    (List.forall_mem_nil _)
  · rw [hidle.layers, List.append_nil]
  · rw [hidle.history, List.append_nil]
  · rw [hkeys]
    exact List.Subset.refl _
  · rw [hidle.limits]
    exact h.limits

/-- An event is not taken from the queue before those that lie higher. -/
theorem InLayers.reach_le_take (h : run.InLayers s) {t : Trigger} {rest : List Trigger}
    (hqueue : run.queue = t :: rest) : run.reach ≤ (run.take t rest).reach := by
  unfold reach
  rw [current?_take]
  cases hcurrent : run.current? with
  | none => exact Nat.zero_le _
  | some u =>
    have hsorted := h.sorted
    rw [layers, events, hqueue, List.map_append, List.pairwise_append] at hsorted
    have hevaluated : u.layer ∈ run.evaluated.map Trigger.layer :=
      List.mem_map_of_mem (List.mem_of_getLast? hcurrent)
    exact Nat.succ_le_succ (hsorted.2.2 u.layer hevaluated t.layer List.mem_cons_self)

theorem InLayers.take (h : run.InLayers s) {t : Trigger} {rest : List Trigger}
    (hqueue : run.queue = t :: rest) : (run.take t rest).InLayers s := by
  refine h.goesOn [] [.evaluated t] ?_ rfl (h.reach_le_take hqueue) ?_
    h.limits (List.forall_mem_nil _) (List.forall_mem_singleton.mpr fun _ hu => hu.elim)
  · rw [layers_take hqueue, List.append_nil]
  · rw [keys_take hqueue]
    exact List.Subset.refl _

/-- An event that is let in had not been told of before: else it would lie too deep. -/
theorem InLayers.firstCaused_wrote (h : run.InLayers s) {t u : Trigger} {happening : Happening}
    (hcurrent : run.current? = some t) (hcauses : happening.Causes u)
    (hreach : run.reach = u.depth) (hnew : u.key ∉ run.keys) (hhigh : u.depth ≤ s.maxDepth)
    (store : σ) (writes : Nat) (o : Outcome) :
    (run.wrote s store writes happening u o).FirstCaused t u.key := by
  refine ⟨run.history, happening, [], u, wrote_history .., hcurrent, ⟨hcauses, rfl⟩, ?_⟩
  intro e he v hv hkey
  rcases h.known e he v hv with hseen | hdeep
  · exact hnew (hkey ▸ hseen)
  · omega

theorem InLayers.wrote (h : run.InLayers s) {t u : Trigger} {happening : Happening}
    (hcurrent : run.current? = some t) (hcauses : happening.Causes u)
    (hdepth : u.depth = t.depth + 1) (store : σ) (writes : Nat) (o : Outcome) :
    (run.wrote s store writes happening u o).InLayers s := by
  have hreach : run.reach = u.depth := by
    rw [reach, hcurrent, hdepth]
    rfl
  have hreach' : (run.wrote s store writes happening u o).reach = run.reach := by
    rw [reach, reach, current?_congr (evaluated_wrote s run store writes hcauses o)]
  have hhistory := wrote_history s run store writes happening u o
  have hkeys : run.keys ⊆ (run.wrote s store writes happening u o).keys := by
    rcases keys_wrote s run store writes happening u o with hkeys | ⟨_, hkeys⟩
    · rw [hkeys]
      exact List.Subset.refl _
    · rw [hkeys]
      exact List.subset_append_left _ _
  have hnoted (hu : u.key ∈ (run.wrote s store writes happening u o).keys ∨ s.maxDepth < u.depth) :
      ∀ e ∈ [happening], ∀ v, e.Causes v → v.key ∈ (run.wrote s store writes happening u o).keys ∨
        s.maxDepth < (run.wrote s store writes happening u o).reach := by
    refine List.forall_mem_singleton.mpr fun v hv => ?_
    rw [hcauses.key_eq hv, hreach', hreach]
    exact hu
  rcases layers_wrote s hcauses store writes o with
    ⟨hseen, hlayers, hlimits⟩ | ⟨hdeep, hlayers, hlimits⟩ | ⟨hnew, hhigh, hadded, hlayers, hlimits⟩
  · refine h.goesOn [] [happening] ?_ hhistory hreach'.ge hkeys ?_ (List.forall_mem_nil _)
      (hnoted (Or.inl (hkeys hseen)))
    · rw [hlayers, List.append_nil]
    · rw [hlimits]
      exact h.limits
  · refine h.goesOn [] [happening] ?_ hhistory hreach'.ge hkeys ?_ (List.forall_mem_nil _)
      (hnoted (Or.inr hdeep))
    · rw [hlayers, List.append_nil]
    · rw [hlimits]
      refine List.forall_mem_append.mpr ⟨h.limits, List.forall_mem_singleton.mpr ?_⟩
      have ht : t.depth ≤ s.maxDepth := h.bounded t.layer (layer_mem_layers_of_current? hcurrent)
      show u.depth = s.maxDepth + 1
      omega
  · have hkey : u.key ∈ (run.wrote s store writes happening u o).keys := by
      rw [hadded]
      exact List.mem_append_right _ (List.mem_singleton_self _)
    refine h.goesOn [u.layer] [happening] hlayers hhistory hreach'.ge hkeys ?_ ?_
      (hnoted (Or.inl hkey))
    · rw [hlimits]
      exact h.limits
    · exact List.forall_mem_singleton.mpr ⟨hreach.symm, hhigh, t, hdepth.symm,
        h.firstCaused_wrote hcurrent hcauses hreach hnew hhigh store writes o⟩

section

variable [RecordStore σ] [LawfulRecordStore σ] {rootMode : Mode}

theorem InLayers.step (h : run.InLayers s) (hstep : RunStep s rootMode run run') :
    run'.InLayers s := by
  rcases hstep.cases with hidle | ⟨t, rest, hqueue, rfl⟩ | ⟨t, c, hcurrent, place, _, _, hwrite⟩
  · exact h.of_idles hidle
  · exact h.take hqueue
  · obtain ⟨store, writes, happening, u, o, rfl, he⟩ := hwrite.effect
    refine h.wrote hcurrent he.causes ?_ store writes o
    rw [he.depth, place.trigger]

theorem InLayers.reaches (h : run.InLayers s) (hreaches : Reaches s rootMode run run') :
    run'.InLayers s := by
  induction hreaches with
  | refl => exact h
  | tail _ hstep ih => exact ih.step hstep

end

/-! ## Outcomes in the order of their events -/

/-- The outcomes belong to events that were evaluated or to the root, and follow their order. -/
structure Ranked (run : Run σ) : Prop where
  placed : ∀ o ∈ run.outcomes, o.layer ∈ run.layers
  behind : ∀ o ∈ run.outcomes, run.layers.idxOf o.layer ≤ run.evaluated.length - 1
  sorted : run.outcomes.Pairwise fun o p => run.layers.idxOf o.layer ≤ run.layers.idxOf p.layer

theorem ranked_root (store : σ) {module : ModuleId} {event : Event} {record : Record}
    {outcomes : List Outcome} (h : ∀ o ∈ outcomes, o.layer = ((module, record.id, event), 0)) :
    (Run.root store module event record outcomes).Ranked := by
  have hlayers : (Run.root store module event record outcomes).layers =
      [((module, record.id, event), 0)] := rfl
  have hfirst : ∀ o ∈ outcomes,
      (Run.root store module event record outcomes).layers.idxOf o.layer = 0 := by
    intro o ho
    rw [hlayers, h o ho, List.idxOf_cons_self]
  refine ⟨fun o ho => ?_, fun o ho => ?_, ?_⟩
  · rw [hlayers, h o ho]
    exact List.mem_singleton_self _
  · rw [hfirst o ho]
    exact Nat.zero_le _
  · refine List.pairwise_of_forall_mem_list fun o ho p hp => ?_
    rw [hfirst o ho, hfirst p hp]

theorem Ranked.goesOn (h : run.Ranked) {letIn : List (EventKey × Nat)} {os : List Outcome}
    (hlayers : run'.layers = run.layers ++ letIn)
    (hevaluated : run.evaluated.length ≤ run'.evaluated.length)
    (houtcomes : run'.outcomes = run.outcomes ++ os)
    (hos : ∀ o ∈ os, o.layer ∈ run'.layers ∧
      run'.layers.idxOf o.layer = run'.evaluated.length - 1) :
    run'.Ranked := by
  have hsame : ∀ o ∈ run.outcomes, run'.layers.idxOf o.layer = run.layers.idxOf o.layer := by
    intro o ho
    rw [hlayers, List.idxOf_append_of_mem (h.placed o ho)]
  have hbehind : ∀ o ∈ run.outcomes, run'.layers.idxOf o.layer ≤ run'.evaluated.length - 1 := by
    intro o ho
    rw [hsame o ho]
    exact (h.behind o ho).trans (Nat.sub_le_sub_right hevaluated 1)
  refine ⟨?_, ?_, ?_⟩
  · rw [houtcomes]
    refine List.forall_mem_append.mpr ⟨fun o ho => ?_, fun o ho => (hos o ho).1⟩
    rw [hlayers]
    exact List.mem_append_left _ (h.placed o ho)
  · rw [houtcomes]
    exact List.forall_mem_append.mpr ⟨hbehind, fun o ho => (hos o ho).2.le⟩
  · rw [houtcomes]
    refine List.pairwise_append.mpr ⟨?_, ?_, fun o ho p hp => ?_⟩
    · refine h.sorted.imp_of_mem fun ho hp hle => ?_
      rw [hsame _ ho, hsame _ hp]
      exact hle
    · refine List.pairwise_of_forall_mem_list fun o ho p hp => ?_
      rw [(hos o ho).2, (hos p hp).2]
    · rw [(hos p hp).2]
      exact hbehind o ho

/-- The event that is being evaluated is the last of those that were. -/
theorem idxOf_layer_of_current? (hnodup : run.layers.Nodup) {t : Trigger}
    (h : run.current? = some t) : run.layers.idxOf t.layer = run.evaluated.length - 1 := by
  obtain ⟨before, hbefore⟩ := List.getLast?_eq_some_iff.mp h
  have hlayers :
      run.layers = before.map Trigger.layer ++ t.layer :: run.queue.map Trigger.layer := by
    rw [layers, events, hbefore, List.append_assoc, List.map_append]
    rfl
  have hnew : t.layer ∉ before.map Trigger.layer := by
    rw [hlayers] at hnodup
    exact fun hmem => (List.nodup_append.mp hnodup).2.2 _ hmem _ List.mem_cons_self rfl
  rw [hlayers, List.idxOf_append_of_notMem hnew, List.idxOf_cons_self, hbefore]
  simp

end Run

section

variable {σ : Type} [RecordStore σ] [LawfulRecordStore σ] {s : Setting} {rootMode : Mode}
  {run run' : Run σ}

/-- What is reported belongs to the event that is being evaluated. -/
theorem RunStep.outcomes (h : RunStep s rootMode run run') :
    run.evaluated.length ≤ run'.evaluated.length ∧
      ∃ os, run'.outcomes = run.outcomes ++ os ∧
        ∀ o ∈ os, ∃ t, run'.current? = some t ∧ o.layer = t.layer := by
  cases h with
  | @take t rest =>
    refine ⟨?_, [], (List.append_nil _).symm, List.forall_mem_nil _⟩
    rw [Run.evaluated_take, List.length_append]
    exact Nat.le_add_right _ _
  | @work _ t hcurrent step =>
    have hevaluated := step.evaluated
    obtain ⟨os, hos, hof⟩ := step.outcomes
    refine ⟨(congrArg List.length hevaluated).ge, os, hos, fun o ho => ⟨t, ?_, (hof o ho).layer⟩⟩
    rw [Run.current?_congr hevaluated]
    exact hcurrent

theorem Run.Ranked.step (h : run.Ranked) (hnodup : run'.layers.Nodup)
    (hstep : RunStep s rootMode run run') : run'.Ranked := by
  obtain ⟨hevaluated, os, hos, hof⟩ := hstep.outcomes
  obtain ⟨letIn, hlayers⟩ : ∃ letIn, run'.layers = run.layers ++ letIn := by
    rcases hstep.layers_cases with ⟨hlayers, _⟩ | ⟨_, u, _, _, _, ⟨_, hlayers, _⟩ | ⟨_, hlayers, _⟩⟩
    · exact ⟨[], by rw [hlayers, List.append_nil]⟩
    · exact ⟨[], by rw [hlayers, List.append_nil]⟩
    · exact ⟨[u.layer], hlayers⟩
  refine h.goesOn hlayers hevaluated hos fun o ho => ?_
  obtain ⟨t, hcurrent, hlayer⟩ := hof o ho
  rw [hlayer]
  exact ⟨layer_mem_layers_of_current? hcurrent, idxOf_layer_of_current? hnodup hcurrent⟩

theorem Run.Ranked.reaches {store : σ} {root : EventKey} (h : run.Ranked)
    (horderly : run.Orderly s.registry store root) (hreaches : Reaches s rootMode run run') :
    run'.Ranked := by
  induction hreaches with
  | refl => exact h
  | tail hreaches hstep ih =>
    exact ih.step ((horderly.reaches hreaches).step hstep).nodup_layers hstep

end

/-! ## Reports in layers -/

/-- A report goes down layer by layer to a limit.  The outcomes of an event are in one place, and
all that is cut off would have lain one level below the limit. -/
structure Report.Layered (r : Report) (maxDepth : Nat) : Prop where
  sorted : (r.outcomes.map Outcome.depth).Pairwise (· ≤ ·)
  bounded : ∀ o ∈ r.outcomes, o.depth ≤ maxDepth
  together : ∀ o p q, [o, p, q].Sublist r.outcomes → o.key = q.key → p.key = o.key
  level : ∀ o ∈ r.outcomes, ∀ p ∈ r.outcomes, o.key = p.key → o.depth = p.depth
  limits : ∀ module id event depth, .cycleLimitExceeded module id event depth ∈ r.warnings →
    depth = maxDepth + 1

/-- Along a sorted list, what stands first is no greater. -/
theorem le_of_idxOf_le {α : Type} [BEq α] [LawfulBEq α] {f : α → Nat} {l : List α}
    (h : l.Pairwise fun a b => f a ≤ f b) {a b : α} (ha : a ∈ l) (hb : b ∈ l)
    (hle : l.idxOf a ≤ l.idxOf b) : f a ≤ f b := by
  have hia := List.idxOf_lt_length_iff.mpr ha
  have hib := List.idxOf_lt_length_iff.mpr hb
  rcases hle.lt_or_eq with hlt | heq
  · have hpair := List.pairwise_iff_getElem.mp h _ _ hia hib hlt
    rwa [List.getElem_idxOf, List.getElem_idxOf] at hpair
  · rw [(List.idxOf_inj ha).mp heq]

namespace Run

variable {σ : Type} {s : Setting} {run : Run σ}

theorem InLayers.layered (h : run.InLayers s) (hranked : run.Ranked)
    (hkeys : (run.layers.map Prod.fst).Nodup) : run.report.Layered s.maxDepth := by
  have hlayer : ∀ o ∈ run.outcomes, ∀ p ∈ run.outcomes, o.key = p.key → o.layer = p.layer :=
    fun o ho p hp => List.inj_on_of_nodup_map hkeys (hranked.placed o ho) (hranked.placed p hp)
  refine ⟨?_, fun o ho => h.bounded _ (hranked.placed o ho), fun o p q hsub hkey => ?_,
    fun o ho p hp hkey => congrArg Prod.snd (hlayer o ho p hp hkey), fun m id e depth hwarned => ?_⟩
  · refine List.pairwise_map.mpr (hranked.sorted.imp_of_mem fun {o p} ho hp hle => ?_)
    exact le_of_idxOf_le (f := Prod.snd) h.sorted (hranked.placed o ho) (hranked.placed p hp) hle
  · -- What stands between two outcomes of an event has its rank between theirs, which are the same.
    have hmem : ∀ r ∈ [o, p, q], r ∈ run.outcomes := fun r hr => hsub.subset hr
    have hp := hmem p (by simp)
    have hsorted := hranked.sorted.sublist hsub
    have hop := List.rel_of_pairwise_cons hsorted (List.mem_cons_self (l := [q]))
    have hpq := List.rel_of_pairwise_cons hsorted.tail (List.mem_singleton_self q)
    rw [← hlayer o (hmem o (by simp)) q (hmem q (by simp)) hkey] at hpq
    have hrank := Nat.le_antisymm hpq hop
    exact congrArg Prod.fst ((List.idxOf_inj (hranked.placed p hp)).mp hrank)
  · exact h.limits _ (mem_limits_iff (k := (m, id, e)).mpr hwarned)

/-- A run at its end has gone down layer by layer to a limit: its report tells so, and every event
below the root was first scheduled by one that lies a level above it. -/
structure Layered (run : Run σ) (maxDepth : Nat) : Prop where
  report : run.report.Layered maxDepth
  caused : ∀ u ∈ run.evaluated, 0 < u.depth →
    ∃ t, t.depth + 1 = u.depth ∧ run.FirstCaused t u.key

end Run

/-- An evaluation goes down layer by layer, if the outcomes that it is given are of the root. -/
theorem evaluation_layered {σ : Type} [RecordStore σ] [LawfulRecordStore σ] (registry : Registry)
    (config : Config) (clock : Clock) (store : σ) (module : ModuleId) (event : Event)
    (record : Record) (prechecked : Option (List Outcome))
    (hroot : ∀ o ∈ prechecked.getD [], o.layer = ((module, record.id, event), 0)) :
    (evaluation registry config clock store module event record prechecked).Layered
      (config.maxDepth.getD registry.relationshipCount) := by
  have horderly := evaluation_orderly registry config clock store module event record prechecked
  have hreaches := evaluation_reaches registry config clock store module event record prechecked
  have hlayers := (Run.inLayers_root (.ofRoot registry config clock) store module event record
    (prechecked.getD [])).reaches hreaches
  have hranked := (Run.ranked_root store hroot).reaches
    (Run.orderly_root registry store module event record _) hreaches
  refine ⟨hlayers.layered hranked ?_, fun u hu => ?_⟩
  · rw [Run.map_fst_layers horderly.visited]
    exact horderly.nodup
  · exact hlayers.first u.layer (List.mem_map_of_mem (List.mem_append_left _ hu))

end RecordRules
