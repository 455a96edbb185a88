/-
A rule that changes nothing.

If a rule changes no record in the whole run of an event, the run goes on as if the rule had been
one of an action that is not known.  The two runs are followed side by side: they are twins at
every point, whatever the rule reported on its way out.
-/
import RecordRules.Proofs.Evaluation.Termination
import RecordRules.Proofs.Evaluation.Twin

namespace RecordRules

open Relation

/-! ## Putting a rule in the place of another -/

def RuleLists.replace (lists : RuleLists) (event : Event) (index : Nat) (rule : Rule) : RuleLists :=
  match event with
  | .create => { lists with onCreate := lists.onCreate.set index rule }
  | .update => { lists with onUpdate := lists.onUpdate.set index rule }
  | .delete => { lists with onDelete := lists.onDelete.set index rule }

theorem RuleLists.get_replace_self (lists : RuleLists) (event : Event) (index : Nat) (rule : Rule) :
    (lists.replace event index rule).get event = (lists.get event).set index rule := by
  cases event <;> rfl

theorem RuleLists.get_replace_of_ne (lists : RuleLists) {event other : Event} (h : other ≠ event)
    (index : Nat) (rule : Rule) : (lists.replace event index rule).get other = lists.get other := by
  cases event <;> cases other <;> first | rfl | exact absurd rfl h

/-- The relationship at some place in a schema that has another rule at a place of its own. -/
def RulePlace.replaced (p : RulePlace) (rule : Rule) (module : ModuleId) (index : Nat)
    (r : Relationship) : Relationship :=
  if module = p.module ∧ index = p.relationship then
    { r with rules := r.rules.replace p.event p.rule rule }
  else r

/-- Two schemas differ in nothing but the rule at a place. -/
structure Registry.ReplacesRule (registry registry' : Registry) (p : RulePlace) (rule : Rule) :
    Prop where
  catalog : registry'.catalog = registry.catalog
  fields : registry'.fields = registry.fields
  generation : registry'.generation = registry.generation
  index : registry'.graph.index = registry.graph.index
  count : registry'.relationshipCount = registry.relationshipCount
  relationships : ∀ module, registry'.relationshipsFrom module =
    (registry.relationshipsFrom module).mapIdx (p.replaced rule module)

/-- The lists of rules of a relationship agree, but for the place of the rule. -/
theorem RulePlace.replaced_rules (p : RulePlace) (rule : Rule) (module : ModuleId) (index : Nat)
    (r : Relationship) (event : Event) (i : Nat) :
    (⟨module, index, event, i⟩ ≠ p →
        ((p.replaced rule module index r).rules.get event)[i]? = (r.rules.get event)[i]?) ∧
      (⟨module, index, event, i⟩ = p → ∀ found,
        ((p.replaced rule module index r).rules.get event)[i]? = some found → found = rule) := by
  unfold replaced
  by_cases hplace : module = p.module ∧ index = p.relationship
  · rw [if_pos hplace]
    by_cases hevent : event = p.event
    · subst hevent
      rw [RuleLists.get_replace_self]
      constructor
      · intro hne
        rw [List.getElem?_set_ne]
        rintro rfl
        exact hne (by rw [hplace.1, hplace.2])
      · intro heq found hfound
        have hi : i = p.rule := congrArg RulePlace.rule heq
        rw [hi, List.getElem?_set_self', Option.map_eq_map, Option.map_eq_some_iff] at hfound
        obtain ⟨_, _, rfl⟩ := hfound
        rfl
    · rw [RuleLists.get_replace_of_ne _ hevent]
      refine ⟨fun _ => rfl, ?_⟩
      rintro rfl
      exact absurd rfl hevent
  · rw [if_neg hplace]
    refine ⟨fun _ => rfl, ?_⟩
    rintro rfl
    exact absurd ⟨rfl, rfl⟩ hplace

theorem RulePlace.replaced_length (p : RulePlace) (rule : Rule) (module : ModuleId) (index : Nat)
    (r : Relationship) (event : Event) :
    ((p.replaced rule module index r).rules.get event).length = (r.rules.get event).length := by
  unfold replaced
  split
  · by_cases hevent : event = p.event
    · rw [hevent, RuleLists.get_replace_self, List.length_set]
    · rw [RuleLists.get_replace_of_ne _ hevent]
  · rfl

theorem RulePlace.replaced_eq (p : RulePlace) (rule : Rule) (module : ModuleId) (index : Nat)
    (r : Relationship) :
    p.replaced rule module index r =
      { r with rules := (p.replaced rule module index r).rules } := by
  unfold replaced
  split <;> rfl

section

variable {σ : Type}

/-! ## Going on -/

namespace Run

/-- A run that goes on keeps its outcomes, and a time that is up stays up. -/
structure GoesOn (run run' : Run σ) : Prop where
  outcomes : run.outcomes ⊆ run'.outcomes
  timedOut : run.timedOut = true → run'.timedOut = true

namespace GoesOn

variable {run run' run'' : Run σ}

theorem refl (run : Run σ) : run.GoesOn run := ⟨List.Subset.refl _, id⟩

theorem trans (h : run.GoesOn run') (h' : run'.GoesOn run'') : run.GoesOn run'' :=
  ⟨List.Subset.trans h.outcomes h'.outcomes, h'.timedOut ∘ h.timedOut⟩

theorem emit (run : Run σ) (o : Outcome) : run.GoesOn (run.emit o) :=
  ⟨List.subset_append_left _ _, id⟩

theorem warn (run : Run σ) (w : Warning) : run.GoesOn (run.warn w) :=
  ⟨List.Subset.refl _, id⟩

theorem take (t : Trigger) (rest : List Trigger) (run : Run σ) : run.GoesOn (run.take t rest) :=
  ⟨List.Subset.refl _, id⟩

theorem lookAtClock (s : Setting) (run : Run σ) : run.GoesOn (run.lookAtClock s) := by
  refine ⟨?_, fun hup => ?_⟩
  · obtain ⟨looks, timedOut, ws, h⟩ := lookAtClock_eq s run
    rw [h]
    exact List.Subset.refl _
  · unfold Run.lookAtClock
    rw [if_pos hup]
    exact hup

end GoesOn

/-- Looking at the clock in time leaves no trace but the look. -/
theorem lookAtClock_inTime {s : Setting} {run : Run σ}
    (h : (run.lookAtClock s).timedOut = false) :
    run.lookAtClock s = { run with looks := run.looks + 1 } := by
  unfold Run.lookAtClock at h ⊢
  by_cases hup : run.timedOut = true
  · rw [if_pos hup, hup] at h
    cases h
  · rw [if_neg hup] at h ⊢
    dsimp only at h ⊢
    split at h
    · cases h
    · next hlate => rw [if_neg hlate]

end Run

section

variable [RecordStore σ]

theorem RuleStep.goesOn {s : Setting} {c : Scope} {run run' : Run σ} (h : RuleStep s c run run') :
    run.GoesOn run' := by
  refine ⟨?_, fun hup => h.timedOut.trans hup⟩
  cases h with
  | quiet writes itemIndex target _ => exact List.subset_append_left _ _
  | write hwrite =>
    cases hwrite with
    | change =>
      rw [Run.wrote_outcomes]
      exact List.subset_append_left _ _
    | delete =>
      rw [Run.wrote_outcomes]
      exact List.subset_append_left _ _

theorem ruleSteps_goesOn {s : Setting} {c : Scope} {run run' : Run σ}
    (h : ReflTransGen (RuleStep s c) run run') : run.GoesOn run' := by
  induction h with
  | refl => exact .refl _
  | tail _ step ih => exact ih.trans step.goesOn

variable [LawfulRecordStore σ] (s : Setting) (mode : Mode) (t : Trigger)

theorem runRule_goesOn (c : Scope) (run : Run σ) : run.GoesOn (runRule s c run) := by
  refine (Run.GoesOn.lookAtClock s run).trans ?_
  generalize h : runRule s c run = run'
  cases runRule_runs h with
  | late | gone => exact .emit _ _
  | applied => exact ruleSteps_goesOn (applyRule_steps _)

theorem runRules_goesOn (fields : List Field) (relationshipIndex : Nat) (r : Relationship)
    (index : Nat) (rules : List Rule) (run : Run σ) :
    run.GoesOn (runRules s mode t fields relationshipIndex r index rules run) :=
  runRules_keeps s (fun _ _ _ _ run' h => h.trans (runRule_goesOn s _ run')) (.refl run)

theorem runRelationships_goesOn (fields : List Field) (index : Nat)
    (relationships : List Relationship) (run : Run σ) :
    run.GoesOn (runRelationships s mode t fields index relationships run) :=
  runRelationships_keeps s (fun _ _ _ _ _ run' h => h.trans (.warn run' _))
    (fun _ _ _ _ _ _ _ run' h => h.trans (runRule_goesOn s _ run')) (.refl run)

theorem drain_goesOn (rootMode : Mode) (rounds : Nat) (run : Run σ) :
    run.GoesOn (drain s rootMode rounds run) :=
  drain_keeps s (fun t rest run' _ h =>
    (h.trans (.take t rest run')).trans (runRelationships_goesOn s _ t _ 0 _ _)) rounds (.refl run)

end

/-! ## Following a run in which a rule changes nothing -/

/-- The time did not run out, and no outcome of the rule tells of a change. -/
structure Run.Calm (p : RulePlace) (run : Run σ) : Prop where
  inTime : run.timedOut = false
  quiet : ∀ o ∈ run.outcomes, o.place = p → o.status ≠ .applied true

theorem Run.GoesOn.inTime {run run' : Run σ} (h : run.GoesOn run')
    (hlater : run'.timedOut = false) : run.timedOut = false := by
  cases htimed : run.timedOut with
  | false => rfl
  | true =>
    rw [h.timedOut htimed] at hlater
    cases hlater

theorem Run.Calm.of_goesOn {p : RulePlace} {run run' : Run σ} (h : run'.Calm p)
    (hgoes : run.GoesOn run') : run.Calm p :=
  ⟨hgoes.inTime h.inTime, fun o ho => h.quiet o (hgoes.outcomes ho)⟩

/-- The first function, if the rule changes nothing under it, does to the run what the second does
to its twins, as long as the time does not run out there either. -/
def Follows (p : RulePlace) (k : Clock) (f : Run σ → Run σ) (f' : Clock → Run σ → Run σ)
    (run : Run σ) : Prop :=
  (f run).Calm p → ∃ ns, Numbers run.writes (f run).writes ns ∧
    ∀ k' run', run.Twin p run' → k.Repeats ns k' run'.writes → (f' k' run').timedOut = false →
      (f run).Twin p (f' k' run') ∧ (f' k' run').writes = run'.writes + ns.length

namespace Follows

variable {p : RulePlace} {k : Clock} {f g : Run σ → Run σ} {f' g' : Clock → Run σ → Run σ}
  {run : Run σ}

theorem of_copies (h : Copies p k f f' run) : Follows p k f f' run := fun _ => by
  obtain ⟨ns, hns, hf⟩ := h
  exact ⟨ns, hns, fun k' run' htwin hclock _ => hf k' run' htwin hclock⟩

theorem comp (hf : Follows p k f f' run) (hg : Follows p k g g' (f run))
    (hgoes : (f run).GoesOn (g (f run))) (hgoes' : ∀ k' (r : Run σ), r.GoesOn (g' k' r)) :
    Follows p k (fun r => g (f r)) (fun k' r => g' k' (f' k' r)) run := by
  intro hcalm
  obtain ⟨ns, hns, hf⟩ := hf (hcalm.of_goesOn hgoes)
  obtain ⟨ms, hms, hg⟩ := hg hcalm
  refine ⟨ns ++ ms, hns.append hms, fun k' run' htwin hclock htime => ?_⟩
  obtain ⟨hfirst, hsecond⟩ := hclock.append
  obtain ⟨htwin', hwrites⟩ := hf k' run' htwin hfirst ((hgoes' k' _).inTime htime)
  rw [← hwrites] at hsecond
  obtain ⟨htwin'', hwrites'⟩ := hg k' _ htwin' hsecond htime
  refine ⟨htwin'', ?_⟩
  rw [hwrites', hwrites, List.length_append, Nat.add_assoc]

theorem congr (hg : Follows p k g g' run) (hf : f run = g run)
    (hf' : ∀ k' run', run.Twin p run' → f' k' run' = g' k' run') : Follows p k f f' run := by
  intro hcalm
  rw [hf] at hcalm
  obtain ⟨ns, hns, hg⟩ := hg hcalm
  rw [← hf] at hns
  refine ⟨ns, hns, fun k' run' htwin hclock htime => ?_⟩
  rw [hf, hf' k' run' htwin]
  rw [hf' k' run' htwin] at htime
  exact hg k' run' htwin hclock htime

/-- Functions that only differ in what they report of the rule. -/
theorem of_hidden (hf : (f run).Calm p → run.Twin p (f run) ∧ run.writes ≤ (f run).writes)
    (hf' : ∀ k' run', (f' k' run').timedOut = false →
      run'.Twin p (f' k' run') ∧ (f' k' run').writes = run'.writes) : Follows p k f f' run := by
  intro hcalm
  obtain ⟨hfirst, hwrites⟩ := hf hcalm
  refine ⟨[], .nil hwrites, fun k' run' htwin _ htime => ?_⟩
  obtain ⟨hsecond, hsame⟩ := hf' k' run' htime
  exact ⟨hfirst.symm.trans (htwin.trans hsecond), hsame⟩

theorem same (run : Run σ) : Follows p k (fun r => r) (fun _ r => r) run :=
  of_copies (.of_twin rfl fun _ _ htwin => ⟨htwin, rfl⟩)

end Follows

/-! ## Rules in turn -/

variable {p : RulePlace} {s : Setting} {g : ModuleGraph}

theorem follows_lookAtClock (run : Run σ) :
    Follows p s.clock (fun r => r.lookAtClock s) (fun k r => r.lookAtClock (s.beside g k)) run := by
  refine fun hcalm => ⟨[], .nil (Nat.le_of_eq ?_), fun k' run' htwin _ htime => ?_⟩
  · dsimp only
    rw [Run.lookAtClock_inTime hcalm.inTime]
  · dsimp only at htime ⊢
    rw [Run.lookAtClock_inTime hcalm.inTime, Run.lookAtClock_inTime htime]
    exact ⟨⟨htwin.store, htwin.queue, htwin.visited, htwin.warnings, htwin.others⟩, rfl⟩

variable [RecordStore σ]

/-- What a rule does at its turn, after the look at the clock. -/
def runInTime (s : Setting) (c : Scope) (run : Run σ) : Run σ :=
  if s.registry.hasModule c.target then applyRule s c run
  else run.emit (c.outcome none none (.skipped (.notFound (.module c.target))))

theorem runRule_inTime {c : Scope} {run : Run σ} (h : (runRule s c run).timedOut = false) :
    (run.lookAtClock s).timedOut = false ∧
      runRule s c run = runInTime s c (run.lookAtClock s) := by
  generalize hrun : runRule s c run = run' at h ⊢
  cases runRule_runs hrun with
  | late hlate => cases h.symm.trans hlate
  | applied hearly hhome => exact ⟨hearly, (if_pos hhome).symm⟩
  | gone hearly hgone => exact ⟨hearly, (if_neg (Bool.eq_false_iff.mp hgone)).symm⟩

theorem Write.told {c : Scope} {run run' : Run σ} (h : Write s c run run') :
    ∃ item target, c.outcome item target (.applied true) ∈ run'.outcomes := by
  cases h with
  | @change _ id _ _ _ itemIndex =>
    refine ⟨itemIndex, some id, ?_⟩
    rw [Run.wrote_outcomes]
    exact List.mem_append_right _ (List.mem_singleton_self _)
  | @delete _ id _ itemIndex =>
    refine ⟨itemIndex, some id, ?_⟩
    rw [Run.wrote_outcomes]
    exact List.mem_append_right _ (List.mem_singleton_self _)

/-- The steps of a rule that changes nothing leave a twin. -/
theorem twin_of_quiet {c : Scope} (hplace : ∀ item target status,
    (c.outcome item target status).place = p) {run run' : Run σ}
    (h : ReflTransGen (RuleStep s c) run run')
    (hquiet : ∀ o ∈ run'.outcomes, o.place = p → o.status ≠ .applied true) : run.Twin p run' := by
  induction h with
  | refl => exact .refl p run
  | tail _ step ih =>
    have hbefore := ih fun o ho => hquiet o (step.goesOn.outcomes ho)
    cases step with
    | quiet writes itemIndex target _ =>
      exact hbefore.trans (.emit_hidden _ writes (hplace itemIndex target _))
    | write hwrite =>
      obtain ⟨item, target, htold⟩ := hwrite.told
      exact absurd rfl (hquiet _ htold (hplace item target _))

variable [LawfulRecordStore σ]

theorem runInTime_goesOn (s : Setting) (c : Scope) (run : Run σ) :
    run.GoesOn (runInTime s c run) := by
  unfold runInTime
  split
  · exact ruleSteps_goesOn (applyRule_steps _)
  · exact .emit _ _

omit [RecordStore σ] [LawfulRecordStore σ] in
theorem hasModule_beside (hindex : g.index = s.registry.graph.index) (k : Clock)
    (module : ModuleId) :
    (s.beside g k).registry.hasModule module = s.registry.hasModule module := by
  unfold Registry.hasModule ModuleGraph.contains Setting.beside
  rw [hindex]

/-- A rule that stands in both schemas. -/
theorem follows_runRule (hindex : g.index = s.registry.graph.index) (c : Scope)
    (rules : RuleLists) (run : Run σ) :
    Follows p s.clock (fun r => runRule s c r)
      (fun k r => runRule (s.beside g k) (c.relisted rules) r) run := by
  have hafter : Follows p s.clock (fun r => runInTime s c r)
      (fun k r => runInTime (s.beside g k) (c.relisted rules) r) (run.lookAtClock s) := by
    by_cases hhome : s.registry.hasModule c.target = true
    · refine (Follows.of_copies (copies_applyRule p s c g rules _)).congr (if_pos hhome) ?_
      intro k' run' _
      unfold runInTime
      rw [hasModule_beside hindex]
      exact if_pos hhome
    · refine (Follows.of_copies (.emit _)).congr (if_neg hhome) ?_
      intro k' run' _
      unfold runInTime
      rw [hasModule_beside hindex]
      exact if_neg hhome
  intro (hcalm : (runRule s c run).Calm p)
  obtain ⟨_, heq⟩ := runRule_inTime hcalm.inTime
  rw [heq] at hcalm
  obtain ⟨ns, hns, hf⟩ := (follows_lookAtClock run).comp hafter (runInTime_goesOn s c _)
    (fun k r => runInTime_goesOn (s.beside g k) (c.relisted rules) r) hcalm
  refine ⟨ns, ?_, fun k' run' htwin hclock htime => ?_⟩
  · dsimp only
    rw [heq]
    exact hns
  · obtain ⟨_, heq'⟩ := runRule_inTime htime
    dsimp only at htime ⊢
    rw [heq'] at htime
    rw [heq, heq']
    exact hf k' run' htwin hclock htime

/-- A rule that changes nothing leaves no trace beside its own outcomes. -/
theorem twin_runRule {c : Scope} (hplace : ∀ item target status,
    (c.outcome item target status).place = p) {run : Run σ} (hcalm : (runRule s c run).Calm p) :
    run.Twin p (runRule s c run) ∧ run.writes ≤ (runRule s c run).writes := by
  obtain ⟨hearly, heq⟩ := runRule_inTime hcalm.inTime
  have hlook : run.Twin p (run.lookAtClock s) ∧ (run.lookAtClock s).writes = run.writes := by
    rw [Run.lookAtClock_inTime hearly]
    exact ⟨⟨rfl, rfl, rfl, rfl, rfl⟩, rfl⟩
  rw [heq] at hcalm ⊢
  unfold runInTime at hcalm ⊢
  split
  · next hhome =>
    rw [if_pos hhome] at hcalm
    obtain ⟨_, hns, _⟩ := copies_applyRule p s c s.registry.graph c.relationship.rules
      (run.lookAtClock s)
    exact ⟨hlook.1.trans (twin_of_quiet hplace (applyRule_steps _) hcalm.quiet),
      hlook.2 ▸ hns.1⟩
  · exact ⟨hlook.1.trans (.emit_hidden _ (run.lookAtClock s).writes (hplace none none _)),
      Nat.le_of_eq hlook.2.symm⟩

omit [LawfulRecordStore σ] in
/-- A rule of an action that is not known writes nothing. -/
theorem runRule_other {c : Scope} {name : String} (haction : c.rule.action = .other name)
    {run : Run σ} (htime : (runRule s c run).timedOut = false) :
    ∃ status, runRule s c run =
      ({ run with looks := run.looks + 1 }.emit (c.outcome none none status) : Run σ) := by
  obtain ⟨hearly, heq⟩ := runRule_inTime htime
  rw [heq, Run.lookAtClock_inTime hearly]
  unfold runInTime
  split
  · exact ⟨_, applyRule_other haction s _⟩
  · exact ⟨_, rfl⟩

/-- The rule of the place, and the one that stands there in the other schema. -/
theorem follows_replaced (c c' : Scope) {name : String} (hplace : ∀ item target status,
    (c.outcome item target status).place = p) (hplace' : ∀ item target status,
    (c'.outcome item target status).place = p) (haction : c'.rule.action = .other name)
    (mode : Mode) (run : Run σ) :
    Follows p s.clock (fun r => if mode.runs c.rule.action then runRule s c r else r)
      (fun k r => if mode.runs c'.rule.action then runRule (s.beside g k) c' r else r) run := by
  refine .of_hidden (fun hcalm => ?_) fun k' run' htime => ?_
  · by_cases hruns : mode.runs c.rule.action = true
    · rw [if_pos hruns] at hcalm ⊢
      exact twin_runRule hplace hcalm
    · rw [if_neg hruns]
      exact ⟨.refl p run, Nat.le_refl _⟩
  · by_cases hruns : mode.runs c'.rule.action = true
    · rw [if_pos hruns] at htime ⊢
      obtain ⟨status, heq⟩ := runRule_other haction htime
      have hlook : run'.Twin p { run' with looks := run'.looks + 1 } := ⟨rfl, rfl, rfl, rfl, rfl⟩
      rw [heq]
      exact ⟨hlook.trans (.emit_hidden _ run'.writes (hplace' none none status)), rfl⟩
    · rw [if_neg hruns]
      exact ⟨.refl p run', rfl⟩

/-- Going through lists of rules that agree but for the place of the rule. -/
theorem follows_runRules (hindex : g.index = s.registry.graph.index) {mode : Mode} {t : Trigger}
    {fields : List Field} {relationshipIndex : Nat} {r : Relationship} {lists : RuleLists}
    (name : String) {index : Nat} {rules rules' : List Rule}
    (hlength : rules'.length = rules.length)
    (hsame : ∀ i, ⟨t.module, relationshipIndex, t.event, index + i⟩ ≠ p → rules'[i]? = rules[i]?)
    (hother : ∀ i rule, ⟨t.module, relationshipIndex, t.event, index + i⟩ = p →
      rules'[i]? = some rule → rule.action = .other name) (run : Run σ) :
    Follows p s.clock (runRules s mode t fields relationshipIndex r index rules)
      (fun k => runRules (s.beside g k) mode t fields relationshipIndex { r with rules := lists }
        index rules') run := by
  induction rules generalizing index rules' run with
  | nil =>
    obtain rfl := List.length_eq_zero_iff.mp hlength
    exact .same run
  | cons rule rest ih =>
    cases rules' with
    | nil => cases hlength
    | cons rule' rest' =>
      have hrest (run : Run σ) := @ih (index + 1) rest' (Nat.succ.inj hlength)
        (fun i hne => hsame (i + 1) (by rwa [Nat.add_right_comm] at hne))
        (fun i found heq => hother (i + 1) found (by rwa [Nat.add_right_comm] at heq)) run
      have hfirst : Follows p s.clock
          (fun run => if mode.runs rule.action then
            runRule s ⟨t, relationshipIndex, r, fields, index, rule⟩ run else run)
          (fun k run => if mode.runs rule'.action then
            runRule (s.beside g k)
              ⟨t, relationshipIndex, { r with rules := lists }, fields, index, rule'⟩ run
            else run) run := by
        by_cases hplace : ⟨t.module, relationshipIndex, t.event, index⟩ = p
        · exact follows_replaced ⟨t, relationshipIndex, r, fields, index, rule⟩
            ⟨t, relationshipIndex, { r with rules := lists }, fields, index, rule'⟩
            (fun _ _ _ => hplace) (fun _ _ _ => hplace) (hother 0 rule' hplace rfl) mode run
        · have hrule : rule' = rule := Option.some.inj (hsame 0 hplace)
          rw [hrule]
          by_cases hruns : mode.runs rule.action = true
          · exact (follows_runRule hindex ⟨t, relationshipIndex, r, fields, index, rule⟩ lists
              run).congr (if_pos hruns) fun k' run' _ => if_pos hruns
          · exact (Follows.same run).congr (if_neg hruns) fun k' run' _ => if_neg hruns
      exact hfirst.comp (hrest _) (runRules_goesOn ..) fun k r' => runRules_goesOn ..

theorem follows_runRelationship (hindex : g.index = s.registry.graph.index) {mode : Mode}
    {t : Trigger} {fields : List Field} {rule : Rule} {name : String}
    (haction : rule.action = .other name) (index : Nat) (r : Relationship) (run : Run σ) :
    Follows p s.clock (runRelationship s mode t fields index r)
      (fun k => runRelationship (s.beside g k) mode t fields index
        (p.replaced rule t.module index r)) run := by
  have hlength := p.replaced_length rule t.module index r t.event
  have htarget : (p.replaced rule t.module index r).target = r.target := by
    rw [RulePlace.replaced_eq]
  have hempty : ((p.replaced rule t.module index r).rules.get t.event).isEmpty =
      (r.rules.get t.event).isEmpty := by
    rw [Bool.eq_iff_iff, List.isEmpty_iff_length_eq_zero, List.isEmpty_iff_length_eq_zero, hlength]
  have hwarn : Follows p s.clock
      (fun run : Run σ => if (r.rules.get t.event).isEmpty || s.registry.hasModule r.target then run
        else run.warn (.danglingTarget t.module index r.target))
      (fun k run => if ((p.replaced rule t.module index r).rules.get t.event).isEmpty ||
          (s.beside g k).registry.hasModule (p.replaced rule t.module index r).target then run
        else run.warn (.danglingTarget t.module index (p.replaced rule t.module index r).target))
      run := by
    rw [hempty, htarget]
    by_cases hthere : ((r.rules.get t.event).isEmpty || s.registry.hasModule r.target) = true
    · refine (Follows.same run).congr (if_pos hthere) fun k run' _ => ?_
      rw [hasModule_beside hindex]
      exact if_pos hthere
    · refine .of_copies (.of_twin ?_ fun k run' htwin => ?_)
      · rw [if_neg hthere]
        rfl
      · rw [hasModule_beside hindex, if_neg hthere, if_neg hthere]
        exact ⟨htwin.warn _, rfl⟩
  have hrules (run : Run σ) : Follows p s.clock
      (runRules s mode t fields index r 0 (r.rules.get t.event))
      (fun k => runRules (s.beside g k) mode t fields index (p.replaced rule t.module index r) 0
        ((p.replaced rule t.module index r).rules.get t.event)) run := by
    have hsame := p.replaced_rules rule t.module index r t.event
    generalize (p.replaced rule t.module index r).rules.get t.event = rules' at hlength hsame ⊢
    rw [RulePlace.replaced_eq]
    refine follows_runRules hindex name hlength (fun i hne => (hsame i).1 ?_)
      (fun i found heq hfound => ?_) run
    · rwa [Nat.zero_add] at hne
    · rw [Nat.zero_add] at heq
      rw [(hsame i).2 heq found hfound]
      exact haction
  exact hwarn.comp (hrules _) (runRules_goesOn ..) fun k r' => runRules_goesOn ..

theorem follows_runRelationships (hindex : g.index = s.registry.graph.index) (mode : Mode)
    (t : Trigger) (fields : List Field) {rule : Rule} {name : String}
    (haction : rule.action = .other name) (index : Nat) (relationships : List Relationship)
    (run : Run σ) :
    Follows p s.clock (runRelationships s mode t fields index relationships)
      (fun k => runRelationships (s.beside g k) mode t fields index
        (relationships.mapIdx fun i => p.replaced rule t.module (index + i))) run := by
  induction relationships generalizing index run with
  | nil => exact .same run
  | cons r rest ih =>
    have hrest : (r :: rest).mapIdx (fun i => p.replaced rule t.module (index + i)) =
        p.replaced rule t.module index r ::
          rest.mapIdx fun i => p.replaced rule t.module (index + 1 + i) := by
      rw [List.mapIdx_cons]
      simp only [Nat.add_right_comm, Nat.add_assoc, Nat.add_zero]
    rw [hrest]
    exact (follows_runRelationship hindex haction index r run).comp (ih (index + 1) _)
      (runRelationships_goesOn ..) fun k r' => runRelationships_goesOn ..

/-! ## Evaluating the queue -/

theorem follows_next (hindex : g.index = s.registry.graph.index) {rule : Rule} {name : String}
    (haction : rule.action = .other name)
    (hrelationships : ∀ module, g.relationshipsFrom module =
      (s.registry.relationshipsFrom module).mapIdx (p.replaced rule module))
    (rootMode : Mode) (t : Trigger) (rest : List Trigger) (run : Run σ) :
    Follows p s.clock (next s rootMode t rest)
      (fun k => next (s.beside g k) rootMode t rest) run := by
  have htake : Follows p s.clock (fun run : Run σ => run.take t rest) (fun _ run => run.take t rest)
      run := by
    refine .of_copies (.of_twin rfl fun k run' htwin => ⟨?_, rfl⟩)
    exact ⟨htwin.store, rfl, congrArg (· ++ [t.key]) htwin.visited, htwin.warnings, htwin.others⟩
  have hrules := follows_runRelationships (p := p) hindex (modeOf rootMode t) t
    (s.registry.listFields t.module) haction 0 (s.registry.relationshipsFrom t.module)
    (run.take t rest)
  simp only [Nat.zero_add] at hrules
  refine (htake.comp hrules (runRelationships_goesOn ..) fun k r =>
    runRelationships_goesOn ..).congr rfl fun k run' _ => ?_
  unfold next runTrigger
  rw [show (s.beside g k).registry.relationshipsFrom t.module = _ from hrelationships t.module]
  rfl

theorem follows_drain (hindex : g.index = s.registry.graph.index) {rule : Rule} {name : String}
    (haction : rule.action = .other name)
    (hrelationships : ∀ module, g.relationshipsFrom module =
      (s.registry.relationshipsFrom module).mapIdx (p.replaced rule module))
    (rootMode : Mode) (rounds : Nat) (run : Run σ) :
    Follows p s.clock (drain s rootMode rounds) (fun k => drain (s.beside g k) rootMode rounds)
      run := by
  induction rounds generalizing run with
  | zero => exact .same run
  | succ rounds ih =>
    cases hqueue : run.queue with
    | nil =>
      refine (Follows.same run).congr ?_ fun k run' htwin => ?_
      · unfold drain
        rw [hqueue]
      · unfold drain
        rw [htwin.queue, hqueue]
    | cons t rest =>
      refine ((follows_next hindex haction hrelationships rootMode t rest run).comp (ih _)
        (drain_goesOn ..) fun k r => drain_goesOn ..).congr ?_ fun k run' htwin => ?_
      · rw [drain.eq_2, hqueue]
      · rw [drain.eq_2, htwin.queue, hqueue]

/-- A rule that changes nothing in a whole run leaves no trace in it beside its own outcomes: in
the schema that has a rule of an unknown action at its place, the run ends with the same records,
the same warnings and the same outcomes of all other rules.  Neither run may run out of time.

The second run makes the field writes of the first one but for those of the rule, and shows at each
of them the time that the first one showed. -/
theorem unchanging_rule_leaves_no_trace (registry registry' : Registry) (p : RulePlace)
    (rule : Rule) (name : String) (config : Config) (clock : Clock) (store : σ) (module : ModuleId)
    (event : Event) (record : Record) (prechecked : Option (List Outcome))
    (hreplaces : registry.ReplacesRule registry' p rule) (haction : rule.action = .other name)
    (htime : (evaluation registry config clock store module event record prechecked).timedOut =
      false)
    (hquiet : ∀ o ∈
        (evaluate registry config clock store module event record prechecked).1.outcomes,
      o.place = p → o.status ≠ .applied true) :
    ∃ ns, Numbers 0 (evaluation registry config clock store module event record prechecked).writes
        ns ∧
      ∀ clock', clock.Repeats ns clock' 0 →
        (evaluation registry' config clock' store module event record prechecked).timedOut = false →
          let (report, after) := evaluate registry config clock store module event record prechecked
          let (report', after') :=
            evaluate registry' config clock' store module event record prechecked
          after' = after ∧ report'.warnings = report.warnings ∧
            p.others report'.outcomes = p.others report.outcomes := by
  have hsetting (k : Clock) : Setting.ofRoot registry' config k =
      (Setting.ofRoot registry config clock).beside registry'.graph k := by
    have hregistry : registry' = { registry with graph := registry'.graph } := by
      obtain ⟨catalog, graph, fields, generation⟩ := registry
      obtain ⟨catalog', graph', fields', generation'⟩ := registry'
      obtain ⟨rfl, rfl, rfl, -, -, -⟩ := hreplaces
      rfl
    unfold Setting.ofRoot Setting.beside
    rw [hreplaces.count]
    dsimp only
    rw [← hregistry]
  have hrounds : maxEvents registry' store = maxEvents registry store := by
    unfold maxEvents recordCount
    rw [hreplaces.index]
  have hfollows := follows_drain (s := .ofRoot registry config clock) (g := registry'.graph)
    hreplaces.index haction hreplaces.relationships (.ofRoot prechecked) (maxEvents registry store)
    (Run.root store module event record (prechecked.getD []))
  obtain ⟨ns, hns, hrun⟩ := hfollows ⟨htime, hquiet⟩
  refine ⟨ns, hns, fun clock' hclock htime' => ?_⟩
  have hsecond : evaluation registry' config clock' store module event record prechecked =
      drain ((Setting.ofRoot registry config clock).beside registry'.graph clock')
        (.ofRoot prechecked) (maxEvents registry store)
        (Run.root store module event record (prechecked.getD [])) := by
    unfold evaluation
    rw [hsetting, hrounds]
  rw [hsecond] at htime'
  have htwin := (hrun clock' _ (.refl p _) hclock htime').1
  dsimp only at htwin
  rw [← hsecond] at htwin
  exact ⟨htwin.store, htwin.warnings, htwin.others⟩

end

namespace Sample

/-- A new order runs one rule more before it sets the field of the first record. -/
def registryWith (first : Rule) : Registry :=
  let sale :=
    { sale with rules := { RuleLists.empty with onCreate := first :: sale.rules.onCreate } }
  { registry with
    graph := { registry.graph with
      slots := [some ⟨⟨orders, "Orders", [sale], 0, 0⟩, [sale]⟩,
        some ⟨⟨stock, "Stock", [clearance], 0, 0⟩, [clearance]⟩] } }

/-- The second record has this value already, but the rule makes a field write to see that. -/
def reminder : Rule :=
  { Rule.ofAction .set with
    target := some "$stock-$sold", value := some (.bool false), binding := some (.record two) }

def archive : Rule := Rule.ofAction (.other "archive")

def isChange (o : Outcome) : Bool :=
  match o.status with
  | .applied changed => changed
  | _ => false

end Sample

/-- The reminder changes nothing, so the new order ends with the same records if there is an unknown
action in its place. -/
theorem unchanging_rule_leaves_no_trace_on_sample :
    let before := evaluate (Sample.registryWith Sample.reminder) .standard (.steady 5 0)
      (⟨[Sample.item, Sample.other]⟩ : MemoryStore) Sample.orders .create Sample.order none
    let after := evaluate (Sample.registryWith Sample.archive) .standard (.steady 5 0)
      (⟨[Sample.item, Sample.other]⟩ : MemoryStore) Sample.orders .create Sample.order none
    LawfulRecordStore MemoryStore ∧
      (Sample.registryWith Sample.reminder).ReplacesRule (Sample.registryWith Sample.archive)
        ⟨Sample.orders, 0, .create, 0⟩ Sample.archive ∧
      before.1.outcomes.length = 3 ∧ after.2 = before.2 ∧ after.1.warnings = before.1.warnings := by
  intro before after
  have hreplaces : (Sample.registryWith Sample.reminder).ReplacesRule
      (Sample.registryWith Sample.archive) ⟨Sample.orders, 0, .create, 0⟩ Sample.archive := by
    refine ⟨rfl, rfl, rfl, rfl, rfl, fun module => ?_⟩
    by_cases horders : module = Sample.orders
    · subst horders
      rfl
    · by_cases hstock : module = Sample.stock
      · subst hstock
        rfl
      · have hnone (first : Rule) : (Sample.registryWith first).relationshipsFrom module = [] := by
          simp [Registry.relationshipsFrom, ModuleGraph.relationshipsFrom, ModuleGraph.slot?,
            Sample.registryWith, Sample.registry, List.lookup_cons,
            beq_eq_false_iff_ne.mpr horders, beq_eq_false_iff_ne.mpr hstock]
        rw [hnone, hnone]
        rfl
  have hlength : before.1.outcomes.length = 3 := by decide +kernel
  have htime : (evaluation (Sample.registryWith Sample.reminder) .standard (.steady 5 0)
      (⟨[Sample.item, Sample.other]⟩ : MemoryStore) Sample.orders .create Sample.order
      none).timedOut = false := by decide +kernel
  have htime' : (evaluation (Sample.registryWith Sample.archive) .standard (.steady 5 0)
      (⟨[Sample.item, Sample.other]⟩ : MemoryStore) Sample.orders .create Sample.order
      none).timedOut = false := by decide +kernel
  have hquiet : before.1.outcomes.all (fun o =>
      !decide (o.place = ⟨Sample.orders, 0, .create, 0⟩) || !Sample.isChange o) = true := by
    decide +kernel
  obtain ⟨ns, _, hafter⟩ := unchanging_rule_leaves_no_trace (Sample.registryWith Sample.reminder)
    (Sample.registryWith Sample.archive) ⟨Sample.orders, 0, .create, 0⟩ Sample.archive "archive"
    .standard (.steady 5 0) (⟨[Sample.item, Sample.other]⟩ : MemoryStore) Sample.orders .create
    Sample.order none hreplaces rfl htime (fun o ho hplace happlied => by
      have := List.all_eq_true.mp hquiet o ho
      simp [hplace, Sample.isChange, happlied] at this)
  obtain ⟨hstore, hwarnings, _⟩ := hafter (.steady 5 0) (fun _ _ _ => rfl) htime'
  exact ⟨inferInstance, hreplaces, hlength, hstore, hwarnings⟩

end RecordRules
