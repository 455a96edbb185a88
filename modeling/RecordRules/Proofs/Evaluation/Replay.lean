/-
An event with its checks and without.

The checks of a root event say something and do nothing else.  So an evaluation in which they do not
run, because they ran before, does what the evaluation with them does; and since all other events
run their checks in both, the outcomes differ in those of the root alone.
-/
import RecordRules.Proofs.Evaluation.Coverage
import RecordRules.Proofs.Evaluation.Deadline
import RecordRules.Proofs.Evaluation.Isolation
import RecordRules.Proofs.Evaluation.Lockstep

namespace RecordRules

/-- The outcome is that of a check of the root event. -/
def Outcome.isRootCheck (o : Outcome) : Bool := o.depth == 0 && o.action == .validate

def Scope.isRootCheck (c : Scope) : Bool := c.trigger.depth == 0 && c.rule.action == .validate

/-- The outcomes but for those of checks of the root event. -/
def Outcome.withoutRootChecks (os : List Outcome) : List Outcome :=
  os.filter fun o => !o.isRootCheck

section

variable {σ : Type}

/-! ## Checks do nothing -/

/-- A rule leaves a run as it is, but for what it says. -/
def Scope.OnlySays (c : Scope) (run run' : Run σ) : Prop :=
  ∃ os, run' = { run with outcomes := run.outcomes ++ os } ∧ c.Says os

namespace Scope.OnlySays

variable {c : Scope} {run run' run'' : Run σ}

theorem refl (run : Run σ) : c.OnlySays run run :=
  ⟨[], by rw [List.append_nil], List.forall_mem_nil _⟩

theorem emit (run : Run σ) (itemIndex : Option Nat) (target : Option RecordId) (status : Status) :
    c.OnlySays run (run.emit (c.outcome itemIndex target status)) :=
  ⟨_, rfl, says_one itemIndex target status⟩

theorem trans (h : c.OnlySays run run') (h' : c.OnlySays run' run'') : c.OnlySays run run'' := by
  obtain ⟨os, rfl, hsaid⟩ := h
  obtain ⟨os', rfl, hsaid'⟩ := h'
  exact ⟨os ++ os', by rw [List.append_assoc], List.forall_mem_append.mpr ⟨hsaid, hsaid'⟩⟩

end Scope.OnlySays

variable [RecordStore σ] {s : Setting} {c : Scope}

theorem keeps_onlySays (s : Setting) (hcheck : c.rule.action = .validate) (run : Run σ) :
    c.Keeps s (c.OnlySays run) where
  emit itemIndex target _ _ _ h := h.trans (.emit _ itemIndex target _)
  write _ _ _ _ hchanges _ := absurd hcheck hchanges.unchecked
  delete _ _ hdelete _ := by
    rw [hcheck] at hdelete
    cases hdelete

/-- A check says something, whatever becomes of it, and does nothing. -/
theorem applyRule_of_check (hcheck : c.rule.action = .validate) (run : Run σ) :
    c.OnlySays run (applyRule s c run) :=
  (keeps_onlySays s hcheck run).applyRule (.refl run)

theorem runInTime_of_check (hcheck : c.rule.action = .validate) (run : Run σ) :
    c.OnlySays run (runInTime s c run) := by
  unfold runInTime
  split
  · exact applyRule_of_check hcheck run
  · exact .emit run _ _ _

/-! ## Echoes -/

/-- A run echoes another: they differ in the looks at the clock and in what they have reported,
which in the first is what was reported before and then what the second reported, but for the checks
of the root event. -/
def Run.Echoes (p : List Outcome) (run run' : Run σ) : Prop :=
  ∃ outcomes looks, run' = run.but run.store outcomes looks ∧
    run.outcomes = p ++ Outcome.withoutRootChecks outcomes

namespace Run.Echoes

variable {p : List Outcome} {run run' : Run σ}

omit [RecordStore σ] in
theorem emit (h : run.Echoes p run') {o : Outcome} (ho : o.isRootCheck = false) :
    (run.emit o).Echoes p (run'.emit o) := by
  obtain ⟨outcomes, looks, rfl, hos⟩ := h
  refine ⟨outcomes ++ [o], looks, rfl, ?_⟩
  show run.outcomes ++ [o] = p ++ (outcomes ++ [o]).filter _
  rw [hos, List.filter_append, List.append_assoc, List.filter_cons_of_pos (by rw [ho]; rfl)]
  rfl

omit [RecordStore σ] in
theorem warn (h : run.Echoes p run') (w : Warning) : (run.warn w).Echoes p (run'.warn w) := by
  obtain ⟨outcomes, looks, rfl, hos⟩ := h
  exact ⟨outcomes, looks, rfl, hos⟩

omit [RecordStore σ] in
theorem take (h : run.Echoes p run') (t : Trigger) (rest : List Trigger) :
    (run.take t rest).Echoes p (run'.take t rest) := by
  obtain ⟨outcomes, looks, rfl, hos⟩ := h
  exact ⟨outcomes, looks, rfl, hos⟩

omit [RecordStore σ] in
theorem looked (h : run.Echoes p run') (looks looks' : Nat) :
    ({ run with looks }).Echoes p { run' with looks := looks' } := by
  obtain ⟨outcomes, _, rfl, hos⟩ := h
  exact ⟨outcomes, looks', rfl, hos⟩

omit [RecordStore σ] in
/-- What checks of the root event say makes no difference to the first run. -/
theorem onlySays (h : run.Echoes p run') {run'' : Run σ} (hroot : c.isRootCheck = true)
    (hsaid : c.OnlySays run' run'') : run.Echoes p run'' := by
  obtain ⟨outcomes, looks, rfl, hos⟩ := h
  obtain ⟨os, rfl, hsaid⟩ := hsaid
  have hnone : os.filter (fun o => !o.isRootCheck) = [] := by
    refine List.filter_eq_nil_iff.mpr fun o ho => ?_
    obtain ⟨_, _, _, rfl⟩ := hsaid o ho
    show ¬(!c.isRootCheck) = true
    rw [hroot]
    decide
  refine ⟨outcomes ++ os, looks, rfl, ?_⟩
  unfold Outcome.withoutRootChecks
  rw [List.filter_append, hnone, List.append_nil]
  exact hos

/-- A rule that is no check of the root event does the same to a run and to its echo. -/
theorem lockstep {k : Clock} (hnow : k.now = s.clock.now) (hother : c.isRootCheck = false) :
    Lockstep (σ := σ) s k c (Run.Echoes p) where
  emit := fun _ _ _ h => h.emit hother
  targets := by
    rintro run _ element ⟨outcomes, looks, rfl, _⟩
    rfl
  write := by
    rintro run _ itemIndex id field m ⟨outcomes, looks, rfl, hos⟩
    obtain ⟨_, rfl, hwrite⟩ := writeField_but (R := Eq) hnow c run rfl (.same _)
      outcomes looks
    rw [hwrite]
    refine Echoes.emit ⟨outcomes, looks, rfl, ?_⟩ hother
    rw [(writeField_reports s run id field m).2]
    exact hos
  delete := by
    rintro run _ itemIndex id ⟨outcomes, looks, rfl, hos⟩
    obtain ⟨_, rfl, hdelete⟩ := deleteRecord_but (R := Eq) k c run rfl (.same _)
      outcomes looks
    rw [hdelete]
    refine Echoes.emit ⟨outcomes, looks, rfl, ?_⟩ hother
    rw [(deleteRecord_reports s run id).2]
    exact hos

theorem runInTime (h : run.Echoes p run') {k : Clock} (hnow : k.now = s.clock.now)
    (hother : c.isRootCheck = false) :
    (runInTime s c run).Echoes p (RecordRules.runInTime (s.withClock k) c run') := by
  unfold RecordRules.runInTime
  show Run.Echoes p _ (if s.registry.hasModule c.target = true then _ else _)
  split
  · exact (lockstep hnow hother).applyRule h
  · exact h.emit hother

end Run.Echoes

/-! ## Rules at their turn -/

/-- A run echoes another as long as neither has run out of time. -/
def Run.EchoesInTime (p : List Outcome) (run run' : Run σ) : Prop :=
  run.timedOut = false → run'.timedOut = false → run.Echoes p run'

/-- A rule that is applied in time is applied after one more look at the clock. -/
theorem runRule_of_inTime {run : Run σ} (h : (runRule s c run).timedOut = false) :
    runRule s c run = runInTime s c { run with looks := run.looks + 1 } := by
  obtain ⟨hlook, hrun⟩ := runRule_inTime h
  rw [hrun, Run.lookAtClock_inTime hlook]

variable [LawfulRecordStore σ] {k : Clock} {t : Trigger} {p : List Outcome} {run run' : Run σ}

theorem turn_goesOn (s : Setting) (c : Scope) (mode : Mode) (run : Run σ) :
    run.GoesOn (c.turn s mode run) := by
  unfold Scope.turn
  split
  · exact runRule_goesOn s c run
  · exact .refl run

omit [LawfulRecordStore σ] in
theorem turn_everything (s : Setting) (c : Scope) (t : Trigger) (run : Run σ) :
    c.turn s (modeOf .everything t) run = runRule s c run := by
  rw [modeOf_everything]
  rfl

omit [LawfulRecordStore σ] in
/-- A check of the root event has no turn if it ran before. -/
theorem turn_afterChecks (s : Setting) {c : Scope} (htrigger : c.trigger = t) (run : Run σ) :
    c.turn s (modeOf .afterChecks t) run = if c.isRootCheck then run else runRule s c run := by
  unfold Scope.turn Scope.isRootCheck modeOf
  rw [← htrigger]
  by_cases hdepth : c.trigger.depth = 0
  · rw [if_pos hdepth, hdepth]
    by_cases hcheck : c.rule.action = .validate
    · rw [hcheck]
      rfl
    · simp [Mode.runs, hcheck]
  · simp [Mode.runs, hdepth]

/-- A check of the root event has its turn in the second run only; all other rules have theirs in
both. -/
theorem turn_echoes (hnow : k.now = s.clock.now) (place : c.InPlace s .everything t)
    (h : run.EchoesInTime p run') :
    (c.turn s (modeOf .afterChecks t) run).EchoesInTime p
      (c.turn (s.withClock k) (modeOf .everything t) run') := by
  intro htime htime'
  -- A run that is in time was so before.
  have hechoes := h ((turn_goesOn s c _ run).inTime htime)
    ((turn_goesOn (s.withClock k) c _ run').inTime htime')
  rw [turn_everything] at htime' ⊢
  rw [turn_afterChecks s place.trigger] at htime ⊢
  rw [runRule_of_inTime htime']
  cases hroot : c.isRootCheck with
  | true =>
    have hcheck : c.rule.action = .validate := by
      unfold Scope.isRootCheck at hroot
      exact eq_of_beq ((Bool.and_eq_true _ _).mp hroot).2
    rw [if_pos rfl]
    exact (hechoes.looked run.looks (run'.looks + 1)).onlySays hroot (runInTime_of_check hcheck _)
  | false =>
    rw [hroot] at htime
    rw [if_neg Bool.false_ne_true] at htime ⊢
    rw [runRule_of_inTime htime]
    exact (hechoes.looked _ _).runInTime hnow hroot

/-! ## Evaluating the queue -/

theorem next_echoes (hnow : k.now = s.clock.now) (t : Trigger) (rest : List Trigger)
    (h : run.Echoes p run') :
    (next s .afterChecks t rest run).EchoesInTime p
      (next (s.withClock k) .everything t rest run') := by
  refine runTrigger_lockstep (fun w run run' h => ?_) (fun c place run run' h => ?_) ?_
  · exact fun htime htime' => (h htime htime').warn w
  · exact turn_echoes hnow place h
  · exact fun _ _ => h.take t rest

theorem drain_echoes (hnow : k.now = s.clock.now) (rounds : Nat) (h : run.Echoes p run')
    (htime : (drain s .afterChecks rounds run).timedOut = false)
    (htime' : (drain (s.withClock k) .everything rounds run').timedOut = false) :
    (drain s .afterChecks rounds run).Echoes p (drain (s.withClock k) .everything rounds run') := by
  induction rounds generalizing run run' with
  | zero => exact h
  | succ rounds ih =>
    have hqueue : run'.queue = run.queue := by
      obtain ⟨_, _, rfl, _⟩ := h
      rfl
    unfold drain at htime htime' ⊢
    rw [hqueue] at htime' ⊢
    cases hwaiting : run.queue with
    | nil => exact h
    | cons t rest =>
      rw [hwaiting] at htime htime'
      exact ih (next_echoes hnow t rest h ((drain_goesOn s _ rounds _).inTime htime)
        ((drain_goesOn (s.withClock k) _ rounds _).inTime htime')) htime htime'

/-! ## Whole evaluations -/

/-- The time did not run out while the event was evaluated. -/
def Report.InTime (r : Report) : Prop := ∀ ms, .timedOut ms ∉ r.warnings

theorem timedOut_of_inTime {registry : Registry} {config : Config} {clock : Clock} {store : σ}
    {module : ModuleId} {event : Event} {record : Record} {prechecked : Option (List Outcome)}
    (h : (evaluate registry config clock store module event record prechecked).1.InTime) :
    (evaluation registry config clock store module event record prechecked).timedOut = false := by
  have hwarned := (evaluation_reaches registry config clock store module event record
    prechecked).warned fun ms => iff_of_false List.not_mem_nil nofun
  refine Bool.eq_false_iff.mpr fun hlate => ?_
  exact h config.timeoutMs ((hwarned config.timeoutMs).mpr ⟨hlate, rfl⟩)

/-- A report echoes another: it has the same warnings and, after the outcomes that were reported
before, the same outcomes but for those of checks of the root event. -/
structure Report.Echoes (p : List Outcome) (r r' : Report) : Prop where
  warnings : r.warnings = r'.warnings
  outcomes : r.outcomes = p ++ Outcome.withoutRootChecks r'.outcomes

theorem evaluate_echoes (registry : Registry) (config : Config) {clock k : Clock}
    (hnow : k.now = clock.now) (store : σ) (module : ModuleId) (event : Event) (record : Record)
    (p : List Outcome)
    (htime : (evaluate registry config clock store module event record (some p)).1.InTime)
    (htime' : (evaluate registry config k store module event record none).1.InTime) :
    (evaluate registry config clock store module event record (some p)).2 =
        (evaluate registry config k store module event record none).2 ∧
      (evaluate registry config clock store module event record (some p)).1.Echoes p
        (evaluate registry config k store module event record none).1 := by
  have hstart : (Run.root store module event record p).Echoes p
      (Run.root store module event record []) := ⟨[], 0, rfl, (List.append_nil p).symm⟩
  obtain ⟨outcomes, looks, hrun, hos⟩ := drain_echoes (s := .ofRoot registry config clock) hnow
    (maxEvents registry store) hstart (timedOut_of_inTime htime) (timedOut_of_inTime htime')
  have hsecond : evaluation registry config k store module event record none = _ := hrun
  unfold evaluate
  dsimp only
  rw [hsecond]
  exact ⟨rfl, rfl, hos⟩

end

end RecordRules
