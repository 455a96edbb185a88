/-
Runs side by side.

Two runs are twins if they differ in nothing but their clocks and the outcomes of one rule.  They
stay twins when one of the other rules is applied in both, as long as the second clock shows at the
field writes of this rule what the first one shows.  The rule may stand in two schemas that differ
in other rules, because applying a rule looks at no other.
-/
import RecordRules.Proofs.Evaluation.Steps

namespace RecordRules

/-! ## The place of a rule -/

/-- The place of a rule in a schema. -/
structure RulePlace where
  module : ModuleId
  relationship : Nat
  event : Event
  rule : Nat
deriving DecidableEq

def Outcome.place (o : Outcome) : RulePlace := ⟨o.module, o.relationshipIndex, o.event, o.ruleIndex⟩

/-- The outcomes of all other rules. -/
def RulePlace.others (p : RulePlace) (os : List Outcome) : List Outcome :=
  os.filter fun o => decide (o.place ≠ p)

theorem RulePlace.others_append (p : RulePlace) (os os' : List Outcome) :
    p.others (os ++ os') = p.others os ++ p.others os' :=
  List.filter_append ..

/-- The scope of the rule in a schema where other rules stand beside it. -/
def Scope.relisted (c : Scope) (rules : RuleLists) : Scope :=
  { c with relationship := { c.relationship with rules } }

/-- The setting with other rules in the schema and another clock. -/
def Setting.beside (s : Setting) (g : ModuleGraph) (k : Clock) : Setting :=
  { s with registry := { s.registry with graph := g }, clock := k }

section

variable {σ : Type}

namespace Run

/-! ## Twins -/

structure Twin (p : RulePlace) (run run' : Run σ) : Prop where
  store : run'.store = run.store
  queue : run'.queue = run.queue
  visited : run'.visited = run.visited
  warnings : run'.warnings = run.warnings
  others : p.others run'.outcomes = p.others run.outcomes

namespace Twin

variable {p : RulePlace} {run run' run'' : Run σ}

theorem refl (p : RulePlace) (run : Run σ) : run.Twin p run := ⟨rfl, rfl, rfl, rfl, rfl⟩

theorem symm (h : run.Twin p run') : run'.Twin p run :=
  ⟨h.store.symm, h.queue.symm, h.visited.symm, h.warnings.symm, h.others.symm⟩

theorem trans (h : run.Twin p run') (h' : run'.Twin p run'') : run.Twin p run'' :=
  ⟨h'.store.trans h.store, h'.queue.trans h.queue, h'.visited.trans h.visited,
    h'.warnings.trans h.warnings, h'.others.trans h.others⟩

/-- Twins may have made different numbers of field writes. -/
theorem withWrites (h : run.Twin p run') (writes writes' : Nat) :
    { run with writes }.Twin p { run' with writes := writes' } :=
  ⟨h.store, h.queue, h.visited, h.warnings, h.others⟩

theorem withStore (h : run.Twin p run') (store : σ) :
    { run with store }.Twin p { run' with store } :=
  ⟨rfl, h.queue, h.visited, h.warnings, h.others⟩

theorem note (h : run.Twin p run') (happening : Happening) :
    (run.note happening).Twin p (run'.note happening) :=
  ⟨h.store, h.queue, h.visited, h.warnings, h.others⟩

theorem emit (h : run.Twin p run') (o : Outcome) : (run.emit o).Twin p (run'.emit o) where
  store := h.store
  queue := h.queue
  visited := h.visited
  warnings := h.warnings
  others := by
    show p.others (run'.outcomes ++ [o]) = p.others (run.outcomes ++ [o])
    rw [RulePlace.others_append, RulePlace.others_append, h.others]

theorem warn (h : run.Twin p run') (w : Warning) : (run.warn w).Twin p (run'.warn w) where
  store := h.store
  queue := h.queue
  visited := h.visited
  warnings := congrArg (· ++ [w]) h.warnings
  others := h.others

/-- An event is queued, absorbed or cut off in both. -/
theorem schedule (h : run.Twin p run') {s s' : Setting} (hdepth : s'.maxDepth = s.maxDepth)
    (t : Trigger) : (run.schedule s t).Twin p (run'.schedule s' t) := by
  unfold Run.schedule
  rw [h.queue, h.visited, hdepth]
  by_cases hwaits : (run.queue.any fun u => u.key = t.key) = true
  · rw [if_pos hwaits, if_pos hwaits]
    exact ⟨h.store, rfl, rfl, h.warnings, h.others⟩
  · rw [if_neg hwaits, if_neg hwaits]
    by_cases hdeep : s.maxDepth < t.depth
    · rw [if_pos hdeep, if_pos hdeep]
      exact h.warn _
    · rw [if_neg hdeep, if_neg hdeep]
      by_cases hseen : run.visited.contains t.key = true
      · rw [if_pos hseen, if_pos hseen]
        exact h.warn _
      · rw [if_neg hseen, if_neg hseen]
        exact ⟨h.store, rfl, rfl, h.warnings, h.others⟩

/-- An outcome of the rule that is left out makes no difference. -/
theorem emit_hidden (run : Run σ) (writes : Nat) {o : Outcome} (ho : o.place = p) :
    run.Twin p ({ run with writes }.emit o) where
  store := rfl
  queue := rfl
  visited := rfl
  warnings := rfl
  others := by
    show p.others (run.outcomes ++ [o]) = _
    rw [RulePlace.others_append]
    simp [RulePlace.others, ho]

end Twin
end Run

/-! ## Numbers of field writes -/

/-- From a field write on, the second clock shows what the first shows at the numbered ones. -/
def Clock.Repeats (k : Clock) (ns : List Nat) (k' : Clock) (start : Nat) : Prop :=
  ∀ i n, ns[i]? = some n → k'.now (start + i) = k.now n

theorem Clock.Repeats.append {k k' : Clock} {ns ms : List Nat} {start : Nat}
    (h : k.Repeats (ns ++ ms) k' start) :
    k.Repeats ns k' start ∧ k.Repeats ms k' (start + ns.length) := by
  constructor
  · intro i n hi
    refine h i n ?_
    rw [List.getElem?_append_left (List.getElem?_eq_some_iff.mp hi).1]
    exact hi
  · intro i n hi
    have hat : (ns ++ ms)[ns.length + i]? = some n := by
      rw [List.getElem?_append_right (Nat.le_add_right _ _), Nat.add_sub_cancel_left]
      exact hi
    rw [Nat.add_assoc]
    exact h _ n hat

/-- Numbers in order, from one on and below another. -/
def Numbers (start stop : Nat) (ns : List Nat) : Prop :=
  start ≤ stop ∧ ns.Sublist (List.range' start (stop - start))

theorem Numbers.nil {start stop : Nat} (h : start ≤ stop) : Numbers start stop [] :=
  ⟨h, List.nil_sublist _⟩

theorem Numbers.one (n : Nat) : Numbers n (n + 1) [n] := by
  refine ⟨Nat.le_succ n, ?_⟩
  rw [Nat.add_sub_cancel_left]
  exact .refl _

theorem Numbers.append {a b c : Nat} {ns ms : List Nat} (h : Numbers a b ns) (h' : Numbers b c ms) :
    Numbers a c (ns ++ ms) := by
  refine ⟨Nat.le_trans h.1 h'.1, ?_⟩
  have hrange : List.range' a (b - a) ++ List.range' b (c - b) = List.range' a (c - a) := by
    have hb : b = a + (b - a) := by have := h.1; omega
    have hc : c - a = (b - a) + (c - b) := by have := h.1; have := h'.1; omega
    rw [hc, ← List.range'_append_1, ← hb]
  rw [← hrange]
  exact h.2.append h'.2

/-! ## Copying a run -/

/-- What the first function does to the run, the second does to its twins, if their clock shows the
same at the field writes that the first function numbers. -/
def Copies (p : RulePlace) (k : Clock) (f : Run σ → Run σ) (f' : Clock → Run σ → Run σ)
    (run : Run σ) : Prop :=
  ∃ ns, Numbers run.writes (f run).writes ns ∧
    ∀ k' run', run.Twin p run' → k.Repeats ns k' run'.writes →
      (f run).Twin p (f' k' run') ∧ (f' k' run').writes = run'.writes + ns.length

namespace Copies

variable {p : RulePlace} {k : Clock} {f g : Run σ → Run σ} {f' g' : Clock → Run σ → Run σ}
  {run : Run σ}

theorem comp (hf : Copies p k f f' run) (hg : Copies p k g g' (f run)) :
    Copies p k (fun r => g (f r)) (fun k' r => g' k' (f' k' r)) run := by
  obtain ⟨ns, hns, hf⟩ := hf
  obtain ⟨ms, hms, hg⟩ := hg
  refine ⟨ns ++ ms, hns.append hms, fun k' run' htwin hclock => ?_⟩
  obtain ⟨hfirst, hsecond⟩ := hclock.append
  obtain ⟨htwin', hwrites⟩ := hf k' run' htwin hfirst
  rw [← hwrites] at hsecond
  obtain ⟨htwin'', hwrites'⟩ := hg k' _ htwin' hsecond
  refine ⟨htwin'', ?_⟩
  rw [hwrites', hwrites, List.length_append, Nat.add_assoc]

/-- Functions of which it is enough to know what they do here. -/
theorem congr (hg : Copies p k g g' run) (hf : f run = g run)
    (hf' : ∀ k' run', run.Twin p run' → f' k' run' = g' k' run') : Copies p k f f' run := by
  obtain ⟨ns, hns, hg⟩ := hg
  rw [← hf] at hns
  refine ⟨ns, hns, fun k' run' htwin hclock => ?_⟩
  rw [hf, hf' k' run' htwin]
  exact hg k' run' htwin hclock

/-- Functions that leave the number of field writes alone. -/
theorem of_twin (hwrites : (f run).writes = run.writes)
    (h : ∀ k' run', run.Twin p run' →
      (f run).Twin p (f' k' run') ∧ (f' k' run').writes = run'.writes) : Copies p k f f' run :=
  ⟨[], .nil (Nat.le_of_eq hwrites.symm), fun k' run' htwin _ => h k' run' htwin⟩

theorem emit (o : Outcome) : Copies p k (fun r => r.emit o) (fun _ r => r.emit o) run :=
  of_twin rfl fun _ _ htwin => ⟨htwin.emit o, rfl⟩

theorem foldl {α : Type} {f : Run σ → α → Run σ} {f' : Clock → Run σ → α → Run σ}
    (h : ∀ a run, Copies p k (fun r => f r a) (fun k' r => f' k' r a) run) (l : List α)
    (run : Run σ) : Copies p k (fun r => l.foldl f r) (fun k' r => l.foldl (f' k') r) run := by
  induction l generalizing run with
  | nil => exact of_twin rfl fun _ _ htwin => ⟨htwin, rfl⟩
  | cons a rest ih => exact (h a run).comp (ih _)

end Copies

/-! ## Acting on a record -/

theorem Run.schedule_writes (s : Setting) (run : Run σ) (t : Trigger) :
    (run.schedule s t).writes = run.writes := by
  obtain ⟨queue, warnings, h⟩ := schedule_eq s run t
  rw [h]

theorem Run.Twin.tell {p : RulePlace} (c : Scope) (item : Option Nat) (id : RecordId)
    {answer answer' : Status × Run σ} (hstatus : answer'.1 = answer.1)
    (h : answer.2.Twin p answer'.2) : (c.tell item id answer).Twin p (c.tell item id answer') := by
  unfold Scope.tell
  rw [hstatus]
  exact h.emit _

variable [RecordStore σ] (p : RulePlace) (s : Setting) (c : Scope) (g : ModuleGraph)
  (rules : RuleLists)

theorem writeField_writes (id : RecordId) (field : String) (m : Mutation) (run : Run σ) :
    (writeField s c run id field m).2.writes = run.writes + 1 := by
  generalize h : writeField s c run id field m = answer
  cases writeField_written h with
  | refused | unchanged => rfl
  | changed => exact Run.schedule_writes ..

/-- A field write goes the same way in twins if both clocks show the same time. -/
theorem writeField_twin (id : RecordId) (field : String) (m : Mutation) {run run' : Run σ}
    (htwin : run.Twin p run') {k : Clock} (hnow : k.now run'.writes = s.clock.now run.writes) :
    (writeField (s.beside g k) (c.relisted rules) run' id field m).1 =
        (writeField s c run id field m).1 ∧
      (writeField s c run id field m).2.Twin p
        (writeField (s.beside g k) (c.relisted rules) run' id field m).2 := by
  have hsame : RecordStore.mutateField run'.store (c.relisted rules).target id field m
      ((s.beside g k).clock.now run'.writes) =
        RecordStore.mutateField run.store c.target id field m (s.clock.now run.writes) := by
    rw [htwin.store]
    exact congrArg _ hnow
  unfold writeField
  dsimp only
  rw [hsame]
  have hready := htwin.withWrites (run.writes + 1) (run'.writes + 1)
  cases RecordStore.mutateField run.store c.target id field m (s.clock.now run.writes) with
  | error e => exact ⟨rfl, hready⟩
  | ok answer =>
    obtain ⟨w, store⟩ := answer
    refine ⟨rfl, ?_⟩
    dsimp only
    by_cases hc : w.changed = true
    · rw [if_pos hc, if_pos hc]
      exact ((hready.withStore store).note _).schedule rfl _
    · rw [if_neg hc, if_neg hc]
      exact hready.withStore store

theorem copies_writeField (id : RecordId) (field : String) (m : Mutation) (item : Option Nat)
    (run : Run σ) :
    Copies p s.clock (fun r => c.tell item id (writeField s c r id field m))
      (fun k r => c.tell item id (writeField (s.beside g k) (c.relisted rules) r id field m))
      run := by
  refine ⟨[run.writes], ?_, fun k run' htwin hclock => ?_⟩
  · show Numbers run.writes (writeField s c run id field m).2.writes _
    rw [writeField_writes]
    exact .one _
  · obtain ⟨hstatus, hrun⟩ := writeField_twin p s c g rules id field m htwin (hclock 0 _ rfl)
    exact ⟨.tell c item id hstatus hrun, writeField_writes ..⟩

theorem deleteRecord_writes (id : RecordId) (run : Run σ) :
    (deleteRecord s c run id).2.writes = run.writes := by
  generalize h : deleteRecord s c run id = answer
  cases deleteRecord_deleted h with
  | refused | missing => rfl
  | deleted => exact Run.schedule_writes ..

theorem deleteRecord_twin (id : RecordId) {run run' : Run σ} (htwin : run.Twin p run') (k : Clock) :
    (deleteRecord (s.beside g k) (c.relisted rules) run' id).1 = (deleteRecord s c run id).1 ∧
      (deleteRecord s c run id).2.Twin p
        (deleteRecord (s.beside g k) (c.relisted rules) run' id).2 := by
  have hsame : RecordStore.delete run'.store (c.relisted rules).target id =
      RecordStore.delete run.store c.target id := by
    rw [htwin.store]
    rfl
  unfold deleteRecord
  rw [hsame]
  cases RecordStore.delete run.store c.target id with
  | error e => exact ⟨rfl, htwin⟩
  | ok answer =>
    obtain ⟨found, store⟩ := answer
    cases found with
    | none => exact ⟨rfl, htwin.withStore store⟩
    | some r => exact ⟨rfl, ((htwin.withStore store).note _).schedule rfl _⟩

theorem copies_deleteRecord (id : RecordId) (item : Option Nat) (run : Run σ) :
    Copies p s.clock (fun r => c.tell item id (deleteRecord s c r id))
      (fun k r => c.tell item id (deleteRecord (s.beside g k) (c.relisted rules) r id)) run := by
  refine .of_twin (deleteRecord_writes s c id run) fun k run' htwin => ?_
  obtain ⟨hstatus, hrun⟩ := deleteRecord_twin p s c g rules id htwin k
  exact ⟨.tell c item id hstatus hrun, deleteRecord_writes ..⟩

/-- Whatever the run, an action deletes its target, writes a field of it or leaves it alone. -/
theorem act_cases (field : Option TargetField) (operand : Option Json) (t : Record) :
    (∀ s c' (run : Run σ), c'.rule = c.rule →
        act s c' run field operand t = deleteRecord s c' run t.id) ∨
      (∃ name m, ∀ s c' (run : Run σ), c'.rule = c.rule →
        act s c' run field operand t = writeField s c' run t.id name m) ∨
      ∃ status, ∀ s c' (run : Run σ), c'.rule = c.rule →
        act s c' run field operand t = (status, run) := by
  by_cases hdelete : c.rule.action = .cascadeDelete
  · exact Or.inl fun s c' run hrule => act_deletes (hrule ▸ hdelete) s run field operand t
  · refine Or.inr ?_
    cases field with
    | none =>
      exact Or.inr ⟨_, fun s c' run hrule => act_none (hrule ▸ hdelete) s run operand t⟩
    | some field =>
      by_cases hcheck : c.rule.action = .validate
      · refine Or.inr ⟨checkStatus c.rule field operand t, fun s c' run hrule => ?_⟩
        rw [act_checks (hrule ▸ hcheck), hrule]
      · have heq (s : Setting) (c' : Scope) (run : Run σ) (hrule : c'.rule = c.rule) :=
          act_eq_write (hrule ▸ hdelete) (hrule ▸ hcheck) s run field operand t
        cases operand with
        | none => exact Or.inr ⟨_, fun s c' run hrule => heq s c' run hrule⟩
        | some operand =>
          cases hm : mutationFor c.rule.action operand with
          | error e =>
            refine Or.inr ⟨.failed e, fun s c' run hrule => ?_⟩
            rw [heq s c' run hrule, hrule]
            dsimp only
            rw [hm]
          | ok m =>
            cases hfits : m.checkFor field.kind with
            | error e =>
              refine Or.inr ⟨.failed e, fun s c' run hrule => ?_⟩
              rw [heq s c' run hrule, hrule]
              dsimp only
              rw [hm]
              dsimp only
              rw [hfits]
            | ok _ =>
              refine Or.inl ⟨field.name, m, fun s c' run hrule => ?_⟩
              rw [heq s c' run hrule, hrule]
              dsimp only
              rw [hm]
              dsimp only
              rw [hfits]

theorem copies_act (field : Option TargetField) (operand : Option Json) (t : Record)
    (item : Option Nat) (run : Run σ) :
    Copies p s.clock (fun r => c.tell item t.id (act s c r field operand t))
      (fun k r => c.tell item t.id (act (s.beside g k) (c.relisted rules) r field operand t))
      run := by
  rcases act_cases (σ := σ) c field operand t with h | ⟨name, m, h⟩ | ⟨status, h⟩
  · exact (copies_deleteRecord p s c g rules t.id item run).congr
      (congrArg _ (h s c run rfl)) fun k run' _ => congrArg _ (h _ _ run' rfl)
  · exact (copies_writeField p s c g rules t.id name m item run).congr
      (congrArg _ (h s c run rfl)) fun k run' _ => congrArg _ (h _ _ run' rfl)
  · exact (Copies.emit (c.outcome item (some t.id) status)).congr
      (congrArg _ (h s c run rfl)) fun k run' _ => congrArg _ (h _ _ run' rfl)

/-! ## Applying a rule -/

theorem copies_actOnAll (field : Option TargetField) (operand : Option Json) (item : Option Nat)
    (targets : List Record) (run : Run σ) :
    Copies p s.clock (fun r => actOnAll s c field operand item targets r)
      (fun k r => actOnAll (s.beside g k) (c.relisted rules) field operand item targets r) run := by
  induction targets generalizing run with
  | nil => exact .of_twin rfl fun _ _ htwin => ⟨htwin, rfl⟩
  | cons t rest ih => exact (copies_act p s c g rules field operand t item run).comp (ih _)

theorem targetField_beside (k : Clock) :
    (c.relisted rules).targetField (s.beside g k).registry = c.targetField s.registry := rfl

theorem applications_relisted : (c.relisted rules).applications = c.applications := rfl

theorem copies_applyOnce (field : Option TargetField) (source : Option Source) (a : Application)
    (run : Run σ) :
    Copies p s.clock (fun r => applyOnce s c field source r a)
      (fun k r => applyOnce (s.beside g k) (c.relisted rules) field source r a) run := by
  have hemit (o : Outcome) :
      Copies p s.clock (fun r : Run σ => r.emit o) (fun _ r => r.emit o) run :=
    .emit o
  by_cases hmissing : (c.rule.action.needsOperand && (c.operandOf source a).isNone) = true
  · exact (hemit (c.outcome (a.item.map Item.index) none c.withoutOperand)).congr
      (if_pos hmissing) fun k run' htwin => if_pos hmissing
  · cases htargets : c.binding.targets s.registry run.store c.target c.trigger.record
        (a.item.map Item.element) with
    | error miss =>
      refine (hemit _).congr (applyOnce_error hmissing htargets field) fun k run' htwin => ?_
      rw [← htwin.store] at htargets
      exact applyOnce_error (s := s.beside g k) (c := c.relisted rules) hmissing htargets field
    | ok targets =>
      refine (copies_actOnAll p s c g rules _ _ _ targets run).congr
        (applyOnce_ok hmissing htargets field) fun k run' htwin => ?_
      rw [← htwin.store] at htargets
      exact applyOnce_ok (s := s.beside g k) (c := c.relisted rules) hmissing htargets field

/-! ### Adding up -/

/-- Adding up goes by the records and by what the application gives, and makes no field write. -/
theorem collect_twin {run run' : Run σ} (htwin : run.Twin p run') (totals : Totals)
    (a : Application) :
    (collect s c (run, totals) a).1.Twin p (collect s c (run', totals) a).1 ∧
      (collect s c (run', totals) a).2 = (collect s c (run, totals) a).2 ∧
      (collect s c (run, totals) a).1.writes = run.writes ∧
      (collect s c (run', totals) a).1.writes = run'.writes := by
  unfold collect
  dsimp only
  cases a.operand.filter fun v => !v.isNull with
  | none => exact ⟨htwin.emit _, rfl, rfl, rfl⟩
  | some operand =>
    dsimp only
    cases signedAmount c.rule.action operand with
    | error e => exact ⟨htwin.emit _, rfl, rfl, rfl⟩
    | ok amount =>
      dsimp only
      rw [htwin.store]
      cases c.binding.targets s.registry run.store c.target c.trigger.record
          (a.item.map fun i => i.element) with
      | error miss => exact ⟨htwin.emit _, rfl, rfl, rfl⟩
      | ok targets => exact ⟨htwin, rfl, rfl, rfl⟩

theorem collectAll_twin (applications : List Application) {run run' : Run σ}
    (htwin : run.Twin p run') (totals : Totals) :
    (applications.foldl (collect s c) (run, totals)).1.Twin p
        (applications.foldl (collect s c) (run', totals)).1 ∧
      (applications.foldl (collect s c) (run', totals)).2 =
        (applications.foldl (collect s c) (run, totals)).2 ∧
      (applications.foldl (collect s c) (run, totals)).1.writes = run.writes ∧
      (applications.foldl (collect s c) (run', totals)).1.writes = run'.writes := by
  induction applications generalizing run run' totals with
  | nil => exact ⟨htwin, rfl, rfl, rfl⟩
  | cons a rest ih =>
    obtain ⟨htwin', htotals, hwrites, hwrites'⟩ := collect_twin p s c htwin totals a
    obtain ⟨hrest, hsums, hrestWrites, hrestWrites'⟩ :=
      ih htwin' (collect s c (run, totals) a).2
    have hsum : collect s c (run', totals) a =
        ((collect s c (run', totals) a).1, (collect s c (run, totals) a).2) := by
      rw [← htotals]
    rw [List.foldl_cons, List.foldl_cons, hsum]
    exact ⟨hrest, hsums, hrestWrites.trans hwrites, hrestWrites'.trans hwrites'⟩

theorem copies_writeTotals (field : String) (totals : Totals) (run : Run σ) :
    Copies p s.clock (fun r => writeTotals s c field totals r)
      (fun k r => writeTotals (s.beside g k) (c.relisted rules) field totals r) run := by
  induction totals generalizing run with
  | nil => exact .of_twin rfl fun _ _ htwin => ⟨htwin, rfl⟩
  | cons e rest ih =>
    exact (copies_writeField p s c g rules e.1 field (.add e.2) none run).comp (ih _)

theorem copies_applyCoalesced (field : TargetField) (applications : List Application)
    (run : Run σ) :
    Copies p s.clock (fun r => applyCoalesced s c field r applications)
      (fun k r => applyCoalesced (s.beside g k) (c.relisted rules) field r applications) run := by
  cases hnumeric : checkNumeric field.kind with
  | error e =>
    have hfold : Copies p s.clock
        (fun r : Run σ => applications.foldl
          (fun r a => r.emit (c.outcome (a.item.map fun i => i.index) none (.failed e))) r)
        (fun _ r => applications.foldl
          (fun r a => r.emit (c.outcome (a.item.map fun i => i.index) none (.failed e))) r) run :=
      .foldl (fun a run => .emit _) applications run
    exact hfold.congr (applyCoalesced_error hnumeric _) fun k run' _ =>
      applyCoalesced_error (s := s.beside g k) (c := c.relisted rules) hnumeric _
  | ok _ =>
    have hsum : Copies p s.clock
        (fun r : Run σ => (applications.foldl (collect s c) (r, [])).1)
        (fun _ r => (applications.foldl (collect s c) (r, [])).1) run := by
      refine .of_twin (collectAll_twin p s c applications (.refl p run) []).2.2.1
        fun k run' htwin => ?_
      obtain ⟨htwin', _, _, hwrites⟩ := collectAll_twin p s c applications htwin []
      exact ⟨htwin', hwrites⟩
    refine (hsum.comp (copies_writeTotals p s c g rules field.name
      (applications.foldl (collect s c) (run, [])).2 _)).congr (applyCoalesced_ok hnumeric _)
      fun k run' htwin => ?_
    rw [← (collectAll_twin p s c applications htwin []).2.1]
    exact applyCoalesced_ok (s := s.beside g k) (c := c.relisted rules) hnumeric _

/-! ### A rule as a whole -/

/-- Whatever the run, a rule leaves it with an outcome, adds up, or goes through applications. -/
theorem applyRule_cases :
    (∃ o, ∀ g rules k (run : Run σ),
        applyRule (s.beside g k) (c.relisted rules) run = run.emit o) ∨
      (∃ field applications, ∀ g rules k (run : Run σ),
        applyRule (s.beside g k) (c.relisted rules) run =
          applyCoalesced (s.beside g k) (c.relisted rules) field run applications) ∨
      ∃ field source, ∃ applications : List Application, ∀ g rules k (run : Run σ),
        applyRule (s.beside g k) (c.relisted rules) run =
          applications.foldl (applyOnce (s.beside g k) (c.relisted rules) field source) run := by
  by_cases hother : ∃ name, c.rule.action = .other name
  · obtain ⟨name, hname⟩ := hother
    exact Or.inl ⟨c.outcome none none (.skipped (.unknownAction name)), fun g rules k run =>
      applyRule_other (c := c.relisted rules) hname (s.beside g k) run⟩
  · have heq := fun g rules k (run : Run σ) =>
      applyRule_eq (c := c.relisted rules) (fun name h => hother ⟨name, h⟩) (s.beside g k) run
    cases htarget : c.targetField s.registry with
    | error miss =>
      refine Or.inl ⟨c.outcome none none miss.status, fun g rules k run => ?_⟩
      rw [heq, targetField_beside, htarget]
      rfl
    | ok field =>
      cases happlications : c.applications with
      | error miss =>
        refine Or.inl ⟨c.outcome none none miss.status, fun g rules k run => ?_⟩
        rw [heq, targetField_beside, htarget, applications_relisted, happlications]
        rfl
      | ok parts =>
        obtain ⟨source, _ | ⟨a, rest⟩⟩ := parts
        · refine Or.inl ⟨c.outcome none none (.skipped .noItems), fun g rules k run => ?_⟩
          rw [heq, targetField_beside, htarget, applications_relisted, happlications]
          rfl
        · refine Or.inr ?_
          by_cases hsum : ∃ f, field = some f ∧ c.coalesces s.config (a :: rest) = true
          · obtain ⟨f, rfl, hsum⟩ := hsum
            refine Or.inl ⟨f, a :: rest, fun g rules k run => ?_⟩
            rw [heq, targetField_beside, htarget, applications_relisted, happlications]
            dsimp only
            rw [show (c.relisted rules).coalesces (s.beside g k).config (a :: rest) = true
              from hsum]
          · refine Or.inr ⟨field, source, a :: rest, fun g rules k run => ?_⟩
            rw [heq, targetField_beside, htarget, applications_relisted, happlications]
            dsimp only
            split
            · next f hsum' => exact absurd ⟨f, rfl, hsum'⟩ hsum
            · rfl

/-- A rule that is applied in twins leaves twins. -/
theorem copies_applyRule (run : Run σ) :
    Copies p s.clock (fun r => applyRule s c r)
      (fun k r => applyRule (s.beside g k) (c.relisted rules) r) run := by
  rcases applyRule_cases (σ := σ) s c with ⟨o, h⟩ | ⟨field, applications, h⟩ |
    ⟨field, source, applications, h⟩
  · exact (Copies.emit o).congr (h s.registry.graph c.relationship.rules s.clock run)
      fun k run' _ => h g rules k run'
  · exact (copies_applyCoalesced p s c g rules field applications run).congr
      (h s.registry.graph c.relationship.rules s.clock run) fun k run' _ => h g rules k run'
  · have hfold : Copies p s.clock
        (fun r => applications.foldl (applyOnce s c field source) r)
        (fun k r => applications.foldl
          (applyOnce (s.beside g k) (c.relisted rules) field source) r) run :=
      .foldl (fun a run => copies_applyOnce p s c g rules field source a run) applications run
    exact hfold.congr (h s.registry.graph c.relationship.rules s.clock run)
      fun k run' _ => h g rules k run'

end

end RecordRules
