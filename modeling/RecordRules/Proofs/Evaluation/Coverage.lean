/-
Every rule has its say.

The report of an evaluation falls into parts, one for each event, and the part of an event into
parts again, one for each rule that runs for it.  A rule that is applied may stop at many points,
and none of them is silent.  The parts are in the order of the schema, so no rule is left out and
none comes before its turn.
-/
import Mathlib.Data.List.Forall2
import RecordRules.Proofs.Evaluation.Depth
import RecordRules.Proofs.Evaluation.Sources
import RecordRules.Proofs.Evaluation.Statuses

namespace RecordRules

open List (Forall₂)

/-! ## Outcomes in parts -/

/-- A run has gone on and has added one part of outcomes for each item of a list. -/
def Run.Tells {α σ : Type} (P : α → List Outcome → Prop) (l : List α) (run run' : Run σ) : Prop :=
  ∃ parts, run'.outcomes = run.outcomes ++ parts.flatten ∧ Forall₂ P l parts

namespace Run.Tells

variable {α σ : Type} {P : α → List Outcome → Prop} {run run' run'' : Run σ}

theorem nil (h : run'.outcomes = run.outcomes) : run.Tells P [] run' :=
  ⟨[], h.trans (List.append_nil _).symm, .nil⟩

theorem one {a : α} {os : List Outcome} (h : run'.outcomes = run.outcomes ++ os) (ha : P a os) :
    run.Tells P [a] run' :=
  ⟨[os], by rw [h, List.flatten_singleton], .cons ha .nil⟩

theorem congr {l : List α} (h : run'.outcomes = run.outcomes) (h' : run'.Tells P l run'') :
    run.Tells P l run'' := by
  obtain ⟨parts, hparts, hP⟩ := h'
  exact ⟨parts, by rw [hparts, h], hP⟩

theorem append {l l' : List α} (h : run.Tells P l run') (h' : run'.Tells P l' run'') :
    run.Tells P (l ++ l') run'' := by
  obtain ⟨parts, hparts, hP⟩ := h
  obtain ⟨parts', hparts', hP'⟩ := h'
  refine ⟨parts ++ parts', ?_, List.rel_append hP hP'⟩
  rw [hparts', hparts, List.append_assoc, List.flatten_append]

/-- Going through a list adds a part for each item if each step does. -/
theorem foldl {f : Run σ → α → Run σ} (h : ∀ (run : Run σ) a, run.Tells P [a] (f run a))
    (l : List α) (run : Run σ) : run.Tells P l (l.foldl f run) := by
  induction l generalizing run with
  | nil => exact nil rfl
  | cons a rest ih => exact (h run a).append (ih (f run a))

end Run.Tells

theorem forall₂_flatten_ne_nil {α : Type} {P : α → List Outcome → Prop} {l : List α}
    {parts : List (List Outcome)} (h : Forall₂ P l parts) (hl : l ≠ [])
    (hP : ∀ a os, P a os → os ≠ []) : parts.flatten ≠ [] := by
  cases h with
  | nil => exact absurd rfl hl
  | cons ha _ => exact List.append_ne_nil_of_left_ne_nil (hP _ _ ha) _

theorem forall₂_flatten_all {α : Type} {P : α → List Outcome → Prop} {Q : Outcome → Prop}
    {l : List α} {parts : List (List Outcome)} (h : Forall₂ P l parts)
    (hP : ∀ a ∈ l, ∀ os, P a os → ∀ o ∈ os, Q o) : ∀ o ∈ parts.flatten, Q o := by
  induction h with
  | nil => exact List.forall_mem_nil _
  | cons ha _ ih =>
    exact List.forall_mem_append.mpr ⟨hP _ List.mem_cons_self _ ha,
      ih fun a ha => hP a (List.mem_cons_of_mem _ ha)⟩

/-! ## Targets -/

section

variable {σ : Type} [RecordStore σ] {store : σ} {module : ModuleId} {ts : List Record}

theorem fetch_ne_nil {id : RecordId} (h : fetch store module id = .ok ts) : ts ≠ [] := by
  cases fetch_fetched h with
  | found => exact List.cons_ne_nil _ _

/-- A binding that finds targets finds one at least. -/
theorem Binding.targets_ne_nil {b : Binding} {registry : Registry} {r : Record}
    {element : Option Json} (h : b.targets registry store module r element = .ok ts) : ts ≠ [] := by
  cases targets_searched h with
  | sole => exact List.cons_ne_nil _ _
  | record hfetched => exact fetch_ne_nil hfetched
  | source hfetched => exact fetch_ne_nil hfetched
  | foreignKey _ _ hfetched => exact fetch_ne_nil hfetched
  | byMatch _ _ _ hsome => exact hsome

end

/-! ## One application -/

/-- What a rule says: outcomes of its own and no others. -/
def Scope.Says (c : Scope) (os : List Outcome) : Prop :=
  ∀ o ∈ os, ∃ itemIndex target status, o = c.outcome itemIndex target status

/-- What a rule says of an array element or of the record as a whole: something, and all of it with
the index of the element. -/
def Scope.SaysOf (c : Scope) (itemIndex : Option Nat) (os : List Outcome) : Prop :=
  os ≠ [] ∧ ∀ o ∈ os, ∃ target status, o = c.outcome itemIndex target status

section

variable {σ : Type} [RecordStore σ] {s : Setting} {c : Scope}

theorem Scope.says_one (itemIndex : Option Nat) (target : Option RecordId) (status : Status) :
    c.Says [c.outcome itemIndex target status] :=
  List.forall_mem_singleton.mpr ⟨_, _, _, rfl⟩

theorem Scope.saysOf_one (itemIndex : Option Nat) (target : Option RecordId) (status : Status) :
    c.SaysOf itemIndex [c.outcome itemIndex target status] :=
  ⟨List.cons_ne_nil _ _, List.forall_mem_singleton.mpr ⟨_, _, rfl⟩⟩

theorem Scope.SaysOf.toSays {itemIndex : Option Nat} {os : List Outcome}
    (h : c.SaysOf itemIndex os) : c.Says os :=
  fun o ho => ⟨itemIndex, h.2 o ho⟩

/-- Each target has its outcome. -/
theorem actOnAll_tells (field : Option TargetField) (operand : Option Json)
    (itemIndex : Option Nat) (targets : List Record) (run : Run σ) :
    run.Tells (fun _ os => c.SaysOf itemIndex os) targets
      (actOnAll s c field operand itemIndex targets run) := by
  induction targets generalizing run with
  | nil => exact .nil rfl
  | cons t rest ih =>
    have hrun := act_outcomes s (c := c) run field operand t
    unfold actOnAll
    exact .append (l := [t]) (.one (congrArg (· ++ _) hrun) (Scope.saysOf_one _ _ _)) (ih _)

theorem applyOnce_tells (field : Option TargetField) (source : Option Source) (run : Run σ)
    (a : Application) :
    run.Tells (fun a os => c.SaysOf (a.item.map Item.index) os) [a]
      (applyOnce s c field source run a) := by
  generalize h : applyOnce s c field source run a = run'
  cases applyOnce_applies h with
  | lacking | lost => exact .one rfl (Scope.saysOf_one _ _ _)
  | @acts targets htargets =>
    obtain ⟨parts, hparts, hsaid⟩ := actOnAll_tells field (c.operandOf source a)
      (a.item.map Item.index) targets run
    exact .one hparts ⟨forall₂_flatten_ne_nil hsaid (Binding.targets_ne_nil htargets)
      fun _ _ h => h.1, forall₂_flatten_all hsaid fun _ _ _ h => h.2⟩

/-! ## Adding up -/

theorem addTotal_ne_nil (id : RecordId) (amount : Binary64) (totals : Totals) :
    addTotal id amount totals ≠ [] := by
  unfold addTotal
  split
  · next total h =>
    intro hnil
    cases totals with
    | nil => cases h
    | cons e rest =>
      unfold Assoc.put at hnil
      split at hnil <;> cases hnil
  · exact List.append_ne_nil_of_right_ne_nil _ (List.cons_ne_nil _ _)

theorem addTotals_ne_nil (amount : Binary64) (targets : List Record) {totals : Totals}
    (h : targets ≠ [] ∨ totals ≠ []) :
    targets.foldl (fun totals t => addTotal t.id amount totals) totals ≠ [] := by
  induction targets generalizing totals with
  | nil => exact h.resolve_left fun h => h rfl
  | cons t rest ih => exact ih (Or.inr (addTotal_ne_nil t.id amount totals))

/-- An application that is added up is reported at once or leaves an amount to be written. -/
theorem collect_tells (run : Run σ) (totals : Totals) (a : Application) :
    ∃ os, (collect s c (run, totals) a).1.outcomes = run.outcomes ++ os ∧ c.Says os ∧
      (os ≠ [] ∨ (collect s c (run, totals) a).2 ≠ []) ∧
      (totals ≠ [] → (collect s c (run, totals) a).2 ≠ []) := by
  generalize h : collect s c (run, totals) a = sum
  cases collect_collects h with
  | lacking | badAmount | lost =>
    exact ⟨_, rfl, Scope.says_one _ _ _, Or.inl (List.cons_ne_nil _ _), id⟩
  | @adds amount targets htargets =>
    refine ⟨[], (List.append_nil _).symm, List.forall_mem_nil _, Or.inr ?_, fun h => ?_⟩
    · exact addTotals_ne_nil amount targets (Or.inl (Binding.targets_ne_nil htargets))
    · exact addTotals_ne_nil amount targets (Or.inr h)

theorem collectAll_tells (applications : List Application) (run : Run σ) (totals : Totals) :
    ∃ os, (applications.foldl (collect s c) (run, totals)).1.outcomes = run.outcomes ++ os ∧
      c.Says os ∧
      (applications ≠ [] → os ≠ [] ∨ (applications.foldl (collect s c) (run, totals)).2 ≠ []) ∧
      (totals ≠ [] → (applications.foldl (collect s c) (run, totals)).2 ≠ []) := by
  induction applications generalizing run totals with
  | nil => exact ⟨[], (List.append_nil _).symm, List.forall_mem_nil _, fun h => absurd rfl h, id⟩
  | cons a rest ih =>
    obtain ⟨os, hos, hsaid, hsome, hkept⟩ := collect_tells (s := s) (c := c) run totals a
    obtain ⟨more, hmore, hmoreSays, _, hmoreKept⟩ :=
      ih (collect s c (run, totals) a).1 (collect s c (run, totals) a).2
    refine ⟨os ++ more, ?_, List.forall_mem_append.mpr ⟨hsaid, hmoreSays⟩, fun _ => ?_,
      fun h => hmoreKept (hkept h)⟩
    · exact hmore.trans (by rw [hos, List.append_assoc])
    · rcases hsome with hsome | hsome
      · exact Or.inl (List.append_ne_nil_of_left_ne_nil hsome _)
      · exact Or.inr (hmoreKept hsome)

theorem writeTotals_tells (field : String) (totals : Totals) (run : Run σ) :
    run.Tells (fun _ os => c.SaysOf none os) totals (writeTotals s c field totals run) := by
  induction totals generalizing run with
  | nil => exact .nil rfl
  | cons e rest ih =>
    obtain ⟨id, total⟩ := e
    have hrun := (writeField_reports s (c := c) run id field (.add total)).2
    unfold writeTotals
    exact .append (l := [(id, total)]) (.one (congrArg (· ++ _) hrun) (Scope.saysOf_one _ _ _))
      (ih _)

theorem applyCoalesced_tells (field : TargetField) {applications : List Application}
    (hsome : applications ≠ []) (run : Run σ) :
    ∃ os, (applyCoalesced s c field run applications).outcomes = run.outcomes ++ os ∧
      c.Says os ∧ os ≠ [] := by
  cases hnumeric : checkNumeric field.kind with
  | error e =>
    rw [applyCoalesced_error hnumeric]
    obtain ⟨parts, hparts, hsaid⟩ := Run.Tells.foldl
      (P := fun (a : Application) os => c.SaysOf (a.item.map Item.index) os)
      (f := fun run a => run.emit (c.outcome (a.item.map Item.index) none (.failed e)))
      (fun run a => .one rfl (Scope.saysOf_one _ _ _)) applications run
    exact ⟨_, hparts, forall₂_flatten_all hsaid fun _ _ _ h => h.toSays,
      forall₂_flatten_ne_nil hsaid hsome fun _ _ h => h.1⟩
  | ok _ =>
    rw [applyCoalesced_ok hnumeric]
    obtain ⟨os, hos, hsaid, htotals, _⟩ := collectAll_tells (s := s) (c := c) applications run []
    obtain ⟨parts, hparts, hwritten⟩ := writeTotals_tells (s := s) (c := c) field.name
      (applications.foldl (collect s c) (run, [])).2 (applications.foldl (collect s c) (run, [])).1
    refine ⟨os ++ parts.flatten, hparts.trans ?_, ?_, ?_⟩
    · rw [hos, List.append_assoc]
    · exact List.forall_mem_append.mpr ⟨hsaid, forall₂_flatten_all hwritten fun _ _ _ h => h.toSays⟩
    · rcases htotals hsome with h | h
      · exact List.append_ne_nil_of_left_ne_nil h _
      · exact List.append_ne_nil_of_right_ne_nil _
          (forall₂_flatten_ne_nil hwritten h fun _ _ h => h.1)

end

/-! ## Array elements in turn -/

/-- Each of a number of array elements has its turn, and they have it in order. -/
def InTurn (n : Nat) (l : List (Option Nat)) : Prop :=
  ∃ indices : List Nat, l = indices.map some ∧ indices.Pairwise (· ≤ ·) ∧ ∀ i, i ∈ indices ↔ i < n

/-- What is said of elements one after another has their indices in order. -/
theorem forall₂_indices {c : Scope} {indices : List Nat} {parts : List (List Outcome)}
    (h : Forall₂ (fun i os => c.SaysOf (some i) os) indices parts)
    (hsorted : indices.Pairwise (· ≤ ·)) :
    ∃ told : List Nat, parts.flatten.map Outcome.itemIndex = told.map some ∧
      told.Pairwise (· ≤ ·) ∧ ∀ i, i ∈ told ↔ i ∈ indices := by
  induction h with
  | nil => exact ⟨[], rfl, .nil, fun _ => Iff.rfl⟩
  | @cons i os rest parts hsaid _ ih =>
    obtain ⟨hfirst, hrest⟩ := List.pairwise_cons.mp hsorted
    obtain ⟨told, htold, hpairs, hmem⟩ := ih hrest
    refine ⟨List.replicate os.length i ++ told, ?_, ?_, fun j => ?_⟩
    · have hos : os.map Outcome.itemIndex = List.replicate os.length (some i) := by
        refine List.eq_replicate_iff.mpr ⟨List.length_map _, fun index hindex => ?_⟩
        obtain ⟨o, ho, rfl⟩ := List.mem_map.mp hindex
        obtain ⟨target, status, rfl⟩ := hsaid.2 o ho
        rfl
      rw [List.flatten_cons, List.map_append, hos, htold, List.map_append, List.map_replicate]
    · refine List.pairwise_append.mpr ⟨List.pairwise_replicate.mpr (Or.inr (Nat.le_refl i)),
        hpairs, fun j hj k hk => ?_⟩
      rw [List.eq_of_mem_replicate hj]
      exact hfirst k ((hmem k).mp hk)
    · rw [List.mem_append, List.mem_replicate, List.mem_cons, hmem]
      exact or_congr_left (and_iff_right fun h => hsaid.1 (List.length_eq_zero_iff.mp h))

/-! ## A rule -/

/-- A rule that can do what it is for goes through the elements of an array, one by one.  The source
that it goes through is chosen from its own and from the key of its binding, so both are read. -/
structure Scope.GoesThrough (c : Scope) (s : Setting) (items : List Item) : Prop where
  known : ∀ name, c.rule.action ≠ .other name
  home : s.registry.hasModule c.target = true
  field : ∃ field, c.targetField s.registry = .ok field
  array : ∃ source key subfield name, parseSource c.rule.source = .ok source ∧
    parseSource c.binding.keySource? = .ok key ∧ fanOut? source key = some subfield ∧
    c.trigger.record.items subfield c.fields = .ok (name, items)
  some : items ≠ []
  each : s.config.coalesces = true → c.rule.action ≠ .increment ∧ c.rule.action ≠ .decrement

theorem Scope.GoesThrough.applications {c : Scope} {s : Setting} {items : List Item}
    (h : c.GoesThrough s items) :
    ∃ source applications, c.applications = .ok (source, applications) ∧
      applications.map (fun a => a.item.map Item.index) =
        (List.range items.length).map Option.some := by
  obtain ⟨source, key, subfield, name, hsource, hkey, hfan, hitems⟩ := h.array
  refine ⟨source, _, Scope.applications_of_items hsource hkey hfan hitems, ?_⟩
  rw [← Record.indices_items hitems, List.map_map, List.map_map]
  rfl

theorem Scope.GoesThrough.coalesces_eq_false {c : Scope} {s : Setting} {items : List Item}
    (h : c.GoesThrough s items) (applications : List Application) :
    c.coalesces s.config applications = false := by
  unfold Scope.coalesces
  cases hon : s.config.coalesces with
  | false => rfl
  | true =>
    obtain ⟨hincrement, hdecrement⟩ := h.each hon
    rw [beq_false_of_ne hincrement, beq_false_of_ne hdecrement]
    rfl

/-- If something is said of each application, then of each element in turn. -/
theorem Scope.GoesThrough.inTurn {c : Scope} {s : Setting} {items : List Item}
    (h : c.GoesThrough s items) {source : Option Source} {applications : List Application}
    (happlications : c.applications = .ok (source, applications)) {parts : List (List Outcome)}
    (hsaid : Forall₂ (fun a os => c.SaysOf (a.item.map Item.index) os) applications parts) :
    InTurn items.length (parts.flatten.map Outcome.itemIndex) := by
  obtain ⟨_, _, heq, hindices⟩ := h.applications
  cases happlications.symm.trans heq
  have hparts : Forall₂ (fun i os => c.SaysOf (Option.some i) os) (List.range items.length)
      parts := by
    rw [← List.forall₂_map_left_iff (f := Option.some) (R := fun i os => c.SaysOf i os),
      ← hindices, List.forall₂_map_left_iff]
    exact hsaid
  obtain ⟨told, htold, hpairs, hmem⟩ := forall₂_indices hparts List.pairwise_le_range
  exact ⟨told, htold, hpairs, fun i => (hmem i).trans List.mem_range⟩

/-- What a rule is to say at its turn: something of its own and, if it goes through an array and is
not cut off, something of each element. -/
structure Scope.Told (c : Scope) (s : Setting) (os : List Outcome) : Prop where
  own : c.Says os
  some : os ≠ []
  elements : ∀ items, c.GoesThrough s items → (∀ o ∈ os, o.status ≠ .skipped .timeout) →
    InTurn items.length (os.map Outcome.itemIndex)

section

variable {σ : Type} [RecordStore σ] {s : Setting} {c : Scope}

/-- A rule that does not get to the elements of an array says why. -/
theorem Scope.told_one (status : Status)
    (h : ∀ items, c.GoesThrough s items → status = .skipped .timeout) :
    c.Told s [c.outcome none none status] where
  own := says_one none none status
  some := List.cons_ne_nil _ _
  elements := fun items hitems hcut =>
    absurd (h items hitems) (hcut _ (List.mem_singleton_self _))

theorem applyRule_told (run : Run σ) :
    ∃ os, (applyRule s c run).outcomes = run.outcomes ++ os ∧ c.Told s os := by
  generalize h : applyRule s c run = run'
  cases applyRule_applies h with
  | @unknown name hother =>
    exact ⟨_, rfl, Scope.told_one _ fun _ hitems => absurd hother (hitems.known name)⟩
  | noField _ hmiss =>
    refine ⟨_, rfl, Scope.told_one _ fun _ hitems => ?_⟩
    obtain ⟨field, hfield⟩ := hitems.field
    cases hmiss.symm.trans hfield
  | noApplications _ _ hmiss =>
    refine ⟨_, rfl, Scope.told_one _ fun _ hitems => ?_⟩
    obtain ⟨source, applications, happlications, _⟩ := hitems.applications
    cases hmiss.symm.trans happlications
  | noItems _ _ hnone =>
    refine ⟨_, rfl, Scope.told_one _ fun _ hitems => ?_⟩
    obtain ⟨source, applications, happlications, hindices⟩ := hitems.applications
    cases hnone.symm.trans happlications
    have hlength := congrArg List.length hindices
    rw [List.length_map, List.length_map, List.length_range] at hlength
    exact absurd (List.length_eq_zero_iff.mp hlength.symm) hitems.some
  | sums _ _ _ hsome hsum =>
    obtain ⟨os, hos, hsaid, hne⟩ := applyCoalesced_tells (s := s) _ hsome run
    refine ⟨os, hos, hsaid, hne, fun items hitems _ => ?_⟩
    rw [hitems.coalesces_eq_false] at hsum
    cases hsum
  | each _ _ happlications hsome =>
    obtain ⟨parts, hparts, hsaid⟩ := Run.Tells.foldl (applyOnce_tells _ _) _ run
    exact ⟨_, hparts, forall₂_flatten_all hsaid fun _ _ _ h => h.toSays,
      forall₂_flatten_ne_nil hsaid hsome fun _ _ h => h.1,
      fun items hitems _ => hitems.inTurn happlications hsaid⟩

/-- A rule has its say, whether it comes in time or too late. -/
theorem runRule_told (run : Run σ) :
    ∃ os, (runRule s c run).outcomes = run.outcomes ++ os ∧ c.Told s os := by
  have houtcomes : (run.lookAtClock s).outcomes = run.outcomes := by
    obtain ⟨looks, timedOut, ws, heq⟩ := Run.lookAtClock_eq s run
    rw [heq]
  rw [← houtcomes]
  generalize h : runRule s c run = run'
  cases runRule_runs h with
  | late => exact ⟨_, rfl, Scope.told_one _ fun _ _ => rfl⟩
  | applied => exact applyRule_told _
  | gone _ hgone =>
    refine ⟨_, rfl, Scope.told_one _ fun _ hitems => ?_⟩
    rw [hitems.home] at hgone
    cases hgone

end

/-! ## The rules of an event -/

/-- The place of a rule among those of its event. -/
def Scope.spot (c : Scope) : Nat × Nat := (c.relationshipIndex, c.ruleIndex)

def Outcome.spot (o : Outcome) : Nat × Nat := (o.relationshipIndex, o.ruleIndex)

theorem Scope.Says.spot_eq {c : Scope} {os : List Outcome} (h : c.Says os) :
    ∀ o ∈ os, o.spot = c.spot := by
  intro o ho
  obtain ⟨itemIndex, target, status, rfl⟩ := h o ho
  rfl

namespace Setting

/-- The rules of a relationship that run for an event, from one of them on. -/
def scopesOf (s : Setting) (mode : Mode) (t : Trigger) (index : Nat) (r : Relationship)
    (start : Nat) (rules : List Rule) : List Scope :=
  ((rules.zipIdx start).filter fun e => mode.runs e.1.action).map fun e =>
    ⟨t, index, r, s.registry.listFields t.module, e.2, e.1⟩

/-- The rules that run for an event, in the order in which they run. -/
def scopes (s : Setting) (mode : Mode) (t : Trigger) : List Scope :=
  (s.registry.relationshipsFrom t.module).zipIdx.flatMap fun e =>
    s.scopesOf mode t e.2 e.1 0 (e.1.rules.get t.event)

variable {s : Setting} {mode : Mode} {t : Trigger}

theorem mem_scopes {c : Scope} : c ∈ s.scopes mode t ↔ c.InPlace s mode t := by
  simp only [scopes, scopesOf, List.mem_flatMap, List.mem_map, List.mem_filter, Prod.exists,
    List.mem_zipIdx_iff_getElem?]
  constructor
  · rintro ⟨r, index, hr, rule, place, ⟨hrule, hruns⟩, rfl⟩
    exact ⟨rfl, hr, rfl, hrule, hruns⟩
  · rintro ⟨htrigger, hr, hfields, hrule, hruns⟩
    refine ⟨c.relationship, c.relationshipIndex, hr, c.rule, c.ruleIndex, ⟨hrule, hruns⟩, ?_⟩
    rw [← hfields, ← htrigger]

theorem pairwise_zipIdx {α : Type} (l : List α) (start : Nat) :
    (l.zipIdx start).Pairwise fun a b => a.2 < b.2 := by
  rw [← List.pairwise_map (f := Prod.snd) (R := (· < ·)), List.zipIdx_map_snd]
  exact List.pairwise_lt_range'

/-- Rules run in the order of their places. -/
theorem pairwise_scopes : (s.scopes mode t).Pairwise fun c d =>
    Prod.Lex (· < ·) (· < ·) c.spot d.spot := by
  refine List.pairwise_flatMap.mpr ⟨fun e _ => ?_, ?_⟩
  · refine List.pairwise_map.mpr (List.Pairwise.filter _ ?_)
    exact (pairwise_zipIdx _ 0).imp fun h => .right _ h
  · refine (pairwise_zipIdx _ 0).imp fun h c hc d hd => ?_
    obtain ⟨_, _, rfl⟩ := List.mem_map.mp hc
    obtain ⟨_, _, rfl⟩ := List.mem_map.mp hd
    exact .left _ _ h

end Setting

section

variable {σ : Type} [RecordStore σ] {s : Setting} {mode : Mode} {t : Trigger}

variable {P : Scope → List Outcome → Prop}

theorem runRules_tells
    (hrule : ∀ (c : Scope) (run : Run σ),
      ∃ os, (runRule s c run).outcomes = run.outcomes ++ os ∧ P c os)
    {index : Nat} {r : Relationship} (start : Nat) (rules : List Rule) (run : Run σ) :
    run.Tells P (s.scopesOf mode t index r start rules)
      (runRules s mode t (s.registry.listFields t.module) index r start rules run) := by
  induction rules generalizing start run with
  | nil => exact .nil rfl
  | cons rule rest ih =>
    unfold runRules Setting.scopesOf
    rw [List.zipIdx_cons, List.filter_cons]
    dsimp only
    split
    · obtain ⟨os, hos, hsaid⟩ :=
        hrule ⟨t, index, r, s.registry.listFields t.module, start, rule⟩ run
      exact .append (l := [_]) (.one hos hsaid) (ih (start + 1) _)
    · exact ih (start + 1) run

theorem runRelationships_tells
    (hrule : ∀ (c : Scope) (run : Run σ),
      ∃ os, (runRule s c run).outcomes = run.outcomes ++ os ∧ P c os)
    (index : Nat) (relationships : List Relationship) (run : Run σ) :
    run.Tells P
      ((relationships.zipIdx index).flatMap fun e =>
        s.scopesOf mode t e.2 e.1 0 (e.1.rules.get t.event))
      (runRelationships s mode t (s.registry.listFields t.module) index relationships run) := by
  induction relationships generalizing index run with
  | nil => exact .nil rfl
  | cons r rest ih =>
    unfold runRelationships runRelationship
    rw [List.zipIdx_cons, List.flatMap_cons]
    refine .append (.congr ?_ (runRules_tells hrule 0 _ _)) (ih (index + 1) _)
    split <;> rfl

/-- What every rule says at its turn makes up what is said of an event, in the order of rules. -/
theorem runTrigger_tells
    (hrule : ∀ (c : Scope) (run : Run σ),
      ∃ os, (runRule s c run).outcomes = run.outcomes ++ os ∧ P c os)
    (mode : Mode) (t : Trigger) (run : Run σ) :
    run.Tells P (s.scopes mode t) (runTrigger s mode t run) :=
  runRelationships_tells hrule 0 _ run

end

/-! ## What the rules of an event say together -/

section

variable {P : Scope → List Outcome → Prop} {l : List Scope} {parts : List (List Outcome)}

theorem spot_of_mem_parts (hown : ∀ c os, P c os → c.Says os) (h : Forall₂ P l parts) :
    ∀ o ∈ parts.flatten, ∃ c ∈ l, o.spot = c.spot :=
  forall₂_flatten_all h fun c hc os hsaid o ho => ⟨c, hc, (hown c os hsaid).spot_eq o ho⟩

theorem parts_ordered (hown : ∀ c os, P c os → c.Says os) (h : Forall₂ P l parts)
    (hl : l.Pairwise fun c d => Prod.Lex (· < ·) (· < ·) c.spot d.spot) :
    parts.flatten.Pairwise fun o p => Prod.Lex (· < ·) (· ≤ ·) o.spot p.spot := by
  induction h with
  | nil => exact .nil
  | @cons c os rest more hsaid hrest ih =>
    obtain ⟨hfirst, hl⟩ := List.pairwise_cons.mp hl
    have hspot := (hown c os hsaid).spot_eq
    refine List.pairwise_append.mpr ⟨?_, ih hl, fun o ho p hp => ?_⟩
    · refine List.pairwise_of_forall_mem_list fun o ho p hp => ?_
      rw [hspot o ho, hspot p hp]
    · obtain ⟨d, hd, hother⟩ := spot_of_mem_parts hown hrest p hp
      have hlt := hfirst d hd
      rw [← hother, ← hspot o ho] at hlt
      exact Prod.lex_def.mpr ((Prod.lex_def.mp hlt).imp_right (And.imp_right Nat.le_of_lt))

/-- The outcomes that name the place of a rule are those that it said. -/
theorem parts_filter (hown : ∀ c os, P c os → c.Says os) (h : Forall₂ P l parts)
    (hl : l.Pairwise fun c d => Prod.Lex (· < ·) (· < ·) c.spot d.spot) {c : Scope} (hc : c ∈ l) :
    P c (parts.flatten.filter fun o => o.spot = c.spot) := by
  have hother {d : Scope} (hlt : Prod.Lex (· < ·) (· < ·) c.spot d.spot ∨
      Prod.Lex (· < ·) (· < ·) d.spot c.spot) : d.spot ≠ c.spot := by
    intro heq
    rw [heq, or_self] at hlt
    rcases Prod.lex_def.mp hlt with hlt | ⟨_, hlt⟩
    · exact Nat.lt_irrefl _ hlt
    · exact Nat.lt_irrefl _ hlt
  induction h with
  | nil => exact absurd hc List.not_mem_nil
  | @cons d os rest more hsaid hrest ih =>
    obtain ⟨hfirst, hl⟩ := List.pairwise_cons.mp hl
    have hspot := (hown d os hsaid).spot_eq
    rw [List.flatten_cons, List.filter_append]
    rcases List.mem_cons.mp hc with rfl | hc
    · have hos : os.filter (fun o => o.spot = c.spot) = os :=
        List.filter_eq_self.mpr fun o ho => decide_eq_true (hspot o ho)
      have hmore : more.flatten.filter (fun o => o.spot = c.spot) = [] := by
        refine List.filter_eq_nil_iff.mpr fun o ho heq => ?_
        obtain ⟨d, hd, hd'⟩ := spot_of_mem_parts hown hrest o ho
        exact hother (Or.inl (hfirst d hd)) (hd' ▸ of_decide_eq_true heq)
      rw [hos, hmore, List.append_nil]
      exact hsaid
    · have hos : os.filter (fun o => o.spot = c.spot) = [] := by
        refine List.filter_eq_nil_iff.mpr fun o ho heq => ?_
        exact hother (Or.inr (hfirst c hc)) (hspot o ho ▸ of_decide_eq_true heq)
      rw [hos, List.nil_append]
      exact ih hl hc

end

/-- Outcomes cover an event: they are of rules that run for it, in their order, with one at least
for each of them.  A rule that goes through an array and is not cut off has one at least for each
element, in the order of the elements. -/
structure Setting.Covers (s : Setting) (mode : Mode) (t : Trigger) (os : List Outcome) : Prop where
  own : ∀ o ∈ os, o.Of s mode t
  ordered : os.Pairwise fun o p => Prod.Lex (· < ·) (· ≤ ·) o.spot p.spot
  complete : ∀ c : Scope, c.InPlace s mode t → ∃ o ∈ os, o.spot = c.spot
  elements : ∀ (c : Scope) items, c.InPlace s mode t → c.GoesThrough s items →
    let told := os.filter fun o => o.spot = c.spot
    (∀ o ∈ told, o.status ≠ .skipped .timeout) →
      InTurn items.length (told.map Outcome.itemIndex)

theorem Setting.covers_flatten {s : Setting} {mode : Mode} {t : Trigger}
    {parts : List (List Outcome)}
    (h : Forall₂ (fun c os => c.Told s os) (s.scopes mode t) parts) :
    s.Covers mode t parts.flatten where
  own := forall₂_flatten_all h fun c hc _ htold o ho => ⟨c, mem_scopes.mp hc, htold.own o ho⟩
  ordered := parts_ordered (fun _ _ => Scope.Told.own) h pairwise_scopes
  complete := fun c place => by
    have htold := parts_filter (fun _ _ => Scope.Told.own) h pairwise_scopes (mem_scopes.mpr place)
    obtain ⟨o, ho⟩ := List.exists_mem_of_ne_nil _ htold.some
    obtain ⟨hmem, hspot⟩ := List.mem_filter.mp ho
    exact ⟨o, hmem, of_decide_eq_true hspot⟩
  elements := fun _ items place hitems =>
    (parts_filter (fun _ _ => Scope.Told.own) h pairwise_scopes (mem_scopes.mpr place)).elements
      items hitems

/-! ## Events -/

theorem modeOf_everything (t : Trigger) : modeOf .everything t = .everything := ite_self _

section

variable {σ : Type} [RecordStore σ] {s : Setting} {rootMode : Mode}

theorem runTrigger_covers (mode : Mode) (t : Trigger) (run : Run σ) :
    ∃ os, (runTrigger s mode t run).outcomes = run.outcomes ++ os ∧ s.Covers mode t os := by
  obtain ⟨parts, hparts, htold⟩ := runTrigger_tells (s := s) (fun _ => runRule_told) mode t run
  exact ⟨parts.flatten, hparts, Setting.covers_flatten htold⟩

/-- What each event adds to what is seen of a run makes up what the evaluation of the queue adds, in
parts, one for each event that is evaluated. -/
theorem drain_adds [LawfulRecordStore σ] {α : Type} (view : Run σ → List α)
    (htake : ∀ (run : Run σ) t rest, view (run.take t rest) = view run)
    {P : Trigger → List α → Prop}
    (hevent : ∀ t (run : Run σ), ∃ added,
      view (runTrigger s (modeOf rootMode t) t run) = view run ++ added ∧ P t added)
    (rounds : Nat) (run : Run σ) :
    ∃ ts parts, (drain s rootMode rounds run).evaluated = run.evaluated ++ ts ∧
      view (drain s rootMode rounds run) = view run ++ parts.flatten ∧ Forall₂ P ts parts := by
  induction rounds generalizing run with
  | zero => exact ⟨[], [], (List.append_nil _).symm, (List.append_nil _).symm, .nil⟩
  | succ rounds ih =>
    unfold drain
    split
    · exact ⟨[], [], (List.append_nil _).symm, (List.append_nil _).symm, .nil⟩
    · next t rest _ =>
      obtain ⟨ts, parts, hts, hparts, hall⟩ := ih (next s rootMode t rest run)
      obtain ⟨added, hadded, ht⟩ := hevent t (run.take t rest)
      refine ⟨t :: ts, added :: parts, ?_, ?_, .cons ht hall⟩
      · rw [hts, evaluated_next, List.append_assoc]
        rfl
      · rw [hparts, next, hadded, htake, List.append_assoc, List.flatten_cons]

/-- Only the root event lies at depth 0. -/
theorem Reaches.layers [LawfulRecordStore σ] {run run' : Run σ} (h : Reaches s rootMode run run') :
    ∃ added, run'.layers = run.layers ++ added ∧ ∀ l ∈ added, 0 < l.2 := by
  induction h with
  | refl => exact ⟨[], (List.append_nil _).symm, List.forall_mem_nil _⟩
  | tail _ step ih =>
    obtain ⟨added, hadded, hdeep⟩ := ih
    rcases step.layers_cases with
      ⟨hlayers, _⟩ | ⟨t, u, _, _, hdepth, ⟨_, hlayers, _⟩ | ⟨_, hlayers, _⟩⟩
    · exact ⟨added, hlayers.trans hadded, hdeep⟩
    · exact ⟨added, hlayers.trans hadded, hdeep⟩
    · refine ⟨added ++ [u.layer], by rw [hlayers, hadded, List.append_assoc], ?_⟩
      refine List.forall_mem_append.mpr ⟨hdeep, List.forall_mem_singleton.mpr ?_⟩
      show 0 < u.depth
      rw [hdepth]
      exact Nat.succ_pos _

/-- The root event comes first, and all other events lie below it.  What each of them adds makes up
what the evaluation adds. -/
theorem evaluation_adds [LawfulRecordStore σ] (registry : Registry) (config : Config)
    (clock : Clock) (store : σ) (module : ModuleId) (event : Event) (record : Record)
    (prechecked : Option (List Outcome)) {α : Type} (view : Run σ → List α)
    (htake : ∀ (run : Run σ) t rest, view (run.take t rest) = view run)
    {P : Trigger → List α → Prop}
    (hevent : ∀ t (run : Run σ), ∃ added,
      view (runTrigger (.ofRoot registry config clock) (modeOf (.ofRoot prechecked) t) t run) =
        view run ++ added ∧ P t added) :
    let root : Trigger := ⟨module, event, record, 0⟩
    let final := evaluation registry config clock store module event record prechecked
    ∃ others parts, final.evaluated = root :: others ∧ (∀ t ∈ others, 0 < t.depth) ∧
      view final = view (Run.root store module event record (prechecked.getD [])) ++
        parts.flatten ∧
      Forall₂ P (root :: others) parts := by
  intro root final
  let s := Setting.ofRoot registry config clock
  let start := Run.root store module event record (prechecked.getD [])
  let first := next s (.ofRoot prechecked) root [] start
  have hfinal : final = drain s (.ofRoot prechecked) (2 * recordCount registry store) first := by
    show drain s _ (1 + _) start = _
    rw [Nat.add_comm]
    rfl
  obtain ⟨others, parts, hothers, hparts, hall⟩ := drain_adds view htake hevent
    (2 * recordCount registry store) first
  obtain ⟨added, hadded, hroot⟩ := hevent root (start.take root [])
  have hfirst : view first = view start ++ added := by
    rw [← htake start root []]
    exact hadded
  rw [evaluated_next, ← hfinal] at hothers
  refine ⟨others, added :: parts, hothers, ?_, ?_, .cons hroot hall⟩
  · obtain ⟨added, hadded, hdeep⟩ := (evaluation_reaches registry config clock store module event
      record prechecked).layers
    rw [Run.layers, Run.events, evaluation_queue, List.append_nil,
      show (evaluation registry config clock store module event record prechecked).evaluated = _
        from hothers] at hadded
    have hmap : others.map Trigger.layer = added := (List.cons.inj hadded).2
    intro t ht
    exact hdeep t.layer (hmap ▸ List.mem_map_of_mem ht)
  · rw [hfinal, hparts, hfirst, List.append_assoc, List.flatten_cons]

/-- Each event of an evaluation is covered. -/
theorem evaluation_covers [LawfulRecordStore σ] (registry : Registry) (config : Config)
    (clock : Clock) (store : σ) (module : ModuleId) (event : Event) (record : Record)
    (prechecked : Option (List Outcome)) :
    let s := Setting.ofRoot registry config clock
    let root : Trigger := ⟨module, event, record, 0⟩
    let final := evaluation registry config clock store module event record prechecked
    ∃ others parts, final.evaluated = root :: others ∧ (∀ t ∈ others, 0 < t.depth) ∧
      final.outcomes = prechecked.getD [] ++ parts.flatten ∧
      Forall₂ (fun t os => s.Covers (modeOf (.ofRoot prechecked) t) t os) (root :: others) parts :=
  evaluation_adds registry config clock store module event record prechecked Run.outcomes
    (fun _ _ _ => rfl) fun t run => runTrigger_covers (modeOf (.ofRoot prechecked) t) t run

end

end RecordRules
