/-
The report tells of every change to the records.

Each write of a run leaves an outcome that names the rule and the record.  What a run has made of a
record is compared with what it was at the start, field by field.  A store that keeps text can read
a field back with another value than was written, and then another field than that of the rule
changes; nothing else can go past the report.
-/
import RecordRules.Proofs.Evaluation.Termination
import RecordRules.Proofs.Store.Table

namespace RecordRules

open RecordStore

/-! ## What an outcome tells -/

def Registry.ruleOf? (registry : Registry) (o : Outcome) : Option (Relationship × Rule) := do
  let r ← (registry.relationshipsFrom o.module)[o.relationshipIndex]?
  let rule ← (r.rules.get o.event)[o.ruleIndex]?
  return (r, rule)

/-- The name of the field that a rule has as its target. -/
def Registry.targetName? (registry : Registry) (rule : Rule) : Option String := do
  let t ← Target.parse? (← rule.target)
  let f ← registry.getField? t.module t.field
  return f.name

/-- An outcome tells that a rule of a relationship to a module changed a record there. -/
structure Outcome.TellsOf (registry : Registry) (o : Outcome) (rule : Rule) (module : ModuleId)
    (id : RecordId) : Prop where
  applied : o.status = .applied true
  target : o.targetRecord = some id
  rule : ∃ r, registry.ruleOf? o = some (r, rule) ∧ r.target = module

def TellDeleted (registry : Registry) (os : List Outcome) (module : ModuleId) (id : RecordId) :
    Prop :=
  ∃ o ∈ os, ∃ rule, o.TellsOf registry rule module id ∧ rule.action = .cascadeDelete

/-- One of the outcomes tells that a field of a record was changed. -/
def TellChanged (registry : Registry) (os : List Outcome) (module : ModuleId) (id : RecordId)
    (name : String) : Prop :=
  ∃ o ∈ os, ∃ rule, o.TellsOf registry rule module id ∧ rule.action ≠ .cascadeDelete ∧
    registry.targetName? rule = some name

theorem TellDeleted.mono {registry : Registry} {os os' : List Outcome} {module : ModuleId}
    {id : RecordId} (h : TellDeleted registry os module id) (hsub : os ⊆ os') :
    TellDeleted registry os' module id := by
  obtain ⟨o, ho, htells⟩ := h
  exact ⟨o, hsub ho, htells⟩

theorem TellChanged.mono {registry : Registry} {os os' : List Outcome} {module : ModuleId}
    {id : RecordId} {name : String} (h : TellChanged registry os module id name)
    (hsub : os ⊆ os') : TellChanged registry os' module id name := by
  obtain ⟨o, ho, htells⟩ := h
  exact ⟨o, hsub ho, htells⟩

theorem Scope.InPlace.ruleOf? {c : Scope} {s : Setting} {mode : Mode} {t : Trigger}
    (h : c.InPlace s mode t) (itemIndex : Option Nat) (target : Option RecordId) (status : Status) :
    s.registry.ruleOf? (c.outcome itemIndex target status) = some (c.relationship, c.rule) := by
  have hplace := h.relationship
  have hrule := h.rule
  rw [← h.trigger] at hplace hrule
  unfold Registry.ruleOf? outcome
  simp [hplace, hrule]

theorem Scope.InPlace.tellsOf {c : Scope} {s : Setting} {mode : Mode} {t : Trigger}
    (h : c.InPlace s mode t) (itemIndex : Option Nat) (id : RecordId) :
    (c.outcome itemIndex (some id) (.applied true)).TellsOf s.registry c.rule c.target id :=
  ⟨rfl, rfl, c.relationship, h.ruleOf? _ _ _, rfl⟩

theorem Scope.targetName?_of_targetField {c : Scope} {registry : Registry} {field : TargetField}
    (h : c.targetField registry = .ok (some field)) :
    registry.targetName? c.rule = some field.name := by
  cases Scope.targetFound h with
  | @found address t f haddress hparse _ hf =>
    have ht : Target.parse? address = some t := by
      unfold Target.parse at hparse
      split at hparse
      · next heq =>
        cases hparse
        exact heq
      · cases hparse
    unfold Registry.targetName?
    simp [haddress, ht, hf]

section

variable {σ : Type} [RecordStore σ]

/-! ## What holds on the way -/

/-- The run wrote a record whose text reads with another value under a key. -/
def Run.Misread (run : Run σ) (module : ModuleId) (id : RecordId) (key : String) : Prop :=
  ∃ field w, .changed module field w ∈ run.history ∧ w.record.id = id ∧
    ¬ReadsBackAt σ key w.record.data

/-- How a record may have come from an earlier one, given the fields that may differ. -/
structure Record.ComesFrom (after before : Record) (MayDiffer : String → Prop) : Prop where
  id : after.id = before.id
  module : after.module = before.module
  createdAt : after.createdAt = before.createdAt
  updatedAt : before.updatedAt ≤ after.updatedAt
  fields : ∀ key, after.get? key ≠ before.get? key → MayDiffer key

theorem Record.ComesFrom.refl (r : Record) (MayDiffer : String → Prop) : r.ComesFrom r MayDiffer :=
  ⟨rfl, rfl, rfl, Int.le_refl _, fun _ h => absurd rfl h⟩

theorem Record.ComesFrom.mono {after before : Record} {P Q : String → Prop}
    (h : after.ComesFrom before P) (hsub : ∀ key, P key → Q key) : after.ComesFrom before Q :=
  ⟨h.id, h.module, h.createdAt, h.updatedAt, fun key hne => hsub key (h.fields key hne)⟩

/-- What the outcomes of a run so far tell of the store. -/
structure Run.Accounted (registry : Registry) (store : σ) (own : List Outcome) (run : Run σ) :
    Prop where
  held : ∀ k, Holds run.store k → Holds store k
  lost : ∀ module id, Holds store (module, id) → ¬Holds run.store (module, id) →
    TellDeleted registry own module id
  altered : ∀ module id, Holds run.store (module, id) →
    get run.store module id ≠ get store module id → ∃ name, TellChanged registry own module id name
  kept : ∀ module id before after, get store module id = .ok (some before) →
    get run.store module id = .ok (some after) → after.ComesFrom before fun key =>
      TellChanged registry own module id key ∨ run.Misread module id key
  untouched : (∀ o ∈ own, o.status ≠ .applied true) → run.store = store

namespace Run

variable {store : σ} {own : List Outcome} {run run' : Run σ}

theorem accounted_root (registry : Registry) (store : σ) (module : ModuleId) (event : Event)
    (record : Record) (outcomes : List Outcome) :
    (Run.root store module event record outcomes).Accounted registry store [] where
  held _ h := h
  lost _ _ h hnot := absurd h hnot
  altered _ _ _ hne := absurd rfl hne
  kept m id before after hbefore hafter := by
    have heq : get store m id = .ok (some after) := hafter
    rw [hbefore] at heq
    cases heq
    exact .refl _ _
  untouched _ := rfl

theorem Accounted.mono {registry : Registry} (h : run.Accounted registry store own)
    (hstore : run'.store = run.store) (hhistory : run.history ⊆ run'.history)
    {own' : List Outcome} (hown : own ⊆ own') : run'.Accounted registry store own' := by
  refine ⟨?_, ?_, ?_, ?_, ?_⟩
  · rw [hstore]
    exact h.held
  · rw [hstore]
    exact fun m id hheld hnot => (h.lost m id hheld hnot).mono hown
  · rw [hstore]
    intro m id hheld hne
    obtain ⟨name, htells⟩ := h.altered m id hheld hne
    exact ⟨name, htells.mono hown⟩
  · rw [hstore]
    intro m id before after hbefore hafter
    refine (h.kept m id before after hbefore hafter).mono fun key => ?_
    rintro (htells | ⟨field, w, hmem, hmisread⟩)
    · exact Or.inl (htells.mono hown)
    · exact Or.inr ⟨field, w, hhistory hmem, hmisread⟩
  · rw [hstore]
    exact fun hquiet => h.untouched fun o ho => hquiet o (hown ho)

/-! ## Writing -/

/-- A write is accounted for if its own record is: elsewhere the store and what is told of it stay
as they are. -/
theorem Accounted.of_record {registry : Registry} (h : run.Accounted registry store own)
    {module : ModuleId} {id : RecordId} {own' : List Outcome} (hown : own ⊆ own')
    (hhistory : run.history ⊆ run'.history)
    (helse : ∀ m' id', (m', id') ≠ (module, id) → get run'.store m' id' = get run.store m' id')
    (hthere : Holds run.store (module, id))
    (hlost : ¬Holds run'.store (module, id) → TellDeleted registry own' module id)
    (haltered : Holds run'.store (module, id) → ∃ name, TellChanged registry own' module id name)
    (hkept : ∀ before after, get store module id = .ok (some before) →
      get run'.store module id = .ok (some after) → after.ComesFrom before fun key =>
        TellChanged registry own' module id key ∨ run'.Misread module id key)
    (htold : ∃ o ∈ own', o.status = .applied true) : run'.Accounted registry store own' := by
  refine ⟨?_, ?_, ?_, ?_, ?_⟩
  · intro k hk
    by_cases hplace : (k.1, k.2) = (module, id)
    · have hk' : k = (module, id) := hplace
      rw [hk']
      exact h.held _ hthere
    · rw [Holds, helse _ _ hplace] at hk
      exact h.held k hk
  · intro m' id' hheld hnot
    by_cases hplace : (m', id') = (module, id)
    · obtain ⟨rfl, rfl⟩ := Prod.mk.inj hplace
      exact hlost hnot
    · rw [Holds, helse _ _ hplace] at hnot
      exact (h.lost m' id' hheld hnot).mono hown
  · intro m' id' hheld hne
    by_cases hplace : (m', id') = (module, id)
    · obtain ⟨rfl, rfl⟩ := Prod.mk.inj hplace
      exact haltered hheld
    · rw [Holds, helse _ _ hplace] at hheld
      rw [helse _ _ hplace] at hne
      obtain ⟨name, htells⟩ := h.altered m' id' hheld hne
      exact ⟨name, htells.mono hown⟩
  · intro m' id' before after hbefore hafter
    by_cases hplace : (m', id') = (module, id)
    · obtain ⟨rfl, rfl⟩ := Prod.mk.inj hplace
      exact hkept before after hbefore hafter
    · rw [helse _ _ hplace] at hafter
      refine (h.kept m' id' before after hbefore hafter).mono fun key => ?_
      rintro (htells | ⟨field, w, hmem, hmisread⟩)
      · exact Or.inl (htells.mono hown)
      · exact Or.inr ⟨field, w, hhistory hmem, hmisread⟩
  · intro hquiet
    obtain ⟨o, ho, happlied⟩ := htold
    exact absurd happlied (hquiet o ho)

section

variable [LawfulRecordStore σ] {s : Setting} {c : Scope} {mode : Mode} {t : Trigger} {store' : σ}
  {id : RecordId}

/-- What a field write makes of its record, set against what it was at the start. -/
theorem Accounted.comesFrom_of_change (h : run.Accounted s.registry store own)
    {field : TargetField} {m : Mutation} {w : FieldWrite} {own' : List Outcome} (hown : own ⊆ own')
    (hwrite : mutateField run.store c.target id field.name m (s.clock.now run.writes) =
      .ok (w, store'))
    (htold : TellChanged s.registry own' c.target id field.name)
    (hhistory : run.history ⊆ run'.history)
    (hnoted : .changed c.target field.name w ∈ run'.history) {before after : Record}
    (hbefore : get store c.target id = .ok (some before))
    (hafter : get store' c.target id = .ok (some after)) :
    after.ComesFrom before fun key =>
      TellChanged s.registry own' c.target id key ∨ run'.Misread c.target id key := by
  obtain ⟨r, hr, hmutate⟩ := LawfulRecordStore.mutate_of_mutateField hwrite
  obtain ⟨hid, _, hcreated, hupdated, hfields⟩ := Record.mutate_keeps hmutate
  obtain ⟨htime, htime'⟩ := LawfulRecordStore.times_of_mutateField hwrite hafter
  have hkey := LawfulRecordStore.key_of_get hr
  have hkey' := LawfulRecordStore.key_of_get hafter
  have hbase := h.kept _ _ before r hbefore hr
  refine ⟨?_, ?_, ?_, ?_, ?_⟩
  · exact hkey'.2.trans (hkey.2.symm.trans hbase.id)
  · exact hkey'.1.trans (hkey.1.symm.trans hbase.module)
  · exact htime.trans (hcreated.trans hbase.createdAt)
  · rw [htime']
    exact hbase.updatedAt.trans hupdated
  · intro key hne
    by_cases hname : key = field.name
    · rw [hname]
      exact Or.inl htold
    · by_cases hread : after.get? key = w.record.get? key
      · -- The key reads as it was written, and the write left it as it was.
        rw [hread, hfields key hname] at hne
        rcases hbase.fields key hne with htells | ⟨field', w', hmem, hmisread⟩
        · exact Or.inl (htells.mono hown)
        · exact Or.inr ⟨field', w', hhistory hmem, hmisread⟩
      · refine Or.inr ⟨field.name, w, hnoted, hid.trans hkey.2, fun hback => hread ?_⟩
        exact hback _ _ _ _ _ _ _ _ _ hwrite rfl hafter

theorem Accounted.of_write (h : run.Accounted s.registry store own) (place : c.InPlace s mode t)
    (hwrite : Write s c run run') :
    ∃ o, run'.outcomes = run.outcomes ++ [o] ∧ run'.Accounted s.registry store (own ++ [o]) := by
  cases hwrite with
  | @change store' id field m w itemIndex hdelete _ htarget _ hwrite _ =>
    obtain ⟨r, hr, _⟩ := LawfulRecordStore.mutate_of_mutateField hwrite
    have hown := List.subset_append_left own [c.outcome itemIndex (some id) (.applied true)]
    have hlast := List.mem_append_right own
      (List.mem_singleton_self (c.outcome itemIndex (some id) (.applied true)))
    have htold : TellChanged s.registry (own ++ [c.outcome itemIndex (some id) (.applied true)])
        c.target id field.name :=
      ⟨_, hlast, c.rule, place.tellsOf itemIndex id, hdelete,
        Scope.targetName?_of_targetField htarget⟩
    refine ⟨_, wrote_outcomes .., h.of_record hown ?_ ?_ (.of_get hr) ?_ ?_ ?_ ⟨_, hlast, rfl⟩⟩
    · rw [wrote_history]
      exact List.subset_append_left _ _
    · rw [wrote_store]
      exact fun m' id' hne => LawfulRecordStore.get_mutateField_of_ne hwrite hne
    · rw [wrote_store]
      exact fun hnot => absurd (LawfulRecordStore.get_mutateField_ne_none hwrite) hnot
    · exact fun _ => ⟨field.name, htold⟩
    · rw [wrote_store]
      intro before after hbefore hafter
      refine h.comesFrom_of_change hown hwrite htold ?_ ?_ hbefore hafter
      · rw [wrote_history]
        exact List.subset_append_left _ _
      · rw [wrote_history]
        exact List.mem_append_right _ (List.mem_singleton_self _)
  | @delete store' id r itemIndex hcascade hdelete =>
    have hown := List.subset_append_left own [c.outcome itemIndex (some id) (.applied true)]
    have hlast := List.mem_append_right own
      (List.mem_singleton_self (c.outcome itemIndex (some id) (.applied true)))
    have hgone := LawfulRecordStore.get_delete_self hdelete
    refine ⟨_, wrote_outcomes .., h.of_record hown ?_ ?_
      (.of_get (LawfulRecordStore.get_of_delete hdelete)) ?_ ?_ ?_ ⟨_, hlast, rfl⟩⟩
    · rw [wrote_history]
      exact List.subset_append_left _ _
    · rw [wrote_store]
      exact fun m' id' hne => LawfulRecordStore.get_delete_of_ne hdelete hne
    · exact fun _ => ⟨_, hlast, c.rule, place.tellsOf itemIndex id, hcascade⟩
    · rw [wrote_store]
      exact fun hheld => absurd hgone hheld
    · rw [wrote_store]
      intro before after _ hafter
      rw [hgone] at hafter
      cases hafter

/-! ## All the way -/

theorem Accounted.step {rootMode : Mode} (h : run.Accounted s.registry store own)
    (hstep : RunStep s rootMode run run') :
    ∃ os, run'.outcomes = run.outcomes ++ os ∧ run'.Accounted s.registry store (own ++ os) := by
  rcases hstep.cases with hidle | ⟨t, rest, _, rfl⟩ | ⟨t, c, _, place, _, _, hwrite⟩
  · obtain ⟨os, hos, hquiet⟩ := hidle.outcomes
    have hmono : run'.Accounted s.registry store (own ++ os) :=
      h.mono hidle.store (fun e he => hidle.history ▸ he) (List.subset_append_left _ _)
    exact ⟨os, hos, hmono⟩
  · refine ⟨[], (List.append_nil _).symm, ?_⟩
    rw [List.append_nil]
    have hstore : (run.take t rest).store = run.store := rfl
    exact h.mono hstore (List.subset_append_left _ _) (List.Subset.refl _)
  · obtain ⟨o, ho, haccounted⟩ := h.of_write place hwrite
    exact ⟨[o], ho, haccounted⟩

theorem Accounted.reaches {rootMode : Mode} (h : run.Accounted s.registry store own)
    (hreach : Reaches s rootMode run run') :
    ∃ os, run'.outcomes = run.outcomes ++ os ∧ run'.Accounted s.registry store (own ++ os) := by
  induction hreach with
  | refl => exact ⟨[], (List.append_nil _).symm, by rw [List.append_nil]; exact h⟩
  | tail _ hstep ih =>
    obtain ⟨os, hos, haccounted⟩ := ih
    obtain ⟨os', hos', haccounted'⟩ := haccounted.step hstep
    refine ⟨os ++ os', ?_, ?_⟩
    · rw [hos', hos, List.append_assoc]
    · rw [← List.append_assoc]
      exact haccounted'

end

end Run

/-- The report accounts for every change to the records.  A run adds no record; a record is gone
only if an outcome of a rule that deletes names it, and altered only if outcomes of other rules do.
An altered record keeps its identifier, its module and its time of creation, its time of change does
not go back, and its data differ only in the target fields of these rules and under keys that the
store does not read back as they were written.  A run that reports no change makes none. -/
theorem report_accounts_for_changes [LawfulRecordStore σ] (registry : Registry) (config : Config)
    (clock : Clock) (store : σ) (module : ModuleId) (event : Event) (record : Record)
    (prechecked : Option (List Outcome)) :
    let final := evaluation registry config clock store module event record prechecked
    ∃ own, final.report.outcomes = prechecked.getD [] ++ own ∧
      (∀ k, Holds final.store k → Holds store k) ∧
      (∀ m id, Holds store (m, id) → ¬Holds final.store (m, id) → TellDeleted registry own m id) ∧
      (∀ m id, Holds final.store (m, id) → get final.store m id ≠ get store m id →
        ∃ name, TellChanged registry own m id name) ∧
      (∀ m id before after, get store m id = .ok (some before) →
        get final.store m id = .ok (some after) → after.ComesFrom before fun key =>
          TellChanged registry own m id key ∨ final.Misread m id key) ∧
      ((∀ o ∈ own, o.status ≠ .applied true) → final.store = store) := by
  intro final
  have hstart := Run.accounted_root registry store module event record (prechecked.getD [])
  obtain ⟨own, hown, haccounted⟩ := hstart.reaches (s := .ofRoot registry config clock)
    (evaluation_reaches registry config clock store module event record prechecked)
  rw [List.nil_append] at haccounted
  exact ⟨own, hown, haccounted.held, haccounted.lost, haccounted.altered, haccounted.kept,
    haccounted.untouched⟩

end

/-- The record that the new order changed is gone, and an outcome tells of it. -/
theorem report_accounts_for_changes_on_sample :
    LawfulRecordStore MemoryStore ∧
      ∃ own, Sample.run.report.outcomes = [] ++ own ∧
        TellDeleted Sample.registry own Sample.stock Sample.one := by
  obtain ⟨own, hown, _, hlost, _⟩ := report_accounts_for_changes Sample.registry .standard
    (.steady 5 0) (⟨[Sample.item, Sample.other]⟩ : MemoryStore) Sample.orders .create Sample.order
    none
  refine ⟨inferInstance, own, hown, hlost _ _ ?_ ?_⟩
  · exact nofun
  · have hgone : (Sample.run.store.find? Sample.stock Sample.one).isNone = true := by decide +kernel
    exact fun hheld => hheld (congrArg Except.ok (Option.isNone_iff_eq_none.mp hgone))

namespace Sample

/-- A table whose one row of stock has a ratio that does not read as it is written. -/
def shelf : TableStore := ⟨[⟨"stock", "1", "\x7b\"ratio\":5.118906925443347e-10\x7d", 0, 0⟩]⟩

def ratio? (s : TableStore) : Option Json :=
  (get s stock one).toOption.join.bind fun r => r.get? "ratio"

end Sample

/-- The rule of the new order sets another field, and still the ratio changes. -/
example :
    (Sample.ratio? (evaluation Sample.registry { Config.standard with maxDepth := some 0 }
      (.steady 5 0) Sample.shelf Sample.orders .create Sample.order none).store ==
        Sample.ratio? Sample.shelf) = false := by
  decide +kernel

end RecordRules
