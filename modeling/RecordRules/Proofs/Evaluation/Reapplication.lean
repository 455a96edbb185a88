/-
Applying a rule again.

A rule that sets a field to a value, or that copies a snapshot, asks the same of its targets when it
is applied again for the same record.  A match can look at the very field that was written, so its
targets need not be the same.  But what it selects later and did not select before was written in
between, so every record that is found then holds the value already, if the store keeps the value.
-/
import RecordRules.Proofs.Evaluation.Capture
import RecordRules.Proofs.Evaluation.Kinds
import RecordRules.Proofs.Evaluation.Selection
import RecordRules.Proofs.Json.Equality
import RecordRules.Proofs.Store.Rewriting

namespace RecordRules

/-! ## Values that are kept -/

namespace Json

/-- A member of an object is read from its text as it was written, if its numbers read back. -/
theorem get?_of_parse?_text {members : List (String × Json)} {key : String} {v w : Json}
    (hordered : Ordered members) (h : parse? (object members).text = some w)
    (hv : members.lookup key = some v) (hnormal : v.IsNormal)
    (hnumbers : ∀ n ∈ v.numbers, n.ReadsBack) : w.get? key = some v := by
  obtain ⟨room, ws, hws, rfl⟩ := exists_of_parse?_text hordered h
  obtain ⟨hkeys, hvalues⟩ := lookup_of_memberValues? hws
  show (normalMembers ws).lookup key = some v
  rw [lookup_normalMembers]
  cases hw : ws.lookup key with
  | none =>
    have hmem : key ∈ members.map Prod.fst := by
      obtain ⟨before, after, rfl, _⟩ := List.lookup_eq_some_iff.mp hv
      simp
    rw [← hkeys] at hmem
    obtain ⟨⟨k, b⟩, hb, rfl⟩ := List.mem_map.mp hmem
    exact absurd (List.lookup_eq_none_iff.mp hw _ hb) (by simp)
  | some b =>
    obtain ⟨a, ha, hread⟩ := hvalues key b hw
    rw [hv] at ha
    cases ha
    rw [value?_seen v (nesting_le_of_value? v hread) hnumbers] at hread
    cases hread
    exact congrArg some hnormal

end Json

/-- A field that was set to the value, if its record is read then, holds an equal one. -/
def RecordStore.Keeps (σ : Type) [RecordStore σ] (v : Json) : Prop :=
  ∀ (s s' : σ) (module : ModuleId) (id : RecordId) (field : String) (now : Int) (w : FieldWrite)
    (r : Record), RecordStore.mutateField s module id field (.set v) now = .ok (w, s') →
      RecordStore.get s' module id = .ok (some r) →
        ∃ x, r.get? field = some x ∧ (x == v) = true

/-- A record that a value was written to holds an equal one. -/
theorem Record.held_of_mutate_set {r : Record} {name : String} {v : Json} {now : Int}
    {w : FieldWrite} (h : r.mutate name (.set v) now = .ok w) :
    ∃ x, w.record.get? name = some x ∧ (x == v) = true := by
  obtain ⟨_, x, hx, rfl | ⟨_, hequal⟩⟩ := r.mutate_set h
  · exact ⟨x, hx, Json.beq_self x⟩
  · exact ⟨x, hx, hequal⟩

theorem MemoryStore.keeps (v : Json) : RecordStore.Keeps MemoryStore v := by
  intro s s' module id field now w r h hr
  obtain ⟨before, -, hw, -⟩ := mutateField_ok h
  rw [get_eq, get_mutateField h] at hr
  cases hr
  exact Record.held_of_mutate_set hw

theorem TableStore.keeps {v : Json} (hnormal : v.IsNormal)
    (hnumbers : ∀ n ∈ v.numbers, n.ReadsBack) : RecordStore.Keeps TableStore v := by
  intro s s' module id field now w r h hr
  obtain ⟨before, -, hw, -⟩ := mutateField_ok h
  by_cases hc : w.changed = true
  · obtain ⟨members, hordered, hdata, hparse⟩ := parse?_of_changed h hc hr
    obtain ⟨happly, hheld⟩ := Record.mutate_applied hw hc
    have hcurrent : v = w.current := Except.ok.inj happly
    unfold Record.get? at hheld
    rw [hdata, ← hcurrent] at hheld
    exact ⟨v, Json.get?_of_parse?_text hordered hparse hheld hnormal hnumbers, Json.beq_self v⟩
  · rw [get_of_unchanged h hc] at hr
    cases hr
    exact Record.held_of_mutate_set hw

/-! ## Settled records -/

namespace RecordStore

variable {σ : Type} [RecordStore σ] {s s' : σ} {module : ModuleId} {field : String} {v : Json}
  {id : RecordId} {now : Int} {w : FieldWrite}

/-- To set the field of the record to the value would change nothing. -/
def Settled (s : σ) (module : ModuleId) (field : String) (v : Json) (id : RecordId) : Prop :=
  ∀ (r : Record) (now : Int) (w : FieldWrite), get s module id = .ok (some r) →
    r.mutate field (.set v) now = .ok w → w.changed = false

namespace Settled

theorem of_get_eq (h : Settled s module field v id) (heq : get s' module id = get s module id) :
    Settled s' module field v id := by
  intro r now w hr
  exact h r now w (heq ▸ hr)

theorem of_write [LawfulRecordStore σ] (hkeeps : Keeps σ v)
    (h : mutateField s module id field (.set v) now = .ok (w, s')) :
    Settled s' module field v id := by
  intro r later w' hr hw'
  obtain ⟨x, hx, hequal⟩ := hkeeps s s' module id field now w r h hr
  exact Record.unchanged_of_held hx hequal hw'

/-- A record that the value could not be written to will not take it later. -/
theorem of_error [ModularStore σ] [RewritingStore σ] {e : StoreError}
    (h : mutateField s module id field (.set v) now = .error e) : Settled s module field v id := by
  intro r later w' hr hw'
  obtain ⟨w, hw⟩ := Record.mutate_set_ok_of hw' now
  obtain ⟨s', hs'⟩ := RewritingStore.mutateField_of_get hr hw
  rw [h] at hs'
  cases hs'

/-- Writes of the value leave settled records settled. -/
theorem mutateField [LawfulRecordStore σ] (hkeeps : Keeps σ v) {other : RecordId}
    (h : Settled s module field v other)
    (hwrite : mutateField s module id field (.set v) now = .ok (w, s')) :
    Settled s' module field v other := by
  by_cases heq : other = id
  · subst heq
    exact .of_write hkeeps hwrite
  · exact h.of_get_eq (LawfulRecordStore.get_mutateField_of_ne hwrite fun hplace =>
      heq (Prod.mk.inj hplace).2)

end Settled
end RecordStore

/-! ## Setting a field of all targets -/

namespace Run.Idles

variable {σ : Type} {run run' run'' : Run σ}

theorem refl (run : Run σ) : run.Idles run :=
  ⟨rfl, rfl, rfl, rfl, ⟨[], by simp, by simp⟩, ⟨[], by simp⟩, rfl⟩

theorem trans (h : run.Idles run') (h' : run'.Idles run'') : run.Idles run'' := by
  obtain ⟨os, hos, hquiet⟩ := h.outcomes
  obtain ⟨os', hos', hquiet'⟩ := h'.outcomes
  obtain ⟨ws, hws⟩ := h.warnings
  obtain ⟨ws', hws'⟩ := h'.warnings
  exact ⟨h'.store.trans h.store, h'.queue.trans h.queue, h'.visited.trans h.visited,
    h'.history.trans h.history,
    ⟨os ++ os', by rw [hos', hos, List.append_assoc], List.forall_mem_append.mpr ⟨hquiet, hquiet'⟩⟩,
    ⟨ws ++ ws', by rw [hws', hws, List.append_assoc]⟩, h'.limits.trans h.limits⟩

end Run.Idles

section

open RecordStore (Settled Keeps RewrittenAt)

variable {σ : Type} [RecordStore σ] {s : Setting} {c : Scope} {v : Json}

variable [LawfulRecordStore σ] {field : TargetField}

/-- A settled record is written to without any change. -/
theorem writeField_idles {run : Run σ} {id : RecordId} {field : String}
    (h : Settled run.store c.target field v id) (itemIndex : Option Nat) :
    run.Idles ((writeField s c run id field (.set v)).2.emit
      (c.outcome itemIndex (some id) (writeField s c run id field (.set v)).1)) := by
  generalize hanswer : writeField s c run id field (.set v) = answer
  cases writeField_written hanswer with
  | refused => exact .of_emit run _ (Miss.status_ne_applied _ true)
  | changed hwrite hchanged =>
    obtain ⟨r, hr, hw⟩ := LawfulRecordStore.mutate_of_mutateField hwrite
    rw [h r _ _ hr hw] at hchanged
    cases hchanged
  | unchanged hwrite hunchanged =>
    rw [LawfulRecordStore.eq_of_unchanged hwrite hunchanged]
    exact .of_emit run _ (by simp [Scope.outcome])

theorem actOnAll_idles (haction : c.rule.action = .set ∨ c.rule.action = .snapshot)
    {targets : List Record} {run : Run σ}
    (h : checkKind v field.kind = .ok () →
      ∀ t ∈ targets, Settled run.store c.target field.name v t.id) :
    run.Idles (actOnAll s c (some field) (some v) none targets run) := by
  induction targets generalizing run with
  | nil => exact .refl run
  | cons t rest ih =>
    have hfirst : run.Idles ((act s c run (some field) (some v) t).2.emit
        (c.outcome none (some t.id) (act s c run (some field) (some v) t).1)) := by
      rw [act_eq_of_sets haction]
      split
      · exact .of_emit run run.writes Status.noConfusion
      · next hsuits => exact writeField_idles (h hsuits t List.mem_cons_self) none
    refine hfirst.trans (ih fun hsuits u hu => ?_)
    rw [hfirst.store]
    exact h hsuits u (List.mem_cons_of_mem t hu)

variable [ModularStore σ] [RewritingStore σ]

/-- A write of a value that is kept settles the record, and no record loses by it. -/
theorem writeField_settles (hkeeps : Keeps σ v) {written : RecordId → Prop} (run : Run σ)
    {id : RecordId} (hid : written id) (field : String) :
    RewrittenAt written c.target run.store (writeField s c run id field (.set v)).2.store ∧
      ∀ other, Settled run.store c.target field v other ∨ other = id →
        Settled (writeField s c run id field (.set v)).2.store c.target field v other := by
  have hwritten {w : FieldWrite} {store : σ}
      (hwrite : RecordStore.mutateField run.store c.target id field (.set v)
        (s.clock.now run.writes) = .ok (w, store)) :
      RewrittenAt written c.target run.store store ∧
        ∀ other, Settled run.store c.target field v other ∨ other = id →
          Settled store c.target field v other := by
    refine ⟨.of_mutateField hwrite hid, ?_⟩
    rintro other (h | rfl)
    · exact h.mutateField hkeeps hwrite
    · exact .of_write hkeeps hwrite
  generalize hanswer : writeField s c run id field (.set v) = answer
  cases writeField_written hanswer with
  | refused herror =>
    refine ⟨.refl _ _ _, ?_⟩
    rintro other (h | rfl)
    · exact h
    · exact .of_error herror
  | changed hwrite =>
    dsimp only
    rw [Run.schedule_store]
    exact hwritten hwrite
  | unchanged hwrite => exact hwritten hwrite

theorem actOnAll_settles (haction : c.rule.action = .set ∨ c.rule.action = .snapshot)
    (hsuits : checkKind v field.kind = .ok ()) (hkeeps : Keeps σ v) (written : RecordId → Prop)
    {targets : List Record} (hwritten : ∀ t ∈ targets, written t.id) (run : Run σ) :
    RewrittenAt written c.target run.store
        (actOnAll s c (some field) (some v) none targets run).store ∧
      ∀ id, (Settled run.store c.target field.name v id ∨ ∃ t ∈ targets, t.id = id) →
        Settled (actOnAll s c (some field) (some v) none targets run).store c.target field.name
          v id := by
  induction targets generalizing run with
  | nil =>
    refine ⟨.refl _ _ _, ?_⟩
    rintro id (h | ⟨t, ht, _⟩)
    · exact h
    · cases ht
  | cons t rest ih =>
    obtain ⟨hfirst, hrest⟩ := List.forall_mem_cons.mp hwritten
    have hact : act s c run (some field) (some v) t =
        writeField s c run t.id field.name (.set v) := by
      rw [act_eq_of_sets haction, hsuits]
    obtain ⟨hkept, hsettled⟩ := writeField_settles (s := s) (c := c) hkeeps run hfirst field.name
    unfold actOnAll
    rw [hact]
    obtain ⟨hkept', hsettled'⟩ := ih hrest ((writeField s c run t.id field.name (.set v)).2.emit
      (c.outcome none (some t.id) (writeField s c run t.id field.name (.set v)).1))
    refine ⟨hkept.trans hkept', fun id hid => hsettled' id ?_⟩
    rcases hid with hid | ⟨u, hu, rfl⟩
    · exact Or.inl (hsettled id (Or.inl hid))
    · rcases List.mem_cons.mp hu with rfl | hu
      · exact Or.inl (hsettled u.id (Or.inr rfl))
      · exact Or.inr ⟨u, hu, rfl⟩

end

/-! ## Targets, found again -/

section

open RecordStore (RewrittenAt)

variable {σ : Type} [RecordStore σ] {store : σ} {registry : Registry} {module : ModuleId}
  {r : Record} {element : Option Json} {ts : List Record}

theorem id_of_fetch [LawfulRecordStore σ] {id : RecordId} (h : fetch store module id = .ok ts) :
    ∃ t, t.id = id ∧ ts = [t] := by
  obtain ⟨t, hget, hts⟩ := exists_of_fetch h
  exact ⟨t, (LawfulRecordStore.key_of_get hget).2, hts⟩

/-- Once the targets of a binding have been written, it leads to none but them. -/
theorem Binding.exists_target_before [LawfulRecordStore σ] [ModularStore σ] [RewritingStore σ]
    {b : Binding} {later : σ} {ts' : List Record}
    (hts : b.targets registry store module r element = .ok ts)
    (hts' : b.targets registry later module r element = .ok ts')
    (h : RewrittenAt (fun id => ∃ t ∈ ts, t.id = id) module store later) {t' : Record}
    (ht' : t' ∈ ts') : ∃ t ∈ ts, t.id = t'.id := by
  -- What is fetched by an identifier has that identifier both times.
  have hfetch {id : RecordId} (hts : fetch store module id = .ok ts)
      (hts' : fetch later module id = .ok ts') : ∃ t ∈ ts, t.id = t'.id := by
    obtain ⟨t, ht, rfl⟩ := id_of_fetch hts
    obtain ⟨u, hu, rfl⟩ := id_of_fetch hts'
    rw [List.mem_singleton.mp ht']
    exact ⟨t, List.mem_singleton_self t, ht.trans hu.symm⟩
  cases Binding.targets_searched hts with
  | sole hlist =>
    cases Binding.targets_searched hts' with
    | sole hlist' =>
      obtain ⟨t, ht, hid, -⟩ := h.exists_mem_list hlist hlist' ht'
      exact ⟨t, ht, hid⟩
  | record hfetched => exact hfetch hfetched hts'
  | source hfetched => exact hfetch hfetched hts'
  | foreignKey hread hid hfetched =>
    cases Binding.targets_searched hts' with
    | foreignKey hread' hid' hfetched' =>
      cases hread.symm.trans hread'
      cases hid.symm.trans hid'
      exact hfetch hfetched hfetched'
  | @byMatch address target =>
    obtain ⟨key, name, hkey, hname, hfound⟩ := targets_byMatch_ok hts
    obtain ⟨key', name', hkey', hname', hfound'⟩ := targets_byMatch_ok hts'
    obtain rfl := hkey.unique hkey'
    rw [hname] at hname'
    cases hname'
    obtain ⟨all, hall, rfl⟩ := map_ok hfound
    obtain ⟨all', hall', rfl⟩ := map_ok hfound'
    obtain ⟨hmem', hequal⟩ := List.mem_filter.mp ht'
    obtain ⟨t, ht, hid, hkept⟩ := h.exists_mem_list hall hall' hmem'
    by_contra hnew
    -- A record that was not written is as it was, and so was selected before.
    obtain rfl := hkept hnew
    exact hnew ⟨t, List.mem_filter.mpr ⟨ht, hequal⟩, rfl⟩

end

/-! ## Rules that set a field of whole records -/

namespace Scope

/-- The rule goes through no array. -/
def IsPlain (c : Scope) : Prop :=
  ∀ source key, parseSource c.rule.source = .ok source →
    parseSource c.binding.keySource? = .ok key → fanOut? source key = none

/-- The rule sets a field to a value that suits it. -/
structure Sets (c : Scope) (registry : Registry) (field : TargetField) (v : Json) : Prop where
  target : c.targetField registry = .ok (some field)
  applied : ∃ source a, c.applications = .ok (source, [a]) ∧ a.item = none ∧
    c.operandOf source a = some v
  suits : checkKind v field.kind = .ok ()

variable {c : Scope}

theorem IsPlain.applications_ok (h : c.IsPlain) {source : Option Source}
    {applications : List Application}
    (happlications : c.applications = .ok (source, applications)) :
    ∃ a, applications = [a] ∧ a.item = none := by
  obtain ⟨key, hsource, hkey, ⟨_, rfl⟩ | ⟨subfield, _, _, hfan, _⟩⟩ :=
    c.applications_cases happlications
  · exact ⟨_, rfl, rfl⟩
  · rw [h source key hsource hkey] at hfan
    cases hfan

end Scope

section

variable {σ : Type} [RecordStore σ] {c : Scope} {registry : Registry} {field : TargetField}

/-- A rule that sets a field of whole records is applied once. -/
theorem applyRule_eq_applyOnce (haction : c.rule.action = .set ∨ c.rule.action = .snapshot)
    {source : Option Source} {a : Application}
    (htarget : c.targetField registry = .ok (some field))
    (happlied : c.applications = .ok (source, [a])) {s : Setting} (hs : s.registry = registry)
    (run : Run σ) : applyRule s c run = applyOnce s c (some field) source run a := by
  have hone : c.coalesces s.config [a] = false := by
    unfold Scope.coalesces
    rcases haction with h | h
    · simp [h]
    · simp [h]
  have hknown (name : String) : c.rule.action ≠ .other name := by
    rcases haction with h | h
    · simp [h]
    · simp [h]
  rw [applyRule_eq hknown, hs, htarget, happlied]
  dsimp only
  rw [hone]
  rfl

/-- A rule with a value for whole records gives it to all targets that its binding finds. -/
theorem applyOnce_whole {s : Setting} {source : Option Source} {a : Application} {v : Json}
    (hitem : a.item = none) (hv : c.operandOf source a = some v) (run : Run σ) :
    applyOnce s c (some field) source run a =
      match c.binding.targets s.registry run.store c.target c.trigger.record none with
      | .error miss => run.emit (c.outcome none none miss.status)
      | .ok targets => actOnAll s c (some field) (some v) none targets run := by
  have hsome : ¬(c.rule.action.needsOperand && (c.operandOf source a).isNone) = true := by
    simp [hv]
  have helement : a.item.map Item.element = none := by rw [hitem]; rfl
  cases htargets : c.binding.targets s.registry run.store c.target c.trigger.record none with
  | error miss =>
    rw [applyOnce_error hsome (helement ▸ htargets), hitem]
    rfl
  | ok targets =>
    rw [applyOnce_ok hsome (helement ▸ htargets), hv, hitem]
    rfl

/-- A rule whose target field or source cannot be told says so, and does nothing else. -/
theorem applyRule_idles_of_miss {s : Setting} {miss : Miss}
    (h : c.targetField s.registry = .error miss ∨
      ∃ field?, c.targetField s.registry = .ok field? ∧ c.applications = .error miss)
    (run : Run σ) : run.Idles (applyRule s c run) := by
  generalize hrun : applyRule s c run = run'
  cases applyRule_applies hrun with
  | unknown | noItems => exact .of_emit run run.writes Status.noConfusion
  | noField | noApplications => exact .of_emit run run.writes (Miss.status_ne_applied _ true)
  | sums _ htarget happlied | each _ htarget happlied =>
    rcases h with h | ⟨_, _, h⟩
    · cases h.symm.trans htarget
    · cases h.symm.trans happlied

variable [LawfulRecordStore σ]

/-- A rule that is to set a field of whole records does nothing in any run, or has a value. -/
theorem applyRule_idles_or_sets (haction : c.rule.action = .set ∨ c.rule.action = .snapshot)
    (hplain : c.IsPlain) (registry : Registry) :
    (∀ s : Setting, s.registry = registry → ∀ run : Run σ, run.Idles (applyRule s c run)) ∨
      ∃ field v, c.Sets registry field v := by
  have hneeds : c.rule.action.needsTarget = true ∧ c.rule.action.needsOperand = true := by
    rcases haction with h | h
    · rw [h]
      exact ⟨rfl, rfl⟩
    · rw [h]
      exact ⟨rfl, rfl⟩
  cases htarget : c.targetField registry with
  | error miss =>
    refine Or.inl fun s hs run => ?_
    rw [← hs] at htarget
    exact applyRule_idles_of_miss (Or.inl htarget) run
  | ok field? =>
    obtain ⟨field, rfl⟩ := Option.isSome_iff_exists.mp (Scope.targetField_isSome htarget
      (fun name hother => by rw [hother] at hneeds; cases hneeds.1)
      (fun hdelete => by rw [hdelete] at hneeds; cases hneeds.1))
    cases happlied : c.applications with
    | error miss =>
      refine Or.inl fun s hs run => ?_
      rw [← hs] at htarget
      exact applyRule_idles_of_miss (Or.inr ⟨some field, htarget, happlied⟩) run
    | ok applied =>
      obtain ⟨source, applications⟩ := applied
      obtain ⟨a, rfl, hitem⟩ := hplain.applications_ok happlied
      cases hv : c.operandOf source a with
      | none =>
        refine Or.inl fun s hs run => ?_
        rw [applyRule_eq_applyOnce haction htarget happlied hs]
        rw [applyOnce_lacking (by rw [hv, hneeds.2]; rfl)]
        exact .of_emit run run.writes c.withoutOperand_ne_applied
      | some v =>
        cases hsuits : checkKind v field.kind with
        | error e =>
          refine Or.inl fun s hs run => ?_
          rw [applyRule_eq_applyOnce haction htarget happlied hs, applyOnce_whole hitem hv]
          split
          · exact .of_emit run run.writes (Miss.status_ne_applied _ true)
          · refine actOnAll_idles haction fun hok => ?_
            rw [hsuits] at hok
            cases hok
        | ok _ => exact Or.inr ⟨field, v, htarget, ⟨source, a, happlied, hitem, hv⟩, hsuits⟩

variable [ModularStore σ] [RewritingStore σ] {s s' : Setting} {run again : Run σ}

/-- Where a rule has set a field of all its targets, it finds none that would change. -/
theorem Scope.Sets.idles_again {v : Json}
    (haction : c.rule.action = .set ∨ c.rule.action = .snapshot)
    (h : c.Sets s.registry field v) (hkeeps : RecordStore.Keeps σ v)
    (hregistry : s'.registry = s.registry) (hstore : again.store = (applyRule s c run).store) :
    again.Idles (applyRule s' c again) := by
  obtain ⟨source, a, happlied, hitem, hv⟩ := h.applied
  rw [applyRule_eq_applyOnce haction h.target happlied rfl, applyOnce_whole hitem hv] at hstore
  rw [applyRule_eq_applyOnce haction h.target happlied hregistry, applyOnce_whole hitem hv,
    hregistry]
  cases hagain : c.binding.targets s.registry again.store c.target c.trigger.record none with
  | error miss => exact .of_emit again again.writes (Miss.status_ne_applied _ true)
  | ok targets' =>
    cases hfirst : c.binding.targets s.registry run.store c.target c.trigger.record none with
    | error miss =>
      rw [hfirst] at hstore
      rw [show again.store = run.store from hstore, hfirst] at hagain
      cases hagain
    | ok targets =>
      rw [hfirst] at hstore
      obtain ⟨hkept, hsettled⟩ := actOnAll_settles (s := s) haction h.suits hkeeps
        (fun id => ∃ t ∈ targets, t.id = id) (fun t ht => ⟨t, ht, rfl⟩) run
      refine actOnAll_idles haction fun _ t' ht' => ?_
      rw [show again.store = _ from hstore] at hagain ⊢
      exact hsettled t'.id (Or.inr (Binding.exists_target_before hfirst hagain hkept ht'))

end

/-- A rule that sets a field of whole records, or copies a snapshot to it, changes nothing when it
is applied again for the same record: neither a record nor its time, and it queues no event.  This
holds for every store that keeps the value that is set: for all values in a store of records, and in
a store of rows for those of which all numbers read back from their text. -/
theorem reapplied_rules_idle {s s' : Setting} {c : Scope}
    (haction : c.rule.action = .set ∨ c.rule.action = .snapshot) (hplain : c.IsPlain)
    (hregistry : s'.registry = s.registry) :
    (∀ {σ : Type} [RecordStore σ] [LawfulRecordStore σ] [ModularStore σ] [RewritingStore σ]
        (run again : Run σ), (∀ field v, c.Sets s.registry field v → RecordStore.Keeps σ v) →
      again.store = (applyRule s c run).store → again.Idles (applyRule s' c again)) ∧
    (∀ run again : Run MemoryStore, again.store = (applyRule s c run).store →
      again.Idles (applyRule s' c again)) ∧
    ∀ run again : Run TableStore,
      (∀ field v, c.Sets s.registry field v → v.IsNormal ∧ ∀ n ∈ v.numbers, n.ReadsBack) →
      again.store = (applyRule s c run).store → again.Idles (applyRule s' c again) := by
  have hkept {σ : Type} [RecordStore σ] [LawfulRecordStore σ] [ModularStore σ] [RewritingStore σ]
      (run again : Run σ) (hkeeps : ∀ field v, c.Sets s.registry field v → RecordStore.Keeps σ v)
      (hstore : again.store = (applyRule s c run).store) : again.Idles (applyRule s' c again) := by
    rcases applyRule_idles_or_sets (σ := σ) haction hplain s.registry with
      hidles | ⟨field, v, hsets⟩
    · exact hidles s' hregistry again
    · exact hsets.idles_again haction (hkeeps field v hsets) hregistry hstore
  refine ⟨hkept, fun run again => hkept run again fun _ v _ => MemoryStore.keeps v,
    fun run again hreads => hkept run again fun field v hsets => ?_⟩
  obtain ⟨hnormal, hnumbers⟩ := hreads field v hsets
  exact TableStore.keeps hnormal hnumbers

namespace Sample

/-- A new order gives its price to the stock of that price, in whatever way it is written there. -/
def reprice : Scope :=
  { trigger := ⟨orders, .create, { order with data := .object [("price", .ofInt 5)] }, 0⟩
    relationshipIndex := 0
    relationship := { sale with binding := .byMatch "price" "sold" }
    fields := []
    ruleIndex := 0
    rule := { Rule.ofAction .set with source := some "price", target := some "$stock-$sold" } }

def spelledOut : Record := { other with data := .object [("sold", .string "5")] }

def repriced : Run MemoryStore :=
  applyRule (.ofRoot registry .standard (.steady 5 0)) reprice (Run.start ⟨[spelledOut]⟩)

end Sample

/-- A rule that rewrites the field it matches on finds its target again and leaves it alone. -/
theorem reapplied_rules_idle_on_sample :
    LawfulRecordStore MemoryStore ∧ RewritingStore MemoryStore ∧ Sample.reprice.IsPlain ∧
      Sample.repriced.store.records.map (·.updatedAt) = [5] ∧
      (applyRule (.ofRoot Sample.registry .standard (.steady 9 0)) Sample.reprice
        Sample.repriced).outcomes.map (·.isApplied) = [true, true] ∧
      Sample.repriced.Idles
        (applyRule (.ofRoot Sample.registry .standard (.steady 9 0)) Sample.reprice
          Sample.repriced) := by
  have hplain : Sample.reprice.IsPlain := by
    intro source key hsource hkey
    have hfield : parseSource (some "price") = .ok (some (.field "price")) := by rfl
    have hsource' : some (.field "price") = source := Except.ok.inj (hfield.symm.trans hsource)
    have hkey' : some (.field "price") = key := Except.ok.inj (hfield.symm.trans hkey)
    rw [← hsource', ← hkey']
    rfl
  obtain ⟨-, hmemory, -⟩ := reapplied_rules_idle
    (show Sample.reprice.rule.action = .set ∨ Sample.reprice.rule.action = .snapshot
      from Or.inl rfl)
    hplain (show (Setting.ofRoot Sample.registry .standard (.steady 9 0)).registry =
      (Setting.ofRoot Sample.registry .standard (.steady 5 0)).registry from rfl)
  have hidles := hmemory (Run.start ⟨[Sample.spelledOut]⟩) Sample.repriced rfl
  exact ⟨inferInstance, inferInstance, hplain, by decide +kernel, by decide +kernel, hidles⟩

end RecordRules
