/-
Increments and decrements that add up.

A rule that goes through an array adds the amount of each element to the targets of that element,
one after another or summed up for each target.  Either way a record ends up with the integer that
it held at the start and the sum of the amounts of those elements that are bound to it.
-/
import RecordRules.Proofs.Assoc
import RecordRules.Proofs.Evaluation.Credit
import RecordRules.Proofs.Evaluation.Termination

namespace RecordRules

/-! ## The amounts of a rule -/

namespace Scope

/-- What an application adds to its targets, if its operand is a number. -/
def amount? (c : Scope) (a : Application) : Option Int :=
  (a.operand.bind Json.number?).map fun x =>
    if c.rule.action = .decrement then -x.truncate else x.truncate

/-- The records that an application is bound to. -/
def foundIds (c : Scope) (registry : Registry) (store : MemoryStore) (a : Application) :
    List RecordId :=
  c.binding.foundIds registry store c.target c.trigger.record (a.item.map (·.element))

/-- The amounts of those applications that are bound to a record, for each record. -/
def accountsOf (c : Scope) (registry : Registry) (store : MemoryStore)
    (applications : List Application) : Accounts := fun id =>
  (applications.filter fun a => (c.foundIds registry store a).contains id).filterMap c.amount?

/-- All operands that are numbers are whole. -/
def Whole (applications : List Application) : Prop :=
  ∀ a ∈ applications, ∀ x, a.operand.bind Json.number? = some x → x.isWhole = true

section

variable {c : Scope} {registry : Registry} {store : MemoryStore} {a : Application}

theorem accountsOf_append (done rest : List Application) (id : RecordId) :
    c.accountsOf registry store (done ++ rest) id =
      c.accountsOf registry store done id ++ c.accountsOf registry store rest id := by
  unfold accountsOf
  rw [List.filter_append, List.filterMap_append]

/-- One application more pays its amount to the records that it is bound to. -/
theorem accountsOf_concat (done : List Application) (a : Application) :
    c.accountsOf registry store (done ++ [a]) =
      (c.accountsOf registry store done).pay (c.foundIds registry store a)
        (c.amount? a).toList := by
  funext id
  rw [accountsOf_append]
  by_cases hfound : id ∈ c.foundIds registry store a
  · rw [Accounts.pay_of_mem hfound]
    congr 1
    unfold accountsOf
    rw [List.filter_cons, if_pos (List.contains_iff_mem.mpr hfound), List.filterMap_cons]
    cases c.amount? a <;> rfl
  · rw [Accounts.pay_of_not_mem hfound]
    unfold accountsOf
    rw [List.filter_cons, if_neg fun hmem => hfound (List.contains_iff_mem.mp hmem)]
    exact List.append_nil _

theorem prefix_accountsOf_append (done rest : List Application) (id : RecordId) :
    c.accountsOf registry store done id <+: c.accountsOf registry store (done ++ rest) id := by
  rw [accountsOf_append]
  exact List.prefix_append _ _

/-- A record with amounts is there. -/
theorem exists_of_accountsOf {applications : List Application} {id : RecordId}
    (h : c.accountsOf registry store applications id ≠ []) :
    ∃ r ∈ store.records, r.module = c.target ∧ r.id = id := by
  obtain ⟨k, hk⟩ := List.exists_mem_of_ne_nil _ h
  obtain ⟨a, ha, _⟩ := List.mem_filterMap.mp hk
  exact MemoryStore.exists_of_mem_foundIds (List.contains_iff_mem.mp (List.mem_filter.mp ha).2)

/-- The operand of an application with an amount is added as that amount. -/
theorem signedAmount_of_amount? {k : Int} (h : c.amount? a = some k)
    (hwhole : ∀ x, a.operand.bind Json.number? = some x → x.isWhole = true) :
    ∃ v x, (a.operand.filter fun v => !v.isNull) = some v ∧
      signedAmount c.rule.action v = .ok x ∧ x.Counts k := by
  obtain ⟨y, hy, rfl⟩ := Option.map_eq_some_iff.mp h
  obtain ⟨v, hv, hnumber⟩ := Option.bind_eq_some_iff.mp hy
  have hcounts := Binary64.Finite.counts_truncate (hwhole y hy)
  have hnull : (!v.isNull) = true := by
    cases v with
    | null => cases hnumber
    | _ => rfl
  have hoperand : operandNumber v = .ok y := by
    unfold operandNumber
    rw [hnumber]
  refine ⟨v, if c.rule.action = .decrement then -(y : Binary64) else y, ?_, ?_, ?_⟩
  · rw [hv, Option.filter_some, if_pos hnull]
  · unfold signedAmount
    rw [hoperand]
    rfl
  · split
    · exact ⟨-y, rfl, hcounts.neg⟩
    · exact ⟨y, rfl, hcounts⟩

theorem amount?_eq_none (hwhole : ∀ x, a.operand.bind Json.number? = some x → x.isWhole = true)
    (h : (a.operand.filter fun v => !v.isNull) = none) : c.amount? a = none := by
  by_contra hsome
  obtain ⟨k, hk⟩ := Option.ne_none_iff_exists'.mp hsome
  obtain ⟨v, _, hv, _⟩ := signedAmount_of_amount? hk hwhole
  rw [h] at hv
  cases hv

/-- Without an amount there is no operand or one that is no number. -/
theorem signedAmount_of_amount?_none (h : c.amount? a = none) {v : Json}
    (hv : (a.operand.filter fun v => !v.isNull) = some v) :
    ∃ e, signedAmount c.rule.action v = .error e := by
  obtain ⟨hoperand, _⟩ := Option.filter_eq_some_iff.mp hv
  have hnumber : v.number? = none := by
    unfold amount? at h
    rw [hoperand] at h
    exact Option.map_eq_none_iff.mp h
  refine ⟨.value (.mismatch "number" v), ?_⟩
  unfold signedAmount operandNumber
  rw [hnumber]
  rfl

end

end Scope

/-! ## Writes -/

/-- The record that a field of was given another value. -/
def Happening.changedId? : Happening → Option RecordId
  | .changed _ _ w => some w.record.id
  | _ => none

/-- Between two points of a run some records were written, each of them once. -/
structure Run.WrittenOnce {σ : Type} (run final : Run σ) (ids : List RecordId) : Prop where
  distinct : ids.Nodup
  writes : final.writes = run.writes + ids.length
  changes : ∃ hs, final.history = run.history ++ hs ∧
    (hs.filterMap Happening.changedId?).Sublist ids

theorem Run.WrittenOnce.cons {σ : Type} {run run' final : Run σ} {id : RecordId}
    {ids : List RecordId} (h : run.WrittenOnce run' [id]) (hrest : run'.WrittenOnce final ids)
    (hnew : id ∉ ids) : run.WrittenOnce final (id :: ids) := by
  obtain ⟨_, hwrites, hs, hhistory, hsublist⟩ := h
  obtain ⟨hdistinct, hwrites', hs', hhistory', hsublist'⟩ := hrest
  refine ⟨List.nodup_cons.mpr ⟨hnew, hdistinct⟩, ?_, hs ++ hs', ?_, ?_⟩
  · rw [hwrites', hwrites, List.length_singleton, List.length_cons]
    omega
  · rw [hhistory', hhistory, List.append_assoc]
  · rw [List.filterMap_append]
    exact hsublist.append hsublist'

/-- The store of a run shows what amounts have made of the records at the start. -/
def Run.Credited {σ : Type} [RecordStore σ] [CountingStore σ] (c : Scope) (start : MemoryStore)
    (name : String) (accounts : Accounts) (run : Run σ) : Prop :=
  ∃ m, CountingStore.Shows run.store m ∧ start.Credited c.target name accounts m

section

variable {σ : Type} [RecordStore σ] [CountingStore σ] {s : Setting} {c : Scope}
  {start : MemoryStore} {name : String} {accounts : Accounts} {run : Run σ}

theorem Run.Credited.of_store {run' : Run σ} (h : run.Credited c start name accounts)
    (hstore : run'.store = run.store) : run'.Credited c start name accounts := by
  unfold Run.Credited
  rw [hstore]
  exact h

theorem Run.Credited.keyed (h : run.Credited c start name accounts) : start.Keyed := by
  obtain ⟨m, hshows, hcredited⟩ := h
  exact hcredited.keyed (CountingStore.wellKept hshows).keyed

/-- At any point an application is bound to the records that it was bound to at the start. -/
theorem Run.Credited.foundIds_eq (h : run.Credited c start name accounts)
    (hmatch : ¬c.binding.Matches s.registry c.target name) (a : Application) :
    c.foundIds s.registry start a = c.binding.foundIds s.registry run.store c.target
      c.trigger.record (a.item.map (·.element)) := by
  obtain ⟨m, hshows, hcredited⟩ := h
  refine (hcredited.foundIds_eq hmatch).symm.trans ?_
  unfold Binding.foundIds
  rw [CountingStore.targets_eq hshows]

/-- A sum that is written is paid to the record. -/
theorem writeField_credited (h : run.Credited c start name accounts) {id : RecordId}
    (hid : ∃ r ∈ start.records, r.module = c.target ∧ r.id = id) {more : List Int}
    (hmore : more ≠ []) {x : Binary64} (hx : x.Counts more.sum)
    (hfits : start.Fits c.target name (accounts.pay [id] more)) :
    (writeField s c run id name (.add x)).2.Credited c start name (accounts.pay [id] more) ∧
      run.WrittenOnce (writeField s c run id name (.add x)).2 [id] := by
  obtain ⟨m, hshows, hcredited⟩ := h
  obtain ⟨r, hr, hmodule, hrid⟩ := hid
  obtain ⟨w, m', n, hw, hcurrent, hn, hwid, hnew⟩ := hcredited.mutateField
    (CountingStore.wellKept hshows) hr hmodule hrid hmore hx hfits (s.clock.now run.writes)
  obtain ⟨store, hstore, hshows'⟩ := CountingStore.write hshows hw hcurrent hn
  generalize hanswer : writeField s c run id name (.add x) = answer
  cases writeField_written hanswer with
  | refused hrefused => cases hstore.symm.trans hrefused
  | changed hwrite _ =>
    cases hstore.symm.trans hwrite
    refine ⟨⟨m', ?_, hnew⟩, List.nodup_singleton id, ?_,
      [.changed c.target name w], ?_, ?_⟩
    · rw [Run.schedule_store]
      exact hshows'
    · obtain ⟨queue, warnings, heq⟩ := Run.schedule_eq s
        (Run.note { run with store, writes := run.writes + 1 } (.changed c.target name w))
        ⟨c.target, .update, w.record, c.trigger.depth + 1⟩
      rw [heq]
      rfl
    · rw [Run.schedule_history]
      rfl
    · show List.Sublist [w.record.id] [id]
      rw [hwid]
  | unchanged hwrite _ =>
    cases hstore.symm.trans hwrite
    exact ⟨⟨m', hshows', hnew⟩, List.nodup_singleton id, rfl, [], (List.append_nil _).symm,
      List.nil_sublist _⟩

end

/-! ## One application after another -/

section

variable {s : Setting} {c : Scope} {field : TargetField}
  (haction : c.rule.action = .increment ∨ c.rule.action = .decrement)

include haction

theorem Scope.operandOf_eq (source : Option Source) (a : Application) :
    c.operandOf source a = a.operand.filter fun v => !v.isNull := by
  unfold operandOf
  rcases haction with h | h <;> rw [h]

variable {σ : Type} [RecordStore σ] {run : Run σ} {v : Json}

theorem Scope.action_of_adds :
    c.rule.action ≠ .cascadeDelete ∧ c.rule.action ≠ .validate := by
  rcases haction with h | h
  · rw [h]
    exact ⟨nofun, nofun⟩
  · rw [h]
    exact ⟨nofun, nofun⟩

theorem act_of_signedAmount {x : Binary64} (hkind : checkNumeric field.kind = .ok ())
    (hx : signedAmount c.rule.action v = .ok x) (t : Record) :
    act s c run (some field) (some v) t = writeField s c run t.id field.name (.add x) := by
  have hmutation : mutationFor c.rule.action v = .ok (.add x) := by
    rcases haction with h | h <;> rw [h] at hx ⊢ <;> rw [mutationFor, hx] <;> rfl
  have hsuits : (Mutation.add x).checkFor field.kind = .ok () := hkind
  obtain ⟨hdelete, hcheck⟩ := Scope.action_of_adds haction
  rw [act_eq_write hdelete hcheck]
  simp only [hmutation, hsuits]

theorem act_of_signedAmount_error {e : RuleError}
    (he : signedAmount c.rule.action v = .error e) (t : Record) :
    act s c run (some field) (some v) t = (.failed e, run) := by
  have hmutation : mutationFor c.rule.action v = .error e := by
    rcases haction with h | h <;> rw [h] at he ⊢ <;> rw [mutationFor, he] <;> rfl
  obtain ⟨hdelete, hcheck⟩ := Scope.action_of_adds haction
  rw [act_eq_write hdelete hcheck]
  simp only [hmutation]

theorem actOnAll_of_signedAmount_error {e : RuleError}
    (he : signedAmount c.rule.action v = .error e) (item : Option Nat) (targets : List Record) :
    (actOnAll s c (some field) (some v) item targets run).store = run.store := by
  induction targets generalizing run with
  | nil => rfl
  | cons t rest ih =>
    unfold actOnAll
    rw [act_of_signedAmount_error haction he]
    exact ih

variable [CountingStore σ] {start : MemoryStore} {accounts : Accounts}
  (hkind : checkNumeric field.kind = .ok ())

include hkind

/-- All targets of an application are paid its amount. -/
theorem actOnAll_credited {x : Binary64} {k : Int} (hx : signedAmount c.rule.action v = .ok x)
    (hcounts : x.Counts k) (item : Option Nat) {targets : List Record}
    (hdistinct : (targets.map Record.id).Nodup)
    (hthere : ∀ t ∈ targets, ∃ r ∈ start.records, r.module = c.target ∧ r.id = t.id)
    (hfits : start.Fits c.target field.name (accounts.pay (targets.map Record.id) [k]))
    (h : run.Credited c start field.name accounts) :
    (actOnAll s c (some field) (some v) item targets run).Credited c start field.name
      (accounts.pay (targets.map Record.id) [k]) := by
  induction targets generalizing run accounts with
  | nil =>
    rw [List.map_nil, Accounts.pay_none]
    exact h
  | cons t rest ih =>
    obtain ⟨hnew, hdistinct⟩ := List.nodup_cons.mp hdistinct
    obtain ⟨ht, hthere⟩ := List.forall_mem_cons.mp hthere
    rw [List.map_cons, Accounts.pay_cons hnew] at hfits ⊢
    have hcounts' : x.Counts [k].sum := by rwa [List.sum_singleton]
    obtain ⟨hpaid, _⟩ := writeField_credited (s := s) h ht (List.cons_ne_nil k []) hcounts'
      (hfits.mono fun id => Accounts.prefix_pay _ _ _ id)
    unfold actOnAll
    rw [act_of_signedAmount haction hkind hx]
    exact ih hdistinct hthere hfits (hpaid.of_store rfl)

variable (hmatch : ¬c.binding.Matches s.registry c.target field.name)

include hmatch

/-- An application pays its amount to the records that it is bound to. -/
theorem applyOnce_credited (source : Option Source) {a : Application}
    (hwhole : ∀ x, a.operand.bind Json.number? = some x → x.isWhole = true)
    (hfits : start.Fits c.target field.name
      (accounts.pay (c.foundIds s.registry start a) (c.amount? a).toList))
    (h : run.Credited c start field.name accounts) :
    (applyOnce s c (some field) source run a).Credited c start field.name
      (accounts.pay (c.foundIds s.registry start a) (c.amount? a).toList) := by
  have hneeds : c.rule.action.needsOperand = true := by
    rcases haction with haction | haction <;> rw [haction] <;> rfl
  have hoperand := Scope.operandOf_eq haction source a
  cases hv : a.operand.filter fun v => !v.isNull with
  | none =>
    rw [Scope.amount?_eq_none hwhole hv, Option.toList_none, Accounts.pay_nothing]
    rw [applyOnce_lacking (by rw [hneeds, hoperand, hv]; rfl)]
    exact h.of_store rfl
  | some v =>
    have hsome : ¬(c.rule.action.needsOperand && (c.operandOf source a).isNone) = true := by
      rw [hneeds, hoperand, hv]
      exact Bool.false_ne_true
    have hfound := h.foundIds_eq hmatch a
    cases htargets : c.binding.targets s.registry run.store c.target c.trigger.record
        (a.item.map (·.element)) with
    | error miss =>
      rw [applyOnce_error hsome htargets, hfound, Binding.foundIds_error htargets,
        Accounts.pay_none]
      exact h.of_store rfl
    | ok targets =>
      rw [applyOnce_ok hsome htargets, hoperand, hv]
      cases hamount : c.amount? a with
      | none =>
        obtain ⟨e, he⟩ := Scope.signedAmount_of_amount?_none hamount hv
        rw [Option.toList_none, Accounts.pay_nothing]
        exact h.of_store (actOnAll_of_signedAmount_error haction he _ targets)
      | some k =>
        obtain ⟨v', x, hv', hx, hcounts⟩ := Scope.signedAmount_of_amount? hamount hwhole
        rw [hv] at hv'
        cases hv'
        have hids := hfound.trans (Binding.foundIds_ok htargets)
        rw [hamount, Option.toList_some, hids] at hfits
        rw [Option.toList_some, hids]
        refine actOnAll_credited haction hkind hx hcounts _ ?_ (fun t ht => ?_) hfits h
        · rw [← hids]
          exact h.keyed.nodup_foundIds
        · have hid : t.id ∈ c.foundIds s.registry start a := hids ▸ List.mem_map_of_mem ht
          exact MemoryStore.exists_of_mem_foundIds hid

theorem foldl_applyOnce_credited (source : Option Source) (done : List Application)
    {rest : List Application} (hwhole : Scope.Whole rest)
    (hfits : start.Fits c.target field.name (c.accountsOf s.registry start (done ++ rest)))
    (h : run.Credited c start field.name (c.accountsOf s.registry start done)) :
    (rest.foldl (applyOnce s c (some field) source) run).Credited c start field.name
      (c.accountsOf s.registry start (done ++ rest)) := by
  induction rest generalizing done run with
  | nil =>
    rw [List.append_nil]
    exact h
  | cons a rest ih =>
    obtain ⟨ha, hrest⟩ := List.forall_mem_cons.mp hwhole
    have hsplit : done ++ a :: rest = (done ++ [a]) ++ rest := by simp
    rw [hsplit] at hfits ⊢
    have hstep := applyOnce_credited haction hkind hmatch source ha ?_ h
    · rw [← Scope.accountsOf_concat] at hstep
      exact ih (done ++ [a]) hrest hfits hstep
    · rw [← Scope.accountsOf_concat]
      exact hfits.mono (Scope.prefix_accountsOf_append (done ++ [a]) rest)

end

/-! ## Adding up -/

/-- The sums of the amounts so far, under the records that there are any for. -/
structure Totals.Sums (totals : Totals) (accounts : Accounts) : Prop where
  distinct : (totals.map Prod.fst).Nodup
  sum : ∀ id x, List.lookup id totals = some x →
    accounts id ≠ [] ∧ x.Counts (accounts id).sum
  all : ∀ id, List.lookup id totals = none → accounts id = []

namespace Totals.Sums

variable {totals : Totals} {accounts : Accounts}

theorem nil : Totals.Sums [] .empty := by
  refine ⟨List.nodup_nil, fun id x h => ?_, fun _ _ => rfl⟩
  rw [List.lookup_nil] at h
  cases h

theorem addTotal (h : totals.Sums accounts) {id : RecordId} {x : Binary64} {k : Int}
    (hx : x.Counts k) (hsum : (accounts id ++ [k]).sum.natAbs ≤ maxExactInteger) :
    Totals.Sums (addTotal id x totals) (accounts.pay [id] [k]) := by
  rw [List.sum_append_int, List.sum_singleton] at hsum
  obtain ⟨y, hput, hy⟩ : ∃ y, RecordRules.addTotal id x totals = Assoc.put id y totals ∧
      y.Counts ((accounts id).sum + k) := by
    unfold RecordRules.addTotal Assoc.get?
    cases hfound : List.lookup id totals with
    | some old => exact ⟨old + x, rfl, (h.sum id old hfound).2.add hx hsum⟩
    | none =>
      refine ⟨x, (Assoc.put_of_lookup_eq_none hfound x).symm, ?_⟩
      rw [h.all id hfound, List.sum_nil, Int.zero_add]
      exact hx
  have hpaid : accounts.pay [id] [k] id = accounts id ++ [k] :=
    Accounts.pay_of_mem List.mem_cons_self
  have hother {other : RecordId} (hne : other ≠ id) :
      accounts.pay [id] [k] other = accounts other :=
    Accounts.pay_of_not_mem fun hmem => hne (List.mem_singleton.mp hmem)
  rw [hput]
  refine ⟨Assoc.nodup_keys_put h.distinct id y, fun other z hz => ?_, fun other hnone => ?_⟩
  · rw [Assoc.lookup_put] at hz
    split at hz
    · next heq =>
      cases hz
      rw [heq, hpaid, List.sum_append_int, List.sum_singleton]
      exact ⟨List.append_ne_nil_of_right_ne_nil _ (List.cons_ne_nil k []), hy⟩
    · next hne =>
      rw [hother hne]
      exact h.sum other z hz
  · rw [Assoc.lookup_put] at hnone
    split at hnone
    · cases hnone
    · next hne =>
      rw [hother hne]
      exact h.all other hnone

/-- An amount is added for each of some records. -/
theorem foldl (h : totals.Sums accounts) {targets : List Record} {x : Binary64} {k : Int}
    (hx : x.Counts k) (hdistinct : (targets.map Record.id).Nodup)
    (hsums : ∀ t ∈ targets, (accounts t.id ++ [k]).sum.natAbs ≤ maxExactInteger) :
    Totals.Sums (targets.foldl (fun totals t => RecordRules.addTotal t.id x totals) totals)
      (accounts.pay (targets.map Record.id) [k]) := by
  induction targets generalizing totals accounts with
  | nil =>
    rw [List.map_nil, Accounts.pay_none]
    exact h
  | cons t rest ih =>
    obtain ⟨hnew, hdistinct⟩ := List.nodup_cons.mp hdistinct
    obtain ⟨ht, hrest⟩ := List.forall_mem_cons.mp hsums
    rw [List.map_cons, Accounts.pay_cons hnew]
    refine ih (h.addTotal hx ht) hdistinct fun u hu => ?_
    have hne : u.id ∉ [t.id] := by
      intro hmem
      rw [← List.mem_singleton.mp hmem] at hnew
      exact hnew (List.mem_map_of_mem hu)
    rw [Accounts.pay_of_not_mem hne]
    exact hrest u hu

end Totals.Sums

section

variable {σ : Type} [RecordStore σ] [CountingStore σ] {s : Setting} {c : Scope}
  {start : MemoryStore} {name : String} {accounts : Accounts} {run : Run σ} {totals : Totals}

/-- An application adds its amount to the sums and leaves the store alone. -/
theorem collect_sums (h : run.Credited c start name .empty)
    (hmatch : ¬c.binding.Matches s.registry c.target name) {a : Application}
    (hwhole : ∀ x, a.operand.bind Json.number? = some x → x.isWhole = true)
    (hfits : start.Fits c.target name
      (accounts.pay (c.foundIds s.registry start a) (c.amount? a).toList))
    (hsums : totals.Sums accounts) :
    ∃ outcomes, (collect s c (run, totals) a).1 = { run with outcomes } ∧
      (collect s c (run, totals) a).2.Sums
        (accounts.pay (c.foundIds s.registry start a) (c.amount? a).toList) := by
  have hfound := h.foundIds_eq hmatch a
  unfold collect
  dsimp only
  cases hv : a.operand.filter fun v => !v.isNull with
  | none =>
    rw [Scope.amount?_eq_none hwhole hv, Option.toList_none, Accounts.pay_nothing]
    exact ⟨_, rfl, hsums⟩
  | some v =>
    cases hamount : c.amount? a with
    | none =>
      obtain ⟨e, he⟩ := Scope.signedAmount_of_amount?_none hamount hv
      dsimp only
      rw [he, Option.toList_none, Accounts.pay_nothing]
      exact ⟨_, rfl, hsums⟩
    | some k =>
      obtain ⟨v', x, hv', hx, hcounts⟩ := Scope.signedAmount_of_amount? hamount hwhole
      rw [hv] at hv'
      cases hv'
      dsimp only
      rw [hx, Option.toList_some]
      dsimp only
      cases htargets : c.binding.targets s.registry run.store c.target c.trigger.record
          (a.item.map (·.element)) with
      | error miss =>
        rw [hfound, Binding.foundIds_error htargets, Accounts.pay_none]
        exact ⟨_, rfl, hsums⟩
      | ok targets =>
        have hids := hfound.trans (Binding.foundIds_ok htargets)
        rw [hamount, Option.toList_some] at hfits
        refine ⟨run.outcomes, rfl, ?_⟩
        rw [hids]
        refine hsums.foldl hcounts ?_ fun t ht => ?_
        · rw [← hids]
          exact h.keyed.nodup_foundIds
        · have hid : t.id ∈ c.foundIds s.registry start a := hids ▸ List.mem_map_of_mem ht
          have hle := hfits.natAbs_sum_le (MemoryStore.exists_of_mem_foundIds hid)
          rw [Accounts.pay_of_mem hid] at hle
          exact hle

theorem foldl_collect_sums (h : run.Credited c start name .empty)
    (hmatch : ¬c.binding.Matches s.registry c.target name) (done : List Application)
    {rest : List Application} (hwhole : Scope.Whole rest)
    (hfits : start.Fits c.target name (c.accountsOf s.registry start (done ++ rest)))
    (hsums : totals.Sums (c.accountsOf s.registry start done)) :
    ∃ outcomes, (rest.foldl (collect s c) (run, totals)).1 = { run with outcomes } ∧
      (rest.foldl (collect s c) (run, totals)).2.Sums
        (c.accountsOf s.registry start (done ++ rest)) := by
  induction rest generalizing run totals done with
  | nil =>
    rw [List.append_nil]
    exact ⟨run.outcomes, rfl, hsums⟩
  | cons a rest ih =>
    obtain ⟨ha, hrest⟩ := List.forall_mem_cons.mp hwhole
    have hsplit : done ++ a :: rest = (done ++ [a]) ++ rest := by simp
    rw [hsplit] at hfits ⊢
    have hprefix := hfits.mono (Scope.prefix_accountsOf_append (done ++ [a]) rest)
    rw [Scope.accountsOf_concat] at hprefix
    obtain ⟨outcomes, hrun, hstep⟩ := collect_sums h hmatch ha hprefix hsums
    rw [← Scope.accountsOf_concat] at hstep
    have h' : Run.Credited c start name .empty { run with outcomes } := h.of_store rfl
    obtain ⟨outcomes', hrun', hlast⟩ := ih h' (done ++ [a]) hrest hfits hstep
    rw [List.foldl_cons, ← Prod.mk.eta (p := collect s c (run, totals) a), hrun]
    exact ⟨outcomes', hrun', hlast⟩

/-! ## Writing the sums -/

/-- Each sum is paid to its record in one write. -/
theorem writeTotals_credited (hdistinct : (totals.map Prod.fst).Nodup)
    (hsums : ∀ e ∈ totals, accounts e.1 ≠ [] ∧ e.2.Counts (accounts e.1).sum)
    (hthere : ∀ e ∈ totals, ∃ r ∈ start.records, r.module = c.target ∧ r.id = e.1)
    (hfits : start.Fits c.target name accounts)
    (h : run.Credited c start name (accounts.without (totals.map Prod.fst))) :
    (writeTotals s c name totals run).Credited c start name accounts ∧
      run.WrittenOnce (writeTotals s c name totals run) (totals.map Prod.fst) := by
  induction totals generalizing run with
  | nil => exact ⟨h, List.nodup_nil, rfl, [], (List.append_nil _).symm, .refl _⟩
  | cons e rest ih =>
    obtain ⟨id, x⟩ := e
    obtain ⟨hnew, hdistinct⟩ := List.nodup_cons.mp hdistinct
    have hnew : id ∉ rest.map Prod.fst := hnew
    obtain ⟨⟨hsome, hx⟩, hsums⟩ := List.forall_mem_cons.mp hsums
    obtain ⟨hid, hthere⟩ := List.forall_mem_cons.mp hthere
    have hpay : (accounts.without (id :: rest.map Prod.fst)).pay [id] (accounts id) =
        accounts.without (rest.map Prod.fst) := Accounts.pay_without hnew
    rw [List.map_cons] at h
    have hfits' : start.Fits c.target name
        ((accounts.without (id :: rest.map Prod.fst)).pay [id] (accounts id)) := by
      rw [hpay]
      refine hfits.mono fun other => ?_
      unfold Accounts.without
      split
      · exact List.nil_prefix
      · exact List.prefix_refl _
    obtain ⟨hpaid, honce⟩ := writeField_credited (s := s) h hid hsome hx hfits'
    rw [hpay] at hpaid
    unfold writeTotals
    rcases hwrite : writeField s c run id name (.add x) with ⟨status, run'⟩
    rw [hwrite] at hpaid honce
    have hemit : (run'.emit (c.outcome none (some id) status)).Credited c start name
        (accounts.without (rest.map Prod.fst)) := hpaid.of_store rfl
    obtain ⟨hlast, hwritten⟩ := ih hdistinct hsums hthere hemit
    have hwritten : run'.WrittenOnce _ (rest.map Prod.fst) :=
      ⟨hwritten.distinct, hwritten.writes, hwritten.changes⟩
    exact ⟨hlast, honce.cons hwritten hnew⟩

/-- The sums over all applications are paid, each in one write. -/
theorem applyCoalesced_credited {field : TargetField} {applications : List Application}
    (hkind : checkNumeric field.kind = .ok ())
    (hmatch : ¬c.binding.Matches s.registry c.target field.name)
    (hwhole : Scope.Whole applications)
    (hfits : start.Fits c.target field.name (c.accountsOf s.registry start applications))
    (h : run.Credited c start field.name .empty) :
    (applyCoalesced s c field run applications).Credited c start field.name
        (c.accountsOf s.registry start applications) ∧
      ∃ ids, (∀ id, id ∈ ids ↔ c.accountsOf s.registry start applications id ≠ []) ∧
        run.WrittenOnce (applyCoalesced s c field run applications) ids := by
  obtain ⟨outcomes, hrun, hsums⟩ := foldl_collect_sums h hmatch [] hwhole hfits .nil
  rw [List.nil_append] at hsums
  rw [applyCoalesced_ok hkind]
  rcases hcollect : applications.foldl (collect s c) (run, []) with ⟨run', totals⟩
  rw [hcollect] at hrun hsums
  cases hrun
  have hsum (e : RecordId × Binary64) (he : e ∈ totals) :=
    hsums.sum e.1 e.2 (Assoc.lookup_of_mem hsums.distinct he)
  have hnone : (c.accountsOf s.registry start applications).without (totals.map Prod.fst) =
      .empty := by
    funext id
    unfold Accounts.without
    split
    · rfl
    · next hid =>
      refine hsums.all id (Option.eq_none_iff_forall_ne_some.mpr fun x hx => hid ?_)
      exact List.mem_map_of_mem (f := Prod.fst) (Assoc.mem_of_lookup hx)
  have hstart : Run.Credited c start field.name ((c.accountsOf s.registry start
      applications).without (totals.map Prod.fst)) { run with outcomes } := by
    rw [hnone]
    exact h.of_store rfl
  obtain ⟨hlast, honce⟩ := writeTotals_credited (s := s) hsums.distinct hsum
    (fun e he => Scope.exists_of_accountsOf (hsum e he).1) hfits hstart
  refine ⟨hlast, totals.map Prod.fst, fun id => ⟨fun hid => ?_, fun hsome => ?_⟩,
    honce.distinct, honce.writes, honce.changes⟩
  · obtain ⟨e, he, rfl⟩ := List.mem_map.mp hid
    exact (hsum e he).1
  · obtain ⟨x, hx⟩ := Option.ne_none_iff_exists'.mp fun hnone => hsome (hsums.all id hnone)
    exact List.mem_map_of_mem (f := Prod.fst) (Assoc.mem_of_lookup hx)

end

/-! ## The rule as a whole -/

/-- The setting with sums written or amounts added one after another. -/
def Setting.coalescing (s : Setting) (coalesces : Bool) : Setting :=
  { s with config := { s.config with coalesces } }

/-- The data of a record after a rule has been applied in full: its field holds the integer that it
held before and the sum of the amounts of the applications that are bound to it. -/
def Scope.netData (c : Scope) (registry : Registry) (store : MemoryStore)
    (applications : List Application) (name : String) (r : Record) : Json :=
  r.credited name
    (if r.module = c.target then c.accountsOf registry store applications r.id else [])

theorem Scope.coalesces_eq_true {c : Scope} {config : Config} {applications : List Application}
    (haction : c.rule.action = .increment ∨ c.rule.action = .decrement)
    (hon : config.coalesces = true) (hitem : ∃ a ∈ applications, a.item.isSome = true) :
    c.coalesces config applications = true := by
  unfold coalesces
  rw [hon, List.any_eq_true.mpr hitem]
  rcases haction with haction | haction <;> rw [haction] <;> rfl

theorem Scope.netData_eq {c : Scope} {registry : Registry} {store : MemoryStore}
    {applications : List Application} {name : String} {r : Record} {amounts : List Int}
    (hmodule : r.module = c.target)
    (h : c.accountsOf registry store applications r.id = amounts) :
    c.netData registry store applications name r = r.credited name amounts := by
  unfold netData
  rw [if_pos hmodule, h]

section

variable {σ : Type} [RecordStore σ] [CountingStore σ]

theorem Run.Credited.netData {c : Scope} {registry : Registry} {start : MemoryStore} {name : String}
    {applications : List Application} {run : Run σ}
    (h : run.Credited c start name (c.accountsOf registry start applications)) :
    ∃ finish, CountingStore.Shows run.store finish ∧
      (finish.records.map fun r => (r.place, r.data)) =
        (start.records.map fun r => (r.place, c.netData registry start applications name r)) ∧
      ∀ r ∈ start.records,
        (r.module = c.target → c.accountsOf registry start applications r.id = []) →
          r ∈ finish.records := by
  obtain ⟨finish, hshows, f, hf, hcredited⟩ := h
  refine ⟨finish, hshows, ?_, fun r hr hnone => ?_⟩
  · rw [hf, List.map_map]
    refine List.map_congr_left fun r hr => ?_
    rw [Function.comp_apply, (hcredited r hr).place, (hcredited r hr).data]
    rfl
  · have hsame : f r = r := by
      refine (hcredited r hr).untouched ?_
      split
      · next hmodule => exact hnone hmodule
      · rfl
    rw [hf, ← hsame]
    exact List.mem_map_of_mem hr

/-- A rule that increments or decrements a field leaves in each record the integer that it held and
the sum of the amounts of exactly those applications that are bound to it, whether the amounts are
added one after another or summed up first, and leaves all other records as they are.  Sums are
written once for each record.  The store has to show the records of the start, which for a store of
rows means that their data survive, and the binding is no match on the field itself. -/
theorem amounts_net_the_sum (s : Setting) (c : Scope) (run : Run σ) (start : MemoryStore)
    {field : TargetField} {source : Option Source} {applications : List Application}
    (hshows : CountingStore.Shows run.store start)
    (haction : c.rule.action = .increment ∨ c.rule.action = .decrement)
    (hfield : c.targetField s.registry = .ok (some field))
    (hkind : field.kind = none ∨ field.kind = some .number)
    (happlications : c.applications = .ok (source, applications))
    (hmatch : ¬c.binding.Matches s.registry c.target field.name)
    (hwhole : Scope.Whole applications)
    (hfits : start.Fits c.target field.name (c.accountsOf s.registry start applications))
    (coalesces : Bool) :
    let final := applyRule (s.coalescing coalesces) c run
    (∃ finish, CountingStore.Shows final.store finish ∧
      (finish.records.map fun r => (r.place, r.data)) = (start.records.map fun r =>
        (r.place, c.netData s.registry start applications field.name r)) ∧
      ∀ r ∈ start.records,
        (r.module = c.target → c.accountsOf s.registry start applications r.id = []) →
          r ∈ finish.records) ∧
      (coalesces = true → (∃ a ∈ applications, a.item.isSome = true) →
        ∃ ids, (∀ id, id ∈ ids ↔ c.accountsOf s.registry start applications id ≠ []) ∧
          run.WrittenOnce final ids) := by
  intro final
  have hstart : run.Credited c start field.name .empty :=
    ⟨start, hshows, .refl start c.target field.name⟩
  have hnumeric : checkNumeric field.kind = .ok () := by
    rcases hkind with hkind | hkind <;> rw [hkind] <;> rfl
  have hknown (name : String) : c.rule.action ≠ .other name := by
    intro hother
    rcases haction with haction | haction <;> rw [hother] at haction <;> cases haction
  have hfinal : final = applyRule (s.coalescing coalesces) c run := rfl
  unfold applyRule at hfinal
  split at hfinal
  · next name hother => exact absurd hother (hknown name)
  · rw [show c.targetField (s.coalescing coalesces).registry = _ from hfield,
      happlications] at hfinal
    cases applications with
    | nil =>
      have hcredited : final.Credited c start field.name (c.accountsOf s.registry start []) := by
        rw [hfinal]
        exact hstart.of_store rfl
      exact ⟨hcredited.netData, fun _ ⟨_, ha, _⟩ => absurd ha List.not_mem_nil⟩
    | cons first rest =>
      dsimp only at hfinal
      cases hcoalesces : c.coalesces (s.coalescing coalesces).config (first :: rest) with
      | true =>
        rw [hcoalesces] at hfinal
        rw [hfinal]
        obtain ⟨hcredited, honce⟩ := applyCoalesced_credited (s := s.coalescing coalesces)
          hnumeric hmatch hwhole hfits hstart
        exact ⟨hcredited.netData, fun _ _ => honce⟩
      | false =>
        rw [hcoalesces] at hfinal
        rw [hfinal]
        have hcredited := foldl_applyOnce_credited (s := s.coalescing coalesces) haction hnumeric
          hmatch source [] hwhole hfits hstart
        refine ⟨hcredited.netData, fun hon hitem => ?_⟩
        rw [Scope.coalesces_eq_true haction hon hitem] at hcoalesces
        cases hcoalesces

end

namespace Sample

/-- The lines of an order, each with a key of stock and a number that was sold. -/
def lines : Field :=
  { sold with
    id := ⟨"lines", by decide +kernel⟩, name := "lines", module := orders
    subfields := some [.ofName "stock" sold.dataType, .ofName "sold" sold.dataType] }

def line (key : String) (number : Json) : Json :=
  .object [("sold", number), ("stock", .string key)]

def basket : Record :=
  ⟨one, orders, .object [("lines", .array
    [line "1" (.ofInt 3), line "2" (.string "none"), line "1" (.string "-1")])], 0, 0⟩

/-- What is sold is added to the stock that a line names. -/
def perLine : Scope :=
  { trigger := ⟨orders, .create, basket, 0⟩
    relationshipIndex := 0
    relationship := { sale with binding := .foreignKey "item.stock" }
    fields := [lines]
    ruleIndex := 0
    rule := { Rule.ofAction .increment with
      target := some "$stock-$sold", source := some "item.sold" } }

def five : Record := { item with data := .object [("sold", .ofInt 5)] }

def stocked : MemoryStore := ⟨[five, other]⟩

def stockedRows : TableStore := ⟨stocked.records.map Row.ofRecord⟩

def ofLine (index : Nat) (key : String) (number : Json) : Application :=
  ⟨some ⟨index, line key number, some number⟩, some number⟩

def perLineApplications : List Application :=
  [ofLine 0 "1" (.ofInt 3), ofLine 1 "2" (.string "none"), ofLine 2 "1" (.string "-1")]

theorem shows_stocked : CountingStore.Shows stockedRows stocked := by
  have hkeyed : stocked.Keyed := by
    unfold MemoryStore.Keyed
    decide +kernel
  have hplain : (Json.object [("sold", .bool false)]).Survives :=
    ⟨show 1 ≤ 127 by omega, List.forall_mem_nil _⟩
  have hfive : Int.natAbs 5 ≤ maxExactInteger := by decide
  exact ⟨rfl, ⟨hkeyed, List.forall_mem_cons.mpr ⟨rfl, List.forall_mem_singleton.mpr rfl⟩⟩,
    List.forall_mem_cons.mpr ⟨hplain.set_ofInt "sold" hfive,
      List.forall_mem_singleton.mpr hplain⟩⟩

end Sample

/-- Three and minus one are added to five in rows of a table, and the line without a number adds
nothing to the other record. -/
theorem amounts_net_the_sum_on_sample :
    CountingStore.Shows Sample.stockedRows Sample.stocked ∧ ∀ coalesces, ∃ finish : MemoryStore,
      CountingStore.Shows (applyRule (Setting.coalescing (.ofRoot Sample.registry .standard
        (.steady 5 0)) coalesces) Sample.perLine (Run.start Sample.stockedRows)).store finish ∧
      (finish.records.map fun r => (r.place, r.data)) =
        [((Sample.stock, Sample.one), .object [("sold", .ofInt 7)]),
          ((Sample.stock, Sample.two), .object [("sold", .bool false)])] := by
  have hwhole : Scope.Whole Sample.perLineApplications := by
    have hall : Sample.perLineApplications.all (fun a =>
        (a.operand.bind Json.number?).all (·.isWhole)) = true := by decide +kernel
    intro a ha x hx
    have hwhole := List.all_eq_true.mp hall a ha
    rw [hx] at hwhole
    exact hwhole
  have hone : Sample.perLine.accountsOf Sample.registry Sample.stocked Sample.perLineApplications
      Sample.one = [3, -1] := by decide +kernel
  have htwo : Sample.perLine.accountsOf Sample.registry Sample.stocked Sample.perLineApplications
      Sample.two = [] := by decide +kernel
  have hfive : Sample.five.HoldsInteger "sold" 5 := Record.holdsInteger_ofInt rfl rfl (by decide)
  have hfits : Sample.stocked.Fits Sample.stock "sold" (Sample.perLine.accountsOf Sample.registry
      Sample.stocked Sample.perLineApplications) := by
    refine List.forall_mem_cons.mpr ⟨fun _ _ => ⟨5, hfive, ?_⟩,
      List.forall_mem_singleton.mpr fun _ hsome => absurd htwo hsome⟩
    rw [show Sample.five.id = Sample.one from rfl, hone]
    decide
  have hfield : Sample.perLine.targetField Sample.registry = .ok (some ⟨"sold", none⟩) := rfl
  have happlications : Sample.perLine.applications =
      .ok (some (.item "sold"), Sample.perLineApplications) := rfl
  refine ⟨Sample.shows_stocked, fun coalesces => ?_⟩
  obtain ⟨⟨finish, hshows, hdata, _⟩, _⟩ := amounts_net_the_sum (.ofRoot Sample.registry .standard
    (.steady 5 0)) Sample.perLine (Run.start Sample.stockedRows) Sample.stocked
    Sample.shows_stocked (Or.inl rfl) hfield (Or.inl rfl) happlications id hwhole hfits coalesces
  refine ⟨finish, hshows, hdata.trans ?_⟩
  have hseven : Sample.perLine.netData Sample.registry Sample.stocked Sample.perLineApplications
      "sold" Sample.five = Sample.five.credited "sold" [3, -1] := Scope.netData_eq rfl hone
  have hsame : Sample.perLine.netData Sample.registry Sample.stocked Sample.perLineApplications
      "sold" Sample.other = Sample.other.credited "sold" [] := Scope.netData_eq rfl htwo
  rw [hfive.credited_eq (List.cons_ne_nil 3 [-1])] at hseven
  show [(Sample.five.place, Sample.perLine.netData Sample.registry Sample.stocked
    Sample.perLineApplications "sold" Sample.five), (Sample.other.place, Sample.perLine.netData
      Sample.registry Sample.stocked Sample.perLineApplications "sold" Sample.other)] = _
  rw [hseven, hsame]
  rfl

end RecordRules
