/-
No run blames an address that was checked when it was authored.

A rule whose addresses lead somewhere can still be skipped or fail, for a field that is gone, a key
that is missing or a value that does not fit.  It never fails for an address that does not read, for
a target that is missing or for one in another module.  This is shown for every status that a rule
can report, over any store.
-/
import RecordRules.Proofs.Evaluation.Sources
import RecordRules.Proofs.Evaluation.Statuses
import RecordRules.Proofs.Evaluation.Termination
import RecordRules.Proofs.Registry.Addresses

namespace RecordRules

/-! ## Blame -/

/-- The failure is that of an address which does not read, is missing or leads elsewhere. -/
def RuleError.blamesAddress : RuleError → Bool
  | .address (.malformed _) | .missingTarget | .wrongModule _ _ => true
  | _ => false

def Status.blamesAddress : Status → Bool
  | .failed e => e.blamesAddress
  | _ => false

def Miss.blamesAddress : Miss → Bool
  | .fail e => e.blamesAddress
  | .skip _ => false

theorem Miss.blamesAddress_status (miss : Miss) :
    miss.status.blamesAddress = miss.blamesAddress := by
  cases miss <;> rfl

theorem Miss.blamesAddress_ofStore (e : StoreError) : (Miss.ofStore e).blamesAddress = false := by
  cases e <;> rfl

/-! ## Outcomes that a run adds -/

/-- The outcomes that a run has beside those of an earlier state blame no address. -/
def Run.Blameless {σ : Type} (run run' : Run σ) : Prop :=
  ∀ o ∈ run'.outcomes, o ∈ run.outcomes ∨ o.status.blamesAddress = false

namespace Run.Blameless

variable {σ : Type} {run run' run'' : Run σ}

theorem of_outcomes (h : run'.outcomes = run.outcomes) : run.Blameless run' := by
  intro o ho
  rw [h] at ho
  exact Or.inl ho

theorem refl (run : Run σ) : run.Blameless run := of_outcomes rfl

theorem trans (h : run.Blameless run') (h' : run'.Blameless run'') : run.Blameless run'' := by
  intro o ho
  rcases h' o ho with ho | ho
  · exact h o ho
  · exact Or.inr ho

theorem emit (h : run.Blameless run') {o : Outcome} (ho : o.status.blamesAddress = false) :
    run.Blameless (run'.emit o) := by
  intro o' ho'
  rcases List.mem_append.mp ho' with ho' | ho'
  · exact h o' ho'
  · rw [List.mem_singleton.mp ho']
    exact Or.inr ho

end Run.Blameless

/-! ## Reading addresses -/

theorem parseSource_blameless {text : Option String} {miss : Miss}
    (htext : ∀ t, text = some t → Source.Reads t) (h : parseSource text = .error miss) :
    miss.blamesAddress = false := by
  unfold parseSource at h
  split at h
  · cases h
  · next text =>
    obtain ⟨s, hs⟩ := htext text rfl
    rw [hs] at h
    cases h

/-- An array that is missing or is none is not the fault of the address. -/
theorem Record.items_blameless {r : Record} {subfield : String} {fields : List Field}
    {e : AddressError} (h : r.items subfield fields = .error e) :
    (RuleError.address e).blamesAddress = false := by
  rcases items_error_iff.mp h with ⟨rfl, _⟩ | ⟨f, rfl, _⟩
  · rfl
  · rfl

section

variable {σ : Type} [RecordStore σ]

theorem fetch_blameless {store : σ} {module : ModuleId} {id : RecordId} {miss : Miss}
    (h : fetch store module id = .error miss) : miss.blamesAddress = false := by
  cases fetch_fetched h with
  | refused => exact Miss.blamesAddress_ofStore _
  | missing => rfl

theorem readKey_blameless {source : String} {r : Record} {element : Option Json} {miss : Miss}
    (hsource : Source.Reads source) (h : readKey source r element = .error miss) :
    miss.blamesAddress = false := by
  unfold readKey at h
  obtain ⟨s, hs⟩ := hsource
  rw [hs] at h
  dsimp only at h
  split at h
  · cases h
  · cases h
    rfl

theorem matchField_blameless {registry : Registry} {module : ModuleId} {target : String}
    {miss : Miss}
    (htarget : ∀ body, target.toList = '$' :: body → Target.LeadsInto target module)
    (h : matchField registry module target = .error miss) : miss.blamesAddress = false := by
  unfold matchField at h
  split at h
  · next body hbody =>
    obtain ⟨t, ht, _⟩ := htarget body hbody
    rw [ht] at h
    dsimp only at h
    split at h
    · cases h
    · cases h
      rfl
  · cases h

theorem Binding.targets_blameless {b : Binding} {registry : Registry} {store : σ}
    {module : ModuleId} {r : Record} {element : Option Json} {miss : Miss}
    (hb : b.Addressed module) (h : b.targets registry store module r element = .error miss) :
    miss.blamesAddress = false := by
  cases targets_searched h with
  | unlisted => exact Miss.blamesAddress_ofStore _
  | empty => rfl
  | several => rfl
  | record hfetched => exact fetch_blameless hfetched
  | source hfetched => exact fetch_blameless hfetched
  | keyless hread => exact readKey_blameless (hb.key _ rfl) hread
  | nameless => rfl
  | foreignKey _ _ hfetched => exact fetch_blameless hfetched
  | matchKeyless hread => exact readKey_blameless (hb.key _ rfl) hread
  | matchFieldless hnamed =>
    exact matchField_blameless (fun body hbody => hb.field _ _ body rfl hbody) hnamed
  | unmatched => exact Miss.blamesAddress_ofStore _
  | matchless => rfl

/-! ## Rules with checked addresses -/

/-- The addresses of a rule, of its own binding and of that of its relationship lead somewhere. -/
structure Scope.Addressed (c : Scope) : Prop where
  rule : c.rule.Addressed c.target
  relationship : c.relationship.binding.Addressed c.target

theorem Scope.Addressed.binding {c : Scope} (h : c.Addressed) : c.binding.Addressed c.target := by
  unfold Scope.binding
  cases hb : c.rule.binding with
  | none => exact h.relationship
  | some b => exact h.rule.binding b hb

theorem Scope.targetField_blameless {c : Scope} (hc : c.Addressed) {registry : Registry}
    {miss : Miss} (h : c.targetField registry = .error miss) : miss.blamesAddress = false := by
  cases Scope.targetFound h with
  | missing hneeds hnone => exact absurd hnone (hc.rule.needed hneeds)
  | unreadable haddress hparse =>
    obtain ⟨t, ht, _⟩ := hc.rule.target _ haddress
    cases hparse.symm.trans ht
  | elsewhere haddress hparse hmodule =>
    obtain ⟨t, ht, hhome⟩ := hc.rule.target _ haddress
    cases hparse.symm.trans ht
    exact absurd hhome hmodule
  | gone => rfl

/-- Only a rule that deletes goes without a target field. -/
theorem Scope.targetField_isSome {c : Scope} {registry : Registry} {field : Option TargetField}
    (h : c.targetField registry = .ok field) (hknown : ∀ name, c.rule.action ≠ .other name)
    (hdelete : c.rule.action ≠ .cascadeDelete) : field.isSome = true := by
  cases Scope.targetFound h with
  | unneeded hneeds =>
    cases haction : c.rule.action with
    | cascadeDelete => exact absurd haction hdelete
    | other name => exact absurd haction (hknown name)
    | _ =>
      rw [haction] at hneeds
      cases hneeds
  | found => rfl

theorem Scope.applications_blameless {c : Scope} (hc : c.Addressed) {miss : Miss}
    (h : c.applications = .error miss) : miss.blamesAddress = false := by
  rcases Scope.applications_error h with h | h | ⟨subfield, e, hitems, rfl⟩
  · exact parseSource_blameless hc.rule.source h
  · exact parseSource_blameless hc.binding.key h
  · exact Record.items_blameless hitems

end

/-! ## Acting on a record -/

theorem Comparison.check_blameless {comparison : Comparison} {operand target : Option Json}
    {e : RuleError} (h : comparison.check operand target = .error e) :
    e.blamesAddress = false := by
  have hverdict {passed : Bool} {why : CheckFailure}
      (h : (if passed then .ok () else .error (.checkFailed why)) =
        (.error e : Except RuleError Unit)) :
      e.blamesAddress = false := by
    split at h
    · cases h
    · cases h
      rfl
  unfold check at h
  dsimp only at h
  split at h
  · exact hverdict h
  · exact hverdict h
  · exact hverdict h
  · split at h
    · split at h
      · exact hverdict h
      · cases h
        rfl
    · cases h
      rfl

theorem checkStatus_blameless (r : Rule) (field : TargetField) (operand : Option Json)
    (target : Record) : (checkStatus r field operand target).blamesAddress = false := by
  unfold checkStatus
  split
  · next e h =>
    unfold Comparison.ofValue at h
    split at h
    · cases h
    · split at h
      · cases h
      · cases h
        rfl
    · cases h
      rfl
  · split
    · next e h => exact Comparison.check_blameless h
    · rfl

theorem operandNumber_blameless {operand : Json} {e : RuleError}
    (h : operandNumber operand = .error e) : e.blamesAddress = false := by
  unfold operandNumber at h
  split at h
  · cases h
  · cases h
    rfl

theorem signedAmount_blameless {a : Action} {operand : Json} {e : RuleError}
    (h : signedAmount a operand = .error e) : e.blamesAddress = false := by
  rcases bind_error h with h | ⟨n, _, h⟩
  · exact operandNumber_blameless h
  · cases h

theorem mutationFor_blameless {a : Action} {operand : Json} {e : RuleError}
    (h : mutationFor a operand = .error e) : e.blamesAddress = false := by
  unfold mutationFor at h
  split at h
  · exact signedAmount_blameless (map_error h)
  · exact signedAmount_blameless (map_error h)
  · exact operandNumber_blameless (map_error h)
  · rcases bind_error h with h | ⟨n, _, h⟩
    · exact operandNumber_blameless h
    · split at h
      · cases h
        rfl
      · cases h
  · cases h

theorem checkNumeric_blameless {kind : Option Kind} {e : RuleError}
    (h : checkNumeric kind = .error e) : e.blamesAddress = false := by
  unfold checkNumeric at h
  split at h
  · cases h
  · cases h
  · cases h
    rfl

theorem Mutation.checkFor_blameless {m : Mutation} {kind : Option Kind} {e : RuleError}
    (h : m.checkFor kind = .error e) : e.blamesAddress = false := by
  unfold checkFor at h
  split at h
  · unfold checkKind at h
    split at h
    · cases h
    · split at h
      · cases h
      · cases h
        rfl
  · exact checkNumeric_blameless h

/-! ## Applying a rule -/

/-- No status that a rule with checked addresses reports blames one. -/
theorem Scope.Reports.blameless {c : Scope} (hc : c.Addressed) {registry : Registry}
    {status : Status} (h : c.Reports registry status) : status.blamesAddress = false := by
  cases h with
  | noTargetField h =>
    exact (Miss.blamesAddress_status _).trans (Scope.targetField_blameless hc h)
  | noApplications h =>
    exact (Miss.blamesAddress_status _).trans (Scope.applications_blameless hc h)
  | noTarget h =>
    exact (Miss.blamesAddress_status _).trans (Binding.targets_blameless hc.binding h)
  | missingTarget h known deletes =>
    have hsome := Scope.targetField_isSome h known deletes
    cases hsome
  | checked => exact checkStatus_blameless _ _ _ _
  | badOperand h => exact mutationFor_blameless h
  | badAmount h => exact signedAmount_blameless h
  | unsuited h => exact Mutation.checkFor_blameless h
  | notNumeric h => exact checkNumeric_blameless h
  | refused e => exact (Miss.blamesAddress_status _).trans (Miss.blamesAddress_ofStore e)
  | _ => rfl

section

variable {σ : Type} [RecordStore σ] (s : Setting) {c : Scope}

theorem applyRule_blameless (hc : c.Addressed) (run : Run σ) :
    run.Blameless (applyRule s c run) := by
  obtain ⟨os, hos, hreports⟩ := applyRule_reports s (c := c) run
  intro o ho
  rw [hos] at ho
  exact (List.mem_append.mp ho).imp_right fun ho => (hreports o ho).blameless hc

/-! ## Evaluating events -/

theorem runRule_blameless (hc : c.Addressed) (run : Run σ) : run.Blameless (runRule s c run) := by
  have hlook : run.Blameless (run.lookAtClock s) := by
    obtain ⟨looks, timedOut, ws, h⟩ := Run.lookAtClock_eq s run
    rw [h]
    exact .of_outcomes rfl
  generalize h : runRule s c run = run'
  cases runRule_runs h with
  | late | gone => exact hlook.emit rfl
  | applied => exact hlook.trans (applyRule_blameless s hc _)

theorem runTrigger_blameless (hg : s.registry.graph.Addressed) (mode : Mode) (t : Trigger)
    (run : Run σ) : run.Blameless (runTrigger s mode t run) := by
  refine runTrigger_keeps s (fun _ _ _ _ _ _ h => h.trans (.of_outcomes rfl))
    (fun c place run' h => ?_) (Run.Blameless.refl run)
  have hr := hg.relationshipsFrom t.module c.relationship (List.mem_of_getElem? place.relationship)
  have hrule := hr.rules t.event c.rule (List.mem_of_getElem? place.rule)
  exact h.trans (runRule_blameless s ⟨hrule, hr.binding⟩ run')

theorem drain_blameless (hg : s.registry.graph.Addressed) (rootMode : Mode) (rounds : Nat)
    (run : Run σ) : run.Blameless (drain s rootMode rounds run) := by
  refine drain_keeps s (fun t rest run' _ h => ?_) rounds (Run.Blameless.refl run)
  have htake : run'.Blameless (run'.take t rest) := .of_outcomes rfl
  exact (h.trans htake).trans (runTrigger_blameless s hg _ t _)

end

/-- In a registry that edits have made from the empty one, every address in a relationship reads
and leads into the target module, and no outcome of a run blames one.  Outcomes that `evaluate` is
given are those of checks that ran before. -/
theorem authored_addresses_hold (registry : Registry)
    (h : registry.Grown (· = .empty) fun _ => True) :
    (∀ module, ∀ r ∈ registry.relationshipsFrom module, r.Addressed) ∧
      ∀ {σ : Type} [RecordStore σ] (config : Config) (clock : Clock) (store : σ)
        (module : ModuleId) (event : Event) (record : Record),
        (∀ o ∈ (precheck registry config clock store module event record).1,
          o.status.blamesAddress = false) ∧
        ∀ prechecked, ∀ o ∈
          (evaluate registry config clock store module event record prechecked).1.outcomes,
          o ∈ prechecked.getD [] ∨ o.status.blamesAddress = false := by
  have hg := h.addressed
  refine ⟨hg.relationshipsFrom, fun config clock store module event record => ⟨?_, ?_⟩⟩
  · intro o ho
    have hrun := runTrigger_blameless { registry, config, clock, maxDepth := 0 } hg .checks
      ⟨module, event, record, 0⟩ (Run.start store)
    rcases hrun o ho with ho | ho
    · exact absurd ho List.not_mem_nil
    · exact ho
  · intro prechecked o ho
    exact drain_blameless (.ofRoot registry config clock) hg (.ofRoot prechecked) _ _ o ho

namespace Sample

/-- The sale was authored before stock was deleted and made anew, without its field. -/
def authored : Registry :=
  { catalog := .empty
    graph :=
      { slots := [some ⟨⟨orders, "Orders", [sale], 0, 1⟩, [sale]⟩, none,
          some ⟨⟨stock, "Stock", [], 2, 2⟩, []⟩]
        index := [(orders, 0), (stock, 2)]
        relationshipCount := 1 }
    fields := .empty
    generation := 5 }

theorem authored_grown : authored.Grown (· = .empty) fun _ => True := by
  have hstart : Registry.empty.Grown (· = .empty) fun _ => True := .start rfl
  have horders := hstart.edit (.createModule orders "Orders" 0) trivial rfl
  have hstock := horders.edit (.createModule stock "Stock" 0) trivial rfl
  have hsale := hstock.edit (.setRelationships orders [sale] 1) trivial rfl
  have hdeleted := hsale.edit (.deleteModule stock) trivial rfl
  exact hdeleted.edit (.createModule stock "Stock" 2) trivial rfl

end Sample

/-- The rule of the sale is skipped. -/
theorem authored_addresses_hold_on_sample :
    Sample.authored.Grown (· = .empty) (fun _ => True) ∧
      Sample.sale.Addressed ∧
      ∀ o ∈ (evaluate Sample.authored .standard (.steady 5 0) (⟨[Sample.item]⟩ : MemoryStore)
        Sample.orders .create Sample.order none).1.outcomes, o.status.blamesAddress = false := by
  obtain ⟨haddressed, hruns⟩ := authored_addresses_hold Sample.authored Sample.authored_grown
  refine ⟨Sample.authored_grown, haddressed Sample.orders Sample.sale ?_, fun o ho => ?_⟩
  · exact List.mem_singleton.mpr rfl
  · rcases (hruns .standard (.steady 5 0) _ Sample.orders .create Sample.order).2 none o ho with
      ho | ho
    · exact absurd ho List.not_mem_nil
    · exact ho

end RecordRules
