/-
What a snapshot writes.

A snapshot copies a value of the record at hand to its targets.  What it owes them depends on its
source alone: the element of the array that the source goes through, the named field, or all data.
But a rule also goes through an array if only the key of its binding does, and then it is the
element that is copied, whatever the source is.
-/
import RecordRules.Proofs.Evaluation.Blame
import RecordRules.Proofs.Evaluation.Coverage

namespace RecordRules

/-! ## Narrowing -/

namespace Json

/-- A value narrowed to listed fields: an object has those of them that the value has. -/
inductive Narrowed (fields : List String) : Json → Json → Prop where
  | object {members kept : List (String × Json)} (listed : fields ≠ []) (ordered : Ordered kept)
      (lookup : ∀ key, kept.lookup key = if key ∈ fields then members.lookup key else none) :
      Narrowed fields (.object members) (.object kept)
  | whole {v : Json} (whole : fields = [] ∨ v.isObject = false) : Narrowed fields v v

theorem lookup_listedMembers (key : String) (names : List String)
    (members : List (String × Json)) :
    (listedMembers names members).lookup key =
      if key ∈ names then members.lookup key else none := by
  suffices h : ∀ before : Option Json,
      (names.filterMap fun name => (members.lookup name).map fun v => (name, v)).foldl
        (fun before m => if m.1 = key then some m.2 else before) before =
          if key ∈ names then (members.lookup key).or before else before by
    unfold listedMembers
    rw [lookup_sortMembers, h]
    simp
  induction names with
  | nil => exact fun before => rfl
  | cons name rest ih =>
    intro before
    by_cases hname : name = key
    · subst hname
      cases hlookup : members.lookup name with
      | none => simp [hlookup, ih]
      | some v => simp [hlookup, ih]
    · have hne : key ≠ name := Ne.symm hname
      cases hlookup : members.lookup name with
      | none => simp [hlookup, ih, hne]
      | some v => simp [hlookup, ih, hne, hname]

end Json

/-! ## What is copied -/

/-- The elements of the array that a rule goes through for a subfield. -/
def Scope.elements (c : Scope) (subfield : String) : List Json :=
  match c.fields.find? fun f => (f.subfield? subfield).isSome with
  | none => []
  | some f =>
    match c.trigger.record.get? f.name with
    | some (.array elements) => elements
    | _ => []

namespace Scope

variable (c : Scope) (source key : Option Source)

/-- The turns of a rule: one for the record as a whole, or one for each array element. -/
def turns : List (Option Nat) :=
  match fanOut? source key with
  | none => [none]
  | some subfield => (List.range (c.elements subfield).length).map some

/-- The array element of a turn. -/
def element? (turn : Option Nat) : Option Json := do
  (c.elements (← fanOut? source key))[← turn]?

/-- What a snapshot owes its targets by its source: the array element, the named field or null
without one, or all data of the record. -/
def owed (turn : Option Nat) : Option Json :=
  match source with
  | some (.item subfield) => turn.bind fun i => (c.elements subfield)[i]?
  | some (.field name) => some ((c.trigger.record.read? name).getD .null)
  | none => some c.trigger.record.data

/-- What a snapshot copies: the array element, if the rule goes through an array. -/
def copied (turn : Option Nat) : Option Json :=
  match fanOut? source key with
  | some subfield => turn.bind fun i => (c.elements subfield)[i]?
  | none => c.owed source turn

variable {c source key}

/-- A key that does not send the rule through an array has no part in what is copied. -/
theorem copied_eq_owed (h : fanOut? source key = fanOut? source none) (turn : Option Nat) :
    c.copied source key turn = c.owed source turn := by
  unfold copied
  rw [h]
  cases source with
  | none => rfl
  | some source => cases source <;> rfl

end Scope

theorem Scope.elements_eq {c : Scope} {subfield : String} {f : Field} {elements : List Json}
    (hf : f.DeclaresFirst c.fields subfield)
    (h : c.trigger.record.HoldsElements f.name elements) : c.elements subfield = elements := by
  unfold Scope.elements
  rw [Field.declaresFirst_iff.mp hf]
  cases h with
  | absent h | null h | array h => simp only [h]

/-- The applications of a rule are its turns.  Each has the array element of its turn, and there is
one without an element only if the rule goes through no array. -/
theorem Scope.applications_ok {c : Scope} {source : Option Source} {applications : List Application}
    (h : c.applications = .ok (source, applications)) :
    ∃ key, parseSource c.rule.source = .ok source ∧
      parseSource c.binding.keySource? = .ok key ∧
      applications.map (fun a => a.item.map Item.index) = c.turns source key ∧
      ∀ a ∈ applications,
        a.item.map Item.element = c.element? source key (a.item.map Item.index) ∧
        (a.item = none → fanOut? source key = none) := by
  obtain ⟨key, hsource, hkey, ⟨hfan, rfl⟩ | ⟨subfield, name, items, hfan, hitems, rfl⟩⟩ :=
    c.applications_cases h
  · refine ⟨key, hsource, hkey, ?_, fun a ha => ?_⟩
    · rw [turns, hfan]
      rfl
    · rw [List.mem_singleton.mp ha, element?, hfan]
      exact ⟨rfl, fun _ => rfl⟩
  · obtain ⟨f, elements, hf, rfl, helements, rfl⟩ := Record.items_ok_iff.mp hitems
    have hsame := c.elements_eq hf helements
    refine ⟨key, hsource, hkey, ?_, fun a ha => ?_⟩
    · have hturns : c.turns source key = (List.range elements.length).map some := by
        rw [turns, hfan, ← hsame]
      rw [hturns, List.range_eq_range', ← Record.map_index_itemsOf subfield, List.map_map,
        List.map_map]
      rfl
    · obtain ⟨item, hitem, rfl⟩ := List.mem_map.mp ha
      obtain ⟨i, hi⟩ := List.mem_iff_getElem?.mp hitem
      obtain ⟨hindex, helement, _⟩ := c.trigger.record.of_getElem?_itemsOf hi
      rw [element?, hfan]
      refine ⟨?_, nofun⟩
      show some item.element = (c.elements subfield)[item.index]?
      rw [hindex, Nat.zero_add, hsame, helement]

/-- What a snapshot captures is narrowed to the listed fields. -/
theorem narrowed_snapshotValue (r : Record) (source : Option Source) (item : Option Item)
    (fields : List String) :
    Json.Narrowed fields
      ((item.map Item.element).getD
        (source.elim r.data fun source => (r.readFrom? none source).getD .null))
      (snapshotValue r source item fields) := by
  have hwhole (r : Record) : Json.Narrowed fields r.data (snapshotValue r none none fields) := by
    unfold snapshotValue
    dsimp only
    cases r.data with
    | object members =>
      dsimp only
      split
      · next h => exact .whole (Or.inl (List.isEmpty_iff.mp h))
      · next h =>
        exact .object (fun hnil => h (List.isEmpty_iff.mpr hnil)) (Json.ordered_sortMembers _)
          fun key => Json.lookup_listedMembers key _ _
    | _ => exact .whole (Or.inr rfl)
  -- Whatever is captured is narrowed like all data of a record.
  cases item with
  | some item => exact hwhole { r with data := item.element }
  | none =>
    cases source with
    | none => exact hwhole r
    | some source => exact hwhole { r with data := (r.readFrom? none source).getD .null }

/-- What a snapshot copies at an application, narrowed to the listed fields. -/
theorem Scope.narrowed_operandOf {c : Scope} (hsnapshot : c.rule.action = .snapshot)
    {source key : Option Source} {a : Application}
    (helement : a.item.map Item.element = c.element? source key (a.item.map Item.index))
    (hwhole : a.item = none → fanOut? source key = none) :
    ∃ x v, c.copied source key (a.item.map Item.index) = some x ∧
      Json.Narrowed c.rule.fields x v ∧ c.operandOf source a = some v := by
  have hnarrowed := narrowed_snapshotValue c.trigger.record source a.item c.rule.fields
  have hvalue : c.operandOf source a =
      some (snapshotValue c.trigger.record source a.item c.rule.fields) := by
    rw [operandOf, hsnapshot]
  refine ⟨_, _, ?_, hnarrowed, hvalue⟩
  cases hitem : a.item with
  | some item =>
    rw [hitem] at helement
    have helement : some item.element = c.element? source key (some item.index) := helement
    unfold element? at helement
    unfold copied
    cases hfan : fanOut? source key with
    | none =>
      rw [hfan] at helement
      cases helement
    | some subfield =>
      rw [hfan] at helement
      exact helement.symm
  | none =>
    have hfan := hwhole hitem
    unfold copied
    rw [hfan]
    cases source with
    | none => rfl
    | some source =>
      cases source with
      | field name => rfl
      | item subfield => cases hfan

/-! ## Giving records a value -/

/-- A field that is set holds the value, or it held an equal one before. -/
theorem Record.mutate_set {r : Record} {name : String} {v : Json} {now : Int} {w : FieldWrite}
    (h : r.mutate name (.set v) now = .ok w) :
    w.current = v ∧ ∃ x, w.record.get? name = some x ∧
      (x = v ∨ w.changed = false ∧ (x == v) = true) := by
  obtain ⟨hobject, happly, hwritten⟩ := mutate_ok h
  have hcurrent : w.current = v := (Except.ok.inj happly).symm
  rw [hcurrent] at hwritten
  rcases hwritten with ⟨hfalse, hrecord, hequal⟩ | ⟨_, hrecord⟩
  · obtain ⟨x, hx, hequal⟩ := Option.any_eq_true _ _ |>.mp hequal
    exact ⟨hcurrent, x, hrecord ▸ hx, Or.inr ⟨hfalse, hequal⟩⟩
  · rw [hrecord]
    exact ⟨hcurrent, v, Json.get?_set_self hobject name v, Or.inl rfl⟩

section

variable {σ : Type} [RecordStore σ]

namespace Scope

/-- A record is given a value at a turn of a rule, which is reported, or it is reported why not. -/
inductive Gives (s : Setting) (c : Scope) (field : TargetField) (turn : Option Nat) (v : Json)
    (id : RecordId) (run : Run σ) : Run σ → Prop where
  | unsuited {e : RuleError} (unsuited : checkKind v field.kind = .error e) :
      Gives s c field turn v id run (run.emit (c.outcome turn (some id) (.failed e)))
  | refused {e : StoreError} {run' : Run σ} (suits : checkKind v field.kind = .ok ())
      (refused : RecordStore.mutateField run.store c.target id field.name (.set v)
        (s.clock.now run.writes) = .error e)
      (store : run'.store = run.store)
      (outcomes : run'.outcomes =
        run.outcomes ++ [c.outcome turn (some id) (Miss.ofStore e).status]) :
      Gives s c field turn v id run run'
  | given {w : FieldWrite} {store : σ} {run' : Run σ} (suits : checkKind v field.kind = .ok ())
      (write : RecordStore.mutateField run.store c.target id field.name (.set v)
        (s.clock.now run.writes) = .ok (w, store))
      (current : w.current = v)
      (held : ∃ x, w.record.get? field.name = some x ∧
        (x = v ∨ w.changed = false ∧ (x == v) = true))
      (store : run'.store = store)
      (outcomes : run'.outcomes =
        run.outcomes ++ [c.outcome turn (some id) (.applied w.changed)]) :
      Gives s c field turn v id run run'

inductive GivesAll (s : Setting) (c : Scope) (field : TargetField) (turn : Option Nat) (v : Json) :
    List Record → Run σ → Run σ → Prop where
  | nil (run : Run σ) : GivesAll s c field turn v [] run run
  | cons {t : Record} {rest : List Record} {run mid run' : Run σ}
      (first : c.Gives s field turn v t.id run mid)
      (others : GivesAll s c field turn v rest mid run') :
      GivesAll s c field turn v (t :: rest) run run'

/-- A snapshot has its turns: at each, what it copies is narrowed and given to all targets. -/
inductive Goes (s : Setting) (c : Scope) (field : TargetField) (source key : Option Source) :
    List (Option Nat) → Run σ → Run σ → Prop where
  | nil (run : Run σ) : Goes s c field source key [] run run
  | missed {turn : Option Nat} {rest : List (Option Nat)} {miss : Miss} {run run' : Run σ}
      (lost : c.binding.targets s.registry run.store c.target c.trigger.record
        (c.element? source key turn) = .error miss)
      (others : Goes s c field source key rest (run.emit (c.outcome turn none miss.status)) run') :
      Goes s c field source key (turn :: rest) run run'
  | found {turn : Option Nat} {rest : List (Option Nat)} {x v : Json} {targets : List Record}
      {run mid run' : Run σ} (copied : c.copied source key turn = some x)
      (narrowed : Json.Narrowed c.rule.fields x v)
      (found : c.binding.targets s.registry run.store c.target c.trigger.record
        (c.element? source key turn) = .ok targets)
      (given : c.GivesAll s field turn v targets run mid)
      (others : Goes s c field source key rest mid run') :
      Goes s c field source key (turn :: rest) run run'

/-- What a snapshot does: it says why it has no turns, or it has all of them. -/
inductive TakesSnapshot (s : Setting) (c : Scope) (run : Run σ) : Run σ → Prop where
  | noField {miss : Miss} (target : c.targetField s.registry = .error miss) :
      TakesSnapshot s c run (run.emit (c.outcome none none miss.status))
  | noApplications {miss : Miss} (applications : c.applications = .error miss) :
      TakesSnapshot s c run (run.emit (c.outcome none none miss.status))
  | noItems {source key : Option Source} (readSource : parseSource c.rule.source = .ok source)
      (readKey : parseSource c.binding.keySource? = .ok key) (none : c.turns source key = []) :
      TakesSnapshot s c run (run.emit (c.outcome .none .none (.skipped .noItems)))
  | goes {field : TargetField} {source key : Option Source} {run' : Run σ}
      (target : c.targetField s.registry = .ok (some field))
      (readSource : parseSource c.rule.source = .ok source)
      (readKey : parseSource c.binding.keySource? = .ok key) (some : c.turns source key ≠ [])
      (goes : c.Goes s field source key (c.turns source key) run run') :
      TakesSnapshot s c run run'

end Scope

/-! ## Applying a snapshot -/

variable [LawfulRecordStore σ] {s : Setting} {c : Scope}

theorem held_of_mutateField {store store' : σ} {module : ModuleId} {id : RecordId} {name : String}
    {v : Json} {now : Int} {w : FieldWrite}
    (h : RecordStore.mutateField store module id name (.set v) now = .ok (w, store')) :
    w.current = v ∧ ∃ x, w.record.get? name = some x ∧
      (x = v ∨ w.changed = false ∧ (x == v) = true) := by
  obtain ⟨r, _, hmutate⟩ := LawfulRecordStore.mutate_of_mutateField h
  exact r.mutate_set hmutate

theorem writeField_gives {field : TargetField} {v : Json}
    (hsuits : checkKind v field.kind = .ok ()) (turn : Option Nat) (run : Run σ) (id : RecordId) :
    c.Gives s field turn v id run ((writeField s c run id field.name (.set v)).2.emit
      (c.outcome turn (some id) (writeField s c run id field.name (.set v)).1)) := by
  generalize h : writeField s c run id field.name (.set v) = answer
  cases writeField_written h with
  | refused hrefused => exact .refused hsuits hrefused rfl rfl
  | changed hwrite hchanged =>
    obtain ⟨hcurrent, hheld⟩ := held_of_mutateField hwrite
    refine .given hsuits hwrite hcurrent hheld (Run.schedule_store ..) ?_
    rw [hchanged]
    exact congrArg (· ++ _) (Run.schedule_outcomes ..)
  | unchanged hwrite hunchanged =>
    obtain ⟨hcurrent, hheld⟩ := held_of_mutateField hwrite
    refine .given hsuits hwrite hcurrent hheld rfl ?_
    rw [hunchanged]
    rfl

theorem act_gives (hsnapshot : c.rule.action = .snapshot) (field : TargetField) (v : Json)
    (turn : Option Nat) (run : Run σ) (t : Record) :
    c.Gives s field turn v t.id run ((act s c run (some field) (some v) t).2.emit
      (c.outcome turn (some t.id) (act s c run (some field) (some v) t).1)) := by
  rw [act_eq_of_sets (Or.inr hsnapshot)]
  split
  · next e hunsuited => exact .unsuited hunsuited
  · next hsuits => exact writeField_gives hsuits turn run t.id

theorem actOnAll_givesAll (hsnapshot : c.rule.action = .snapshot) (field : TargetField) (v : Json)
    (turn : Option Nat) (targets : List Record) (run : Run σ) :
    c.GivesAll s field turn v targets run
      (actOnAll s c (some field) (some v) turn targets run) := by
  induction targets generalizing run with
  | nil => exact .nil run
  | cons t rest ih => exact .cons (act_gives hsnapshot field v turn run t) (ih _)

theorem foldl_goes (hsnapshot : c.rule.action = .snapshot) (field : TargetField)
    {source key : Option Source} {applications : List Application}
    (h : ∀ a ∈ applications,
      a.item.map Item.element = c.element? source key (a.item.map Item.index) ∧
      (a.item = none → fanOut? source key = none)) (run : Run σ) :
    c.Goes s field source key (applications.map fun a => a.item.map Item.index) run
      (applications.foldl (applyOnce s c (some field) source) run) := by
  induction applications generalizing run with
  | nil => exact .nil run
  | cons a rest ih =>
    obtain ⟨⟨helement, hwhole⟩, hrest⟩ := List.forall_mem_cons.mp h
    obtain ⟨x, v, hcopied, hnarrowed, hoperand⟩ := c.narrowed_operandOf hsnapshot helement hwhole
    have hsome : ¬(c.rule.action.needsOperand && (c.operandOf source a).isNone) = true := by
      simp [hoperand]
    have hgoes := ih hrest (applyOnce s c (some field) source run a)
    rw [List.map_cons, List.foldl_cons]
    cases htargets : c.binding.targets s.registry run.store c.target c.trigger.record
        (a.item.map Item.element) with
    | error miss =>
      rw [applyOnce_error hsome htargets] at hgoes ⊢
      exact .missed (helement ▸ htargets) hgoes
    | ok targets =>
      rw [applyOnce_ok hsome htargets, hoperand] at hgoes ⊢
      exact .found hcopied hnarrowed (helement ▸ htargets)
        (actOnAll_givesAll hsnapshot field v _ targets run) hgoes

/-- At every turn of a snapshot, the value that its targets are given is what is copied, narrowed to
the listed fields.  This is what its source owes them, unless only the key of its binding sends the
rule through an array. -/
theorem snapshots_capture_what_rules_go_through (s : Setting) (c : Scope)
    (hsnapshot : c.rule.action = .snapshot) (run : Run σ) :
    c.TakesSnapshot s run (applyRule s c run) ∧
      ∀ source key, fanOut? source key = fanOut? source none →
        ∀ turn, c.copied source key turn = c.owed source turn := by
  refine ⟨?_, fun source key h turn => Scope.copied_eq_owed h turn⟩
  unfold applyRule
  split
  · next name hother =>
    rw [hsnapshot] at hother
    cases hother
  · split
    · next miss hmiss => exact .noField hmiss
    · next field htarget =>
      split
      · next miss hmiss => exact .noApplications hmiss
      · next source hnone =>
        obtain ⟨key, hsource, hkey, hturns, _⟩ := c.applications_ok hnone
        exact .noItems hsource hkey hturns.symm
      · next source applications hsome happlications =>
        obtain ⟨key, hsource, hkey, hturns, hall⟩ := c.applications_ok happlications
        have hcoalesces : c.coalesces s.config applications = false := by
          rw [Scope.coalesces, hsnapshot]
          simp
        rw [hcoalesces]
        obtain ⟨field, rfl⟩ := Option.isSome_iff_exists.mp (Scope.targetField_isSome htarget
          (fun name hother => Action.noConfusion (hsnapshot.symm.trans hother))
          (fun hdelete => Action.noConfusion (hsnapshot.symm.trans hdelete)))
        refine .goes htarget hsource hkey ?_ ?_
        · rw [← hturns]
          exact fun hnil => hsome (List.map_eq_nil_iff.mp hnil)
        · rw [← hturns]
          exact foldl_goes hsnapshot field hall run

end

namespace Sample

/-- The lines of a receipt, each with a key of stock. -/
def receiptLines : Field :=
  { sold with
    id := ⟨"receiptLines", by decide +kernel⟩, name := "lines", module := orders
    subfields := some [.ofName "stock" sold.dataType] }

def receiptLine : Json := .object [("stock", .string "1")]

def receipt : Record :=
  ⟨one, orders, .object [("buyer", .string "Ada"), ("lines", .array [receiptLine])], 0, 0⟩

/-- The buyer of a receipt is copied to stock. -/
def copyBuyer (binding : Binding) : Scope :=
  { trigger := ⟨orders, .create, receipt, 0⟩
    relationshipIndex := 0
    relationship := { sale with binding }
    fields := [receiptLines]
    ruleIndex := 0
    rule := { Rule.ofAction .snapshot with source := some "buyer", target := some "$stock-$sold" } }

def buyerCopied (binding : Binding) : Run MemoryStore :=
  applyRule (.ofRoot registry .standard (.steady 5 0)) (copyBuyer binding) (Run.start ⟨[item]⟩)

end Sample

/-- The buyer is owed to stock either way, but a line is copied if stock is found by the lines. -/
theorem snapshots_capture_what_rules_go_through_on_sample :
    LawfulRecordStore MemoryStore ∧
    (∀ binding, (Sample.copyBuyer binding).rule.action = .snapshot ∧
      (Sample.copyBuyer binding).owed (some (.field "buyer")) (some 0) = some (.string "Ada") ∧
      (Sample.copyBuyer binding).TakesSnapshot
        (.ofRoot Sample.registry .standard (.steady 5 0)) (Run.start ⟨[Sample.item]⟩)
        (Sample.buyerCopied binding)) ∧
    (Sample.buyerCopied (.record Sample.one)).store.records.map (·.get? "sold") =
      [some (.string "Ada")] ∧
    (Sample.buyerCopied (.foreignKey "item.stock")).store.records.map (·.get? "sold") =
      [some Sample.receiptLine] := by
  refine ⟨inferInstance, fun binding => ⟨rfl, rfl, ?_⟩, by rfl, by rfl⟩
  exact (snapshots_capture_what_rules_go_through _ (Sample.copyBuyer binding) rfl _).1

end RecordRules
