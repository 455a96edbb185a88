/-
Changes made in place, in full or not at all.

Every check of an operation stands before the first thing that it writes, but for two: the slot of a
module that is removed is looked at after its entry of the index is gone, and a new label is looked
for once more after the move.  Neither fails, as the index leads to filled slots only and a move
leaves the fields their identifiers.
-/
import RecordRules.Proofs.Registry.Edits
import RecordRules.Proofs.Registry.Parts
import RecordRules.Registry.InPlace

namespace RecordRules

theorem Assoc.put_put {α β : Type} [DecidableEq α] (key : α) (old new : β) (entries : Assoc α β) :
    put key new (put key old entries) = put key new entries := by
  induction entries with
  | nil => simp [put]
  | cons e rest ih =>
    obtain ⟨k, v⟩ := e
    by_cases h : k = key
    · simp [put, h]
    · simp [put, h, ih]

namespace InPlace

variable {σ τ α β : Type}

/-- How a change ends that is made in full or not at all. -/
def wholly (s : σ) : Except RegistryError (α × σ) → EStateM.Result RegistryError σ α
  | .ok (a, s') => .ok a s'
  | .error e => .error e s

theorem get_bind (next : σ → InPlace σ β) (s : σ) : (get >>= next) s = next s s := rfl

theorem modify_bind (f : σ → σ) (next : PUnit → InPlace σ β) (s : σ) :
    (modify f >>= next) s = next ⟨⟩ (f s) := rfl

theorem check_bind (x : Except RegistryError α) (next : α → InPlace σ β) (s : σ) :
    (check x >>= next) s = match x with
      | .ok a => next a s
      | .error e => .error e s := by
  cases x <;> rfl

theorem bind_of_ok {x : InPlace σ α} {s s' : σ} {a : α} (h : x s = .ok a s')
    (next : α → InPlace σ β) : (x >>= next) s = next a s' := by
  show EStateM.bind x next s = next a s'
  unfold EStateM.bind
  rw [h]

theorem bind_of_error {x : InPlace σ α} {s s' : σ} {e : RegistryError} (h : x s = .error e s')
    (next : α → InPlace σ β) : (x >>= next) s = .error e s' := by
  show EStateM.bind x next s = .error e s'
  unfold EStateM.bind
  rw [h]

/-- A part that is changed in full or not at all is so in the whole. -/
theorem within_eq_wholly {part : τ → σ} {put : σ → τ → τ} {x : InPlace σ α} {t : τ}
    {y : Except RegistryError (α × σ)} (h : x (part t) = wholly (part t) y)
    (hput : put (part t) t = t) :
    within part put x t = wholly t (y.map fun (a, s) => (a, put s t)) := by
  unfold within
  rw [h]
  cases y with
  | error e => exact congrArg (EStateM.Result.error e) hput
  | ok answer => rfl

/-! ## The catalog -/

namespace Types

variable {id : DataTypeId} {now : Int} {c : Catalog}

theorem create_eq (name kind : String) (fresh : DataTypeId) (now : Int) (c : Catalog) :
    Types.create name kind fresh now c = wholly c (c.create name kind fresh now) := by
  unfold Types.create Catalog.create
  rw [check_bind]
  cases cleanName .dataType name with
  | error e => rfl
  | ok name => dsimp only; cases Kind.parse kind <;> rfl

/-- Two things are written about a data type, one after the other. -/
theorem map_map_amended (id : DataTypeId) (first second : DataType → DataType)
    (hid : ∀ t, (first t).id = t.id) (types : List DataType) :
    ((types.map fun t => if t.id = id then first t else t).map
      fun t => if t.id = id then second t else t) =
        types.map fun t => if t.id = id then second (first t) else t := by
  rw [List.map_map]
  refine List.map_congr_left fun t _ => ?_
  by_cases h : t.id = id
  · simp [h, hid]
  · simp [h]

theorem setActive_eq (active : Bool) :
    Types.setActive id active now c = wholly c
      (c.update id fun t => { t with isActive := active, updatedAt := now }) := by
  unfold Types.setActive Catalog.update
  show (check (c.get id) >>= _) c = _
  rw [check_bind]
  cases c.get id with
  | error e => rfl
  | ok t =>
    have h := map_map_amended id (fun t => { t with isActive := active })
      (fun t => { t with updatedAt := now }) (fun _ => rfl) c.types
    exact congrArg (fun types => EStateM.Result.ok _ (Catalog.mk types)) h

theorem rename_eq (name : String) :
    Types.rename id name now c = wholly c (do
      let name ← cleanName .dataType name
      c.update id fun t => { t with name, updatedAt := now }) := by
  unfold Types.rename Catalog.update
  rw [check_bind]
  cases cleanName .dataType name with
  | error e => rfl
  | ok clean =>
    show (check (c.get id) >>= _) c = wholly c (c.get id >>= _)
    rw [check_bind]
    cases c.get id with
    | error e => rfl
    | ok t =>
      have h := map_map_amended id (fun t => { t with name := clean })
        (fun t => { t with updatedAt := now }) (fun _ => rfl) c.types
      exact congrArg (fun types => EStateM.Result.ok _ (Catalog.mk types)) h

theorem remove_eq : Types.remove id c = wholly c ((c.remove id).map fun c => ((), c)) := by
  unfold Types.remove Catalog.remove
  show (check (c.get id) >>= _) c = _
  rw [check_bind]
  cases c.get id <;> rfl

end Types

/-! ## The graph -/

namespace Graph

variable {id : ModuleId} {now : Int} {g : ModuleGraph} {s : Slot}

theorem slot_of_none (h : g.slot? id = none) :
    Graph.slot id g = .error (.moduleNotFound id) g := by
  unfold ModuleGraph.slot? Assoc.get? at h
  unfold Graph.slot Assoc.get?
  rw [get_bind]
  cases hi : List.lookup id g.index with
  | none => rfl
  | some i =>
    rw [hi, Option.bind_some] at h
    dsimp only
    rw [h]
    rfl

theorem slot_of_some (h : g.slot? id = some s) :
    ∃ i, Graph.slot id g = .ok (i, s) g ∧ ∀ slot, g.setSlot id slot = g.slots.set i slot := by
  unfold ModuleGraph.slot? at h
  obtain ⟨i, hi, hs⟩ := Option.bind_eq_some_iff.mp h
  refine ⟨i, ?_, fun slot => ?_⟩
  · unfold Graph.slot
    rw [get_bind, hi]
    dsimp only
    rw [hs]
    rfl
  · rw [ModuleGraph.setSlot, hi]

theorem insert_eq (m : Module) (g : ModuleGraph) :
    Graph.insert m g = wholly g ((g.insert m).map fun g => ((), g)) := by
  unfold ModuleGraph.insert
  show (if g.contains m.id then throw (.duplicateModule m.id) else _ : InPlace ModuleGraph Unit) g =
    _
  split
  · rfl
  · cases m.relationships.find? fun r => r.base ≠ m.id <;> rfl

theorem create_eq (name : String) :
    Graph.create id name now g = wholly g (g.create id name now) := by
  unfold Graph.create ModuleGraph.create
  rw [check_bind]
  cases cleanName .module name with
  | error e => rfl
  | ok name =>
    dsimp only
    let m : Module := { id, name, relationships := [], createdAt := now, updatedAt := now }
    show (Graph.insert m >>= _) g = wholly g (g.insert m >>= _)
    have hinsert := insert_eq m g
    cases hm : g.insert m with
    | error e =>
      rw [hm] at hinsert
      exact bind_of_error hinsert _
    | ok g' =>
      rw [hm] at hinsert
      exact bind_of_ok hinsert _

theorem rename_eq (name : String) :
    Graph.rename id name now g = wholly g (g.rename id name now) := by
  unfold Graph.rename ModuleGraph.rename
  rw [check_bind]
  cases hs : g.slot? id with
  | none =>
    cases cleanName .module name with
    | error e => rfl
    | ok name => exact bind_of_error (slot_of_none hs) _
  | some s =>
    obtain ⟨i, hslot, hset⟩ := slot_of_some hs
    simp only [hset]
    cases cleanName .module name with
    | error e => rfl
    | ok name =>
      refine (bind_of_ok hslot _).trans ?_
      exact congrArg (fun slots => EStateM.Result.ok _ { g with slots }) (List.set_set ..)

theorem setRelationships_eq (relationships : List Relationship) :
    Graph.setRelationships id relationships now g =
      wholly g (g.setRelationships id relationships now) := by
  unfold Graph.setRelationships ModuleGraph.setRelationships
  rw [get_bind]
  split
  · rfl
  · rw [get_bind, check_bind]
    cases hs : g.slot? id with
    | none =>
      cases g.checkRelationships id 0 relationships with
      | error e => rfl
      | ok _ => exact bind_of_error (slot_of_none hs) _
    | some s =>
      obtain ⟨i, hslot, hset⟩ := slot_of_some hs
      simp only [hset]
      cases g.checkRelationships id 0 relationships with
      | error e => rfl
      | ok _ =>
        refine (bind_of_ok hslot _).trans ?_
        have hthrice (a b c : Option Slot) :
            ((g.slots.set i a).set i b).set i c = g.slots.set i c := by
          rw [List.set_set, List.set_set]
        exact congrArg (fun slots => EStateM.Result.ok _ (ModuleGraph.mk slots _ _)) (hthrice ..)

/-- No module is lost half: where the index leads, there is a slot that is filled. -/
theorem remove_eq (h : g.Indexed) : Graph.remove id g = wholly g (g.remove id) := by
  unfold Graph.remove ModuleGraph.remove Assoc.get?
  rw [get_bind]
  cases hi : List.lookup id g.index with
  | none =>
    have hs : g.slot? id = none := by rw [ModuleGraph.slot?, Assoc.get?, hi]; rfl
    rw [hs]
    rfl
  | some i =>
    obtain ⟨s, hslot, _⟩ := (h.index id i).mp hi
    have hs : g.slot? id = some s := by
      rw [ModuleGraph.slot?, Assoc.get?, hi, Option.bind_some, hslot]
      rfl
    have hset : g.setSlot id none = g.slots.set i none := by
      rw [ModuleGraph.setSlot, Assoc.get?, hi]
    rw [hs]
    dsimp only
    rw [hset, modify_bind, get_bind]
    dsimp only
    rw [hslot]
    rfl

end Graph

/-! ## The fields -/

namespace Fields

open FieldTable (relabelled)

variable {module : ModuleId} {t : FieldTable}

theorem list_put (module : ModuleId) (fields : List Field) (byModule : Assoc ModuleId (List Field))
    (owners : Assoc FieldId ModuleId) :
    FieldTable.list ⟨Assoc.put module fields byModule, owners⟩ module = fields := by
  rw [FieldTable.list, Assoc.get?, Assoc.lookup_put_self]
  rfl

/-- A field that is taken in is checked before, so nothing ends early. -/
theorem insert_eq (f : Field) (t : FieldTable) : Fields.insert f t = .ok () (t.insert f) := by
  obtain ⟨id, name, module, dataType, isLabel, subfields, createdAt, updatedAt⟩ := f
  cases isLabel with
  | true =>
    refine congrArg (EStateM.Result.ok ()) ?_
    simp only [list_put, Assoc.put_put]
    rfl
  | false =>
    refine congrArg (EStateM.Result.ok ()) ?_
    simp only [list_put, Assoc.put_put]
    rfl

theorem setLabel_eq (id : FieldId) (now : Int) :
    Fields.setLabel module id now t = wholly t (t.setLabel module id now) := by
  unfold Fields.setLabel FieldTable.setLabel keepList
  rw [get_bind]
  cases hf : t.get? module id with
  | none => rfl
  | some f =>
    have hmoved : FieldTable.get? { t with
        byModule := Assoc.put module ((t.list module).map (relabelled id now)) t.byModule }
          module id = some (relabelled id now f) := by
      rw [FieldTable.get?, list_put, List.find?_map]
      have hsame : (fun f : Field => decide (f.id = id)) ∘ relabelled id now =
          fun f => decide (f.id = id) :=
        funext fun f => by simp
      rw [hsame]
      exact congrArg (Option.map (relabelled id now)) hf
    dsimp only
    rw [get_bind, modify_bind, get_bind, hmoved]
    rfl

end Fields

/-! ## The registry -/

variable {r : Registry}

/-- A write of a part is a write of the registry, with the generation raised after it. -/
theorem bump_of_wholly {x : InPlace Registry α} {y : Except RegistryError (α × Registry)}
    (h : x r = wholly r y) :
    (do let a ← x; modify Registry.bump; return a : InPlace Registry α) r =
      wholly r (y.map fun (a, r) => (a, r.bump)) := by
  cases y with
  | error e => exact bind_of_error h _
  | ok answer => exact bind_of_ok h _

theorem createDataType_eq (name kind : String) (fresh : DataTypeId) (now : Int) :
    createDataType name kind fresh now r = wholly r (r.createDataType name kind fresh now) := by
  refine (bump_of_wholly (within_eq_wholly (Types.create_eq name kind fresh now _) rfl)).trans ?_
  unfold Registry.createDataType
  cases r.catalog.create name kind fresh now <;> rfl

theorem renameDataType_eq (id : DataTypeId) (name : String) (now : Int) :
    renameDataType id name now r = wholly r (r.renameDataType id name now) := by
  refine (bump_of_wholly (within_eq_wholly (Types.rename_eq name) rfl)).trans ?_
  unfold Registry.renameDataType
  cases cleanName .dataType name with
  | error e => rfl
  | ok clean =>
    show wholly r (Except.map _ (Except.map _ (r.catalog.update id _))) =
      wholly r (r.catalog.update id _ >>= _)
    cases r.catalog.update id _ <;> rfl

theorem setDataTypeActive_eq (id : DataTypeId) (active : Bool) (now : Int) :
    setDataTypeActive id active now r = wholly r (r.setDataTypeActive id active now) := by
  refine (bump_of_wholly (within_eq_wholly (Types.setActive_eq active) rfl)).trans ?_
  unfold Registry.setDataTypeActive
  cases r.catalog.update id _ <;> rfl

theorem deleteDataType_eq (id : DataTypeId) :
    deleteDataType id r = wholly r (r.deleteDataType id) := by
  have hremove : onCatalog (Types.remove id) r = _ := within_eq_wholly Types.remove_eq rfl
  unfold deleteDataType Registry.deleteDataType
  cases hc : r.catalog.remove id with
  | error e =>
    rw [hc] at hremove
    exact bind_of_error hremove _
  | ok catalog =>
    rw [hc] at hremove
    exact bind_of_ok hremove _

theorem createModule_eq (id : ModuleId) (name : String) (now : Int) :
    createModule id name now r = wholly r (r.createModule id name now) := by
  refine (bump_of_wholly (within_eq_wholly (Graph.create_eq name) rfl)).trans ?_
  unfold Registry.createModule
  cases r.graph.create id name now <;> rfl

theorem renameModule_eq (id : ModuleId) (name : String) (now : Int) :
    renameModule id name now r = wholly r (r.renameModule id name now) := by
  refine (bump_of_wholly (within_eq_wholly (Graph.rename_eq name) rfl)).trans ?_
  unfold Registry.renameModule
  cases r.graph.rename id name now <;> rfl

theorem setRelationships_eq (id : ModuleId) (relationships : List Relationship) (now : Int) :
    setRelationships id relationships now r =
      wholly r (r.setRelationships id relationships now) := by
  refine (bump_of_wholly (within_eq_wholly (Graph.setRelationships_eq relationships) rfl)).trans ?_
  unfold Registry.setRelationships
  cases r.graph.setRelationships id relationships now <;> rfl

theorem deleteModule_eq (h : r.graph.Indexed) (id : ModuleId) :
    deleteModule id r = wholly r (r.deleteModule id) := by
  have hremove : onGraph (Graph.remove id) r = _ := within_eq_wholly (Graph.remove_eq h) rfl
  unfold deleteModule Registry.deleteModule
  cases hg : r.graph.remove id with
  | error e =>
    rw [hg] at hremove
    exact bind_of_error hremove _
  | ok answer =>
    rw [hg] at hremove
    exact bind_of_ok hremove _

theorem createField_eq (d : FieldDraft) (fresh : FieldId) (now : Int) :
    createField d fresh now r = wholly r (r.createField d fresh now) := by
  unfold Registry.createField
  show (if !r.graph.contains d.module then throw (.moduleMissing d.module) else
    check (r.fields.build r.catalog d fresh now) >>= _ : InPlace Registry Field) r = _
  split
  · rfl
  · rw [check_bind]
    cases r.fields.build r.catalog d fresh now with
    | error e => rfl
    | ok f =>
      have hinsert : onFields (Fields.insert f) r = .ok () { r with fields := r.fields.insert f } :=
        within_eq_wholly (y := .ok ((), r.fields.insert f)) (Fields.insert_eq f r.fields) rfl
      exact bind_of_ok hinsert _

theorem setLabel_eq (module : ModuleId) (id : FieldId) (now : Int) :
    setLabel module id now r = wholly r (r.setLabel module id now) := by
  refine (bump_of_wholly (within_eq_wholly (Fields.setLabel_eq id now) rfl)).trans ?_
  unfold Registry.setLabel
  cases r.fields.setLabel module id now <;> rfl

theorem deleteFieldsOf_eq (module : ModuleId) (r : Registry) :
    deleteFieldsOf module r = wholly r (.ok (r.deleteFieldsOf module)) :=
  rfl

end InPlace

/-! ## Edits -/

/-- An edit as it is made in place. -/
def Registry.Edit.inPlace : Edit → InPlace Registry Unit
  | createDataType name kind fresh now => discard (InPlace.createDataType name kind fresh now)
  | renameDataType id name now => discard (InPlace.renameDataType id name now)
  | setDataTypeActive id active now => discard (InPlace.setDataTypeActive id active now)
  | deleteDataType id => discard (InPlace.deleteDataType id)
  | createModule id name now => discard (InPlace.createModule id name now)
  | renameModule id name now => discard (InPlace.renameModule id name now)
  | setRelationships id relationships now => discard (InPlace.setRelationships id relationships now)
  | deleteModule id => discard (InPlace.deleteModule id)
  | createField draft fresh now => discard (InPlace.createField draft fresh now)
  | setLabel module id now => discard (InPlace.setLabel module id now)
  | deleteFieldsOf module => discard (InPlace.deleteFieldsOf module)

open InPlace in
/-- An edit in place is made in full or not at all. -/
theorem Registry.Edit.inPlace_eq {r : Registry} (h : r.graph.Indexed) (e : Edit) :
    e.inPlace r = wholly r ((e.perform r).map fun r => ((), r)) := by
  have hdiscard {α : Type} {x : InPlace Registry α} {y : Except RegistryError (α × Registry)}
      (hx : x r = wholly r y) :
      discard x r = wholly r ((y.map (·.2)).map fun r => ((), r)) := by
    cases y with
    | error e => exact bind_of_error hx _
    | ok answer => exact bind_of_ok hx _
  cases e with
  | createDataType name kind fresh now => exact hdiscard (createDataType_eq ..)
  | renameDataType id name now => exact hdiscard (renameDataType_eq ..)
  | setDataTypeActive id active now => exact hdiscard (setDataTypeActive_eq ..)
  | deleteDataType id => exact hdiscard (deleteDataType_eq ..)
  | createModule id name now => exact hdiscard (createModule_eq ..)
  | renameModule id name now => exact hdiscard (renameModule_eq ..)
  | setRelationships id relationships now => exact hdiscard (setRelationships_eq ..)
  | deleteModule id => exact hdiscard (deleteModule_eq h id)
  | createField draft fresh now => exact hdiscard (createField_eq ..)
  | setLabel module id now => exact hdiscard (setLabel_eq ..)
  | deleteFieldsOf module => exact hdiscard (deleteFieldsOf_eq module r)

end RecordRules
