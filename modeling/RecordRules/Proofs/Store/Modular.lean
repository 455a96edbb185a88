/-
Stores that keep modules apart.

What a store holds of a module decides what it answers about the module, and stays as it is when a
record of another module is written or deleted.  So stores that hold the same of some modules cannot
be told apart there, nor after the same operations on them.
-/
import RecordRules.Proofs.Store.Memory
import RecordRules.Proofs.Store.Table

namespace RecordRules

/-! ## What is held of a module -/

/-- What a store holds under an identifier: a record, or the reason why it does not read. -/
structure Holding where
  id : String
  -- It stays when the data are rewritten, also those of a row that did not read before.
  createdAt : Int
  record : Except StoreError Record

/-- A store of which each module is a part of its own. -/
class ModularStore (σ : Type) [RecordStore σ] where
  /-- What is held of a module, the oldest first. -/
  holdings : σ → ModuleId → List Holding
  get_eq (s : σ) (module : ModuleId) (id : RecordId) :
    RecordStore.get s module id =
      match (holdings s module).find? fun h => h.id = id.text with
      | none => .ok none
      | some h => h.record.map some
  list_eq (s : σ) (module : ModuleId) :
    RecordStore.list s module = (holdings s module).mapM Holding.record
  mutateField_congr {s s' : σ} {module : ModuleId} (h : holdings s module = holdings s' module)
      (id : RecordId) (field : String) (m : Mutation) (now : Int) :
    SameAnswer (fun t t' => holdings t module = holdings t' module)
      (RecordStore.mutateField s module id field m now)
      (RecordStore.mutateField s' module id field m now)
  delete_congr {s s' : σ} {module : ModuleId} (h : holdings s module = holdings s' module)
      (id : RecordId) :
    SameAnswer (fun t t' => holdings t module = holdings t' module)
      (RecordStore.delete s module id) (RecordStore.delete s' module id)
  holdings_mutateField_of_ne {s t : σ} {module other : ModuleId} {id : RecordId} {field : String}
      {m : Mutation} {now : Int} {w : FieldWrite} :
    RecordStore.mutateField s module id field m now = .ok (w, t) → other ≠ module →
      holdings t other = holdings s other
  holdings_delete_of_ne {s t : σ} {module other : ModuleId} {id : RecordId}
      {found : Option Record} :
    RecordStore.delete s module id = .ok (found, t) → other ≠ module →
      holdings t other = holdings s other

namespace RecordStore

variable {σ : Type} [RecordStore σ] [ModularStore σ] {modules : ModuleId → Prop} {s s' : σ}

open ModularStore (holdings)

/-- Two stores hold the same records of some modules. -/
def SameIn (modules : ModuleId → Prop) (s s' : σ) : Prop :=
  ∀ m, modules m → holdings s m = holdings s' m

namespace SameIn

theorem refl (modules : ModuleId → Prop) (s : σ) : SameIn modules s s := fun _ _ => rfl

variable {module : ModuleId}

theorem get_eq (h : SameIn modules s s') (hmodule : modules module) (id : RecordId) :
    get s' module id = get s module id := by
  rw [ModularStore.get_eq, ModularStore.get_eq, h module hmodule]

theorem list_eq (h : SameIn modules s s') (hmodule : modules module) :
    list s' module = list s module := by
  rw [ModularStore.list_eq, ModularStore.list_eq, h module hmodule]

/-- Answers that are the same and touch one module leave stores that hold the same. -/
theorem answer {α : Type} {answer answer' : Except StoreError (α × σ)} (h : SameIn modules s s')
    (hanswer : SameAnswer (fun t t' => holdings t module = holdings t' module) answer answer')
    (hothers : ∀ a t, answer = .ok (a, t) → ∀ other, other ≠ module →
      holdings t other = holdings s other)
    (hothers' : ∀ a t, answer' = .ok (a, t) → ∀ other, other ≠ module →
      holdings t other = holdings s' other) :
    SameAnswer (SameIn modules) answer answer' := by
  cases hanswer with
  | error e => exact .error e
  | @ok a t t' hmodule =>
    refine .ok a fun other hother => ?_
    by_cases heq : other = module
    · rw [heq]
      exact hmodule
    · calc holdings t other
        _ = holdings s other := hothers a t rfl other heq
        _ = holdings s' other := h other hother
        _ = holdings t' other := (hothers' a t' rfl other heq).symm

theorem mutateField (h : SameIn modules s s') (hmodule : modules module) (id : RecordId)
    (field : String) (m : Mutation) (now : Int) :
    SameAnswer (SameIn modules) (mutateField s module id field m now)
      (RecordStore.mutateField s' module id field m now) :=
  h.answer (ModularStore.mutateField_congr (h module hmodule) id field m now)
    (fun _ _ hw _ => ModularStore.holdings_mutateField_of_ne hw)
    (fun _ _ hw _ => ModularStore.holdings_mutateField_of_ne hw)

theorem delete (h : SameIn modules s s') (hmodule : modules module) (id : RecordId) :
    SameAnswer (SameIn modules) (delete s module id) (RecordStore.delete s' module id) :=
  h.answer (ModularStore.delete_congr (h module hmodule) id)
    (fun _ _ hd _ => ModularStore.holdings_delete_of_ne hd)
    (fun _ _ hd _ => ModularStore.holdings_delete_of_ne hd)

end SameIn
end RecordStore

/-! ## Records as they are -/

namespace MemoryStore

def holding (r : Record) : Holding := ⟨r.id.text, r.createdAt, .ok r⟩

theorem holding_injective : Function.Injective holding := by
  intro r r' h
  exact Except.ok.inj (Holding.mk.inj h).2.2

theorem find?_eq_list (s : MemoryStore) (module : ModuleId) (id : RecordId) :
    s.find? module id = (s.list module).find? fun r => r.id = id := by
  unfold find? list
  rw [List.find?_filter]
  congr 1
  funext r
  exact decide_eq_decide.mpr (and_congr decide_eq_true_iff.symm decide_eq_true_iff.symm)

theorem list_replace (s : MemoryStore) (new : Record) (module : ModuleId) :
    (s.replace new).list module =
      (s.list module).map fun r => if r.module = new.module ∧ r.id = new.id then new else r := by
  unfold list replace
  rw [List.filter_map]
  congr 2
  funext r
  rw [Function.comp_apply]
  split
  · next hplace => rw [hplace.1]
  · rfl

theorem list_replace_of_ne (s : MemoryStore) {new : Record} {other : ModuleId}
    (h : other ≠ new.module) : (s.replace new).list other = s.list other := by
  rw [list_replace]
  refine (List.map_congr_left fun r hr => ?_).trans (List.map_id _)
  have hother : r.module = other := of_decide_eq_true (List.mem_filter.mp hr).2
  exact if_neg fun hplace => h (hother.symm.trans hplace.1)

theorem list_delete (s : MemoryStore) (module other : ModuleId) (id : RecordId) :
    (s.delete module id).2.list other =
      (s.list other).filter fun r => ¬(r.module = module ∧ r.id = id) := by
  unfold list delete
  rw [List.filter_filter, List.filter_filter]
  congr 1
  funext r
  exact Bool.and_comm _ _

theorem list_delete_of_ne (s : MemoryStore) {module other : ModuleId} (id : RecordId)
    (h : other ≠ module) : (s.delete module id).2.list other = s.list other := by
  rw [list_delete]
  refine List.filter_eq_self.mpr fun r hr => decide_eq_true fun hplace => ?_
  have hother : r.module = other := of_decide_eq_true (List.mem_filter.mp hr).2
  exact h (hother.symm.trans hplace.1)

instance : ModularStore MemoryStore where
  holdings s module := (s.list module).map holding
  get_eq s module id := by
    have hlook : ((fun h : Holding => decide (h.id = id.text)) ∘ holding) =
        fun r => decide (r.id = id) :=
      funext fun r => decide_eq_decide.mpr ⟨Ident.ext_text, congrArg Ident.text⟩
    rw [get_eq, find?_eq_list, List.find?_map, hlook]
    cases (s.list module).find? fun r => r.id = id with
    | none => rfl
    | some r => rfl
  list_eq s module := by
    show Except.ok (s.list module) = _
    induction s.list module with
    | nil => rfl
    | cons r rest ih =>
      rw [List.map_cons, List.mapM_cons, ← ih]
      rfl
  mutateField_congr {s s' module} h id field m now := by
    have hlist := List.map_injective_iff.mpr holding_injective h
    show SameAnswer _ (s.mutateField module id field m now) (s'.mutateField module id field m now)
    unfold MemoryStore.mutateField
    rw [find?_eq_list, find?_eq_list, hlist]
    cases (s'.list module).find? fun r => r.id = id with
    | none => exact .error _
    | some r =>
      dsimp only
      cases r.mutate field m now with
      | error e => exact .error e
      | ok write =>
        refine .ok write ?_
        split
        · rw [list_replace, list_replace, hlist]
        · exact h
  delete_congr {s s' module} h id := by
    have hlist := List.map_injective_iff.mpr holding_injective h
    rw [delete_eq, delete_eq, find?_eq_list, find?_eq_list, hlist]
    refine .ok _ ?_
    rw [list_delete, list_delete, hlist]
  holdings_mutateField_of_ne h hne := by
    obtain ⟨r, hr, hw, rfl⟩ := mutateField_ok h
    have hmodule := (Record.mutate_keeps hw).2.1.trans (key_of_find? hr).1
    split
    · rw [list_replace_of_ne _ (hmodule ▸ hne)]
    · rfl
  holdings_delete_of_ne {s t module other id found} h hne := by
    rw [delete_eq] at h
    cases h
    rw [list_delete_of_ne s id hne]

end MemoryStore

/-! ## Rows of text -/

namespace Row

def holding (row : Row) : Holding := ⟨row.id, row.createdAt, row.toRecord⟩

/-- The row with the data and the time of a record, if it is the one of the record. -/
def rewrite (new : Record) (row : Row) : Row :=
  if row.isOf new.module new.id then { row with data := new.data.text, updatedAt := new.updatedAt }
  else row

end Row

/-- What is held after the data and the time of a record have been written. -/
def Holding.rewrite (new : Record) (h : Holding) : Holding :=
  if h.id = new.id.text then
    { h with record := { Row.ofRecord new with createdAt := h.createdAt }.toRecord }
  else h

namespace Row

theorem module_rewrite (new : Record) (row : Row) : (row.rewrite new).module = row.module := by
  unfold rewrite
  split
  · rfl
  · rfl

theorem holding_rewrite {new : Record} {row : Row} (h : row.module = new.module.text) :
    (row.rewrite new).holding = row.holding.rewrite new := by
  unfold rewrite Holding.rewrite
  show _ = if row.id = new.id.text then _ else _
  by_cases hid : row.id = new.id.text
  · rw [if_pos (isOf_iff.mpr ⟨h, hid⟩), if_pos hid]
    unfold holding ofRecord
    rw [h, hid]
  · rw [if_neg fun hof => hid (isOf_iff.mp hof).2, if_neg hid]

end Row

namespace TableStore

theorem row?_eq_rowsOf (s : TableStore) (module : ModuleId) (id : RecordId) :
    s.row? module id = (s.rowsOf module).find? fun row => row.id = id.text := by
  unfold row? rowsOf
  rw [List.find?_filter]
  congr 1
  funext row
  rw [Bool.eq_iff_iff, Row.isOf_iff, decide_eq_true_iff, decide_eq_true_iff, beq_iff_eq]

theorem rowsOf_module {s : TableStore} {module : ModuleId} {row : Row}
    (h : row ∈ s.rowsOf module) : row.module = module.text :=
  eq_of_beq (List.mem_filter.mp h).2

theorem rowsOf_replace (s : TableStore) (new : Record) (module : ModuleId) :
    (s.replace new).rowsOf module = (s.rowsOf module).map (Row.rewrite new) := by
  show (s.rows.map (Row.rewrite new)).filter _ = (s.rows.filter _).map _
  rw [List.filter_map]
  congr 2
  funext row
  rw [Function.comp_apply, Row.module_rewrite]

theorem rowsOf_replace_of_ne (s : TableStore) {new : Record} {other : ModuleId}
    (h : other ≠ new.module) : (s.replace new).rowsOf other = s.rowsOf other := by
  rw [rowsOf_replace]
  refine (List.map_congr_left fun row hrow => ?_).trans (List.map_id _)
  refine if_neg fun hof => h (Ident.ext_text ?_)
  exact (rowsOf_module hrow).symm.trans (Row.isOf_iff.mp hof).1

theorem rowsOf_delete (s : TableStore) (module other : ModuleId) (id : RecordId) :
    (TableStore.mk (s.rows.filter fun row => !row.isOf module id)).rowsOf other =
      (s.rowsOf other).filter fun row => !row.isOf module id := by
  unfold rowsOf
  rw [List.filter_filter, List.filter_filter]
  congr 1
  funext row
  exact Bool.and_comm _ _

theorem rowsOf_delete_of_ne (s : TableStore) {module other : ModuleId} (id : RecordId)
    (h : other ≠ module) :
    (TableStore.mk (s.rows.filter fun row => !row.isOf module id)).rowsOf other =
      s.rowsOf other := by
  rw [rowsOf_delete]
  refine List.filter_eq_self.mpr fun row hrow => Bool.not_eq_true' _ ▸ Bool.eq_false_iff.mpr ?_
  exact fun hof => h (Ident.ext_text ((rowsOf_module hrow).symm.trans (Row.isOf_iff.mp hof).1))

def holdings (s : TableStore) (module : ModuleId) : List Holding :=
  (s.rowsOf module).map Row.holding

theorem holdings_replace (s : TableStore) (new : Record) :
    (s.replace new).holdings new.module = (s.holdings new.module).map (Holding.rewrite new) := by
  unfold holdings
  rw [rowsOf_replace, List.map_map, List.map_map]
  exact List.map_congr_left fun row hrow => Row.holding_rewrite (rowsOf_module hrow)

theorem holdings_delete (s : TableStore) (module : ModuleId) (id : RecordId) :
    (TableStore.mk (s.rows.filter fun row => !row.isOf module id)).holdings module =
      (s.holdings module).filter fun h => h.id ≠ id.text := by
  unfold holdings
  rw [rowsOf_delete, List.filter_map]
  congr 1
  refine List.filter_congr fun row hrow => ?_
  unfold Row.isOf
  rw [rowsOf_module hrow, beq_self_eq_true, Bool.true_and]
  exact decide_not.symm

theorem get_eq_holdings (s : TableStore) (module : ModuleId) (id : RecordId) :
    s.get module id =
      match (s.holdings module).find? fun h => h.id = id.text with
      | none => .ok none
      | some h => h.record.map some := by
  have hlook : (fun h : Holding => decide (h.id = id.text)) ∘ Row.holding =
      fun row => decide (row.id = id.text) := rfl
  unfold TableStore.get holdings
  rw [row?_eq_rowsOf, List.find?_map, hlook]
  cases (s.rowsOf module).find? fun row => row.id = id.text with
  | none => rfl
  | some row => rfl

theorem get_congr_holdings {s s' : TableStore} {module : ModuleId}
    (h : s.holdings module = s'.holdings module) (id : RecordId) :
    s.get module id = s'.get module id := by
  rw [get_eq_holdings, get_eq_holdings, h]

theorem mutateField_eq (s : TableStore) (module : ModuleId) (id : RecordId) (field : String)
    (m : Mutation) (now : Int) :
    s.mutateField module id field m now =
      match s.get module id with
      | .error e => .error e
      | .ok none => .error (.notFound id)
      | .ok (some r) =>
        match r.mutate field m now with
        | .error e => .error e
        | .ok w => .ok (w, if w.changed then s.replace w.record else s) := by
  unfold TableStore.mutateField TableStore.load
  cases s.get module id with
  | error e => rfl
  | ok found =>
    cases found with
    | none => rfl
    | some r =>
      dsimp only [bind, Except.bind, pure, Except.pure]
      cases r.mutate field m now with
      | error e => rfl
      | ok w => rfl

theorem delete_eq (s : TableStore) (module : ModuleId) (id : RecordId) :
    s.delete module id =
      match s.get module id with
      | .error e => .error e
      | .ok none => .ok (none, s)
      | .ok (some r) => .ok (some r, ⟨s.rows.filter fun row => !row.isOf module id⟩) := by
  unfold TableStore.delete
  cases s.get module id with
  | error e => rfl
  | ok found =>
    cases found with
    | none => rfl
    | some r => rfl

instance : ModularStore TableStore where
  holdings := holdings
  get_eq := get_eq_holdings
  list_eq s module := by
    show (s.rowsOf module).mapM Row.toRecord = _
    unfold holdings
    rw [List.mapM_map]
    rfl
  mutateField_congr {s s' module} h id field m now := by
    show SameAnswer _ (s.mutateField module id field m now) (s'.mutateField module id field m now)
    rw [mutateField_eq, mutateField_eq, get_congr_holdings h]
    cases hget : s'.get module id with
    | error e => exact .error e
    | ok found =>
      cases found with
      | none => exact .error _
      | some r =>
        dsimp only
        cases hw : r.mutate field m now with
        | error e => exact .error e
        | ok w =>
          refine .ok w ?_
          have hmodule := (Record.mutate_keeps hw).2.1.trans (key_of_get hget).1
          split
          · rw [← hmodule, holdings_replace, holdings_replace, hmodule, h]
          · exact h
  delete_congr {s s' module} h id := by
    show SameAnswer _ (s.delete module id) (s'.delete module id)
    rw [delete_eq, delete_eq, get_congr_holdings h]
    cases s'.get module id with
    | error e => exact .error e
    | ok found =>
      cases found with
      | none => exact .ok none h
      | some r => exact .ok (some r) (by rw [holdings_delete, holdings_delete, h])
  holdings_mutateField_of_ne h hne := by
    obtain ⟨r, hr, hw, rfl⟩ := mutateField_ok h
    have hmodule := (Record.mutate_keeps hw).2.1.trans (key_of_get hr).1
    unfold holdings
    split
    · rw [rowsOf_replace_of_ne _ (hmodule ▸ hne)]
    · rfl
  holdings_delete_of_ne {s t module other id found} h hne := by
    obtain ⟨_, hs⟩ := delete_ok h
    unfold holdings
    cases found with
    | none => rw [hs]
    | some r => rw [hs, rowsOf_delete_of_ne s id hne]

end TableStore
end RecordRules
