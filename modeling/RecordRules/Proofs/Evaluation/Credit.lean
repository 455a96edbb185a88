/-
Records with amounts added to a field.

The records of a store are compared with what they were at the start: to the integer that a record
held in a field, amounts have been added, and nothing else has changed.  What a binding finds does
not depend on such amounts, unless it is a match on that field.
-/
import RecordRules.Proofs.Evaluation.Selection
import RecordRules.Proofs.Store.Counting

namespace RecordRules

/-! ## Accounts -/

/-- The amounts that have been added so far, under the records that they were added to. -/
abbrev Accounts := RecordId → List Int

namespace Accounts

def empty : Accounts := fun _ => []

/-- Adds amounts for some records. -/
def pay (ids : List RecordId) (amounts : List Int) (accounts : Accounts) : Accounts :=
  fun id => if id ∈ ids then accounts id ++ amounts else accounts id

variable {ids : List RecordId} {amounts : List Int} {accounts : Accounts} {id : RecordId}

theorem pay_of_mem (h : id ∈ ids) : accounts.pay ids amounts id = accounts id ++ amounts := if_pos h

theorem pay_of_not_mem (h : id ∉ ids) : accounts.pay ids amounts id = accounts id := if_neg h

theorem pay_nothing (ids : List RecordId) (accounts : Accounts) :
    accounts.pay ids [] = accounts := by
  funext id
  unfold pay
  rw [List.append_nil, ite_self]

theorem pay_none (amounts : List Int) (accounts : Accounts) : accounts.pay [] amounts = accounts :=
  funext fun _ => pay_of_not_mem List.not_mem_nil

theorem pay_cons (h : id ∉ ids) :
    accounts.pay (id :: ids) amounts = (accounts.pay [id] amounts).pay ids amounts := by
  funext other
  by_cases hother : other = id
  · subst hother
    rw [pay_of_mem List.mem_cons_self, pay_of_not_mem h, pay_of_mem List.mem_cons_self]
  · have hne : other ∉ [id] := fun hmem => hother (List.mem_singleton.mp hmem)
    by_cases hmem : other ∈ ids
    · rw [pay_of_mem (List.mem_cons_of_mem _ hmem), pay_of_mem hmem, pay_of_not_mem hne]
    · rw [pay_of_not_mem hmem, pay_of_not_mem hne, pay_of_not_mem]
      exact fun hcons => (List.mem_cons.mp hcons).elim hother hmem

/-- The accounts without those of some records. -/
def without (ids : List RecordId) (accounts : Accounts) : Accounts :=
  fun id => if id ∈ ids then [] else accounts id

theorem pay_without (h : id ∉ ids) :
    (accounts.without (id :: ids)).pay [id] (accounts id) = accounts.without ids := by
  funext other
  by_cases hother : other = id
  · subst hother
    rw [pay_of_mem List.mem_cons_self]
    unfold without
    rw [if_pos List.mem_cons_self, if_neg h, List.nil_append]
  · rw [pay_of_not_mem fun hmem => hother (List.mem_singleton.mp hmem)]
    unfold without
    simp only [List.mem_cons, hother, false_or]

theorem prefix_pay (ids : List RecordId) (amounts : List Int) (accounts : Accounts)
    (id : RecordId) : accounts id <+: accounts.pay ids amounts id := by
  by_cases h : id ∈ ids
  · rw [pay_of_mem h]
    exact List.prefix_append _ _
  · rw [pay_of_not_mem h]

end Accounts

/-! ## Records -/

namespace Record

/-- The integer in a field, zero if there is none. -/
def integerAt (r : Record) (name : String) : Int :=
  match Mutation.currentNumber (r.get? name) with
  | .ok (.finite x) => x.truncate
  | _ => 0

/-- The data of a record with amounts added to the integer in a field. -/
def credited (r : Record) (name : String) (amounts : List Int) : Json :=
  if amounts = [] then r.data else r.data.set name (.ofInt (r.integerAt name + amounts.sum))

theorem HoldsInteger.integerAt_eq {r : Record} {name : String} {n : Int}
    (h : r.HoldsInteger name n) : r.integerAt name = n := by
  obtain ⟨_, x, hx, y, rfl, hcounts⟩ := h
  unfold integerAt
  rw [hx]
  exact hcounts.truncate_eq

theorem HoldsInteger.credited_eq {r : Record} {name : String} {n : Int}
    (h : r.HoldsInteger name n) {amounts : List Int} (hsome : amounts ≠ []) :
    r.credited name amounts = r.data.set name (.ofInt (n + amounts.sum)) := by
  unfold credited
  rw [if_neg hsome, h.integerAt_eq]

/-- A record has become another one by amounts that were added to a field. -/
structure Credited (r : Record) (name : String) (amounts : List Int) (r' : Record) : Prop where
  place : r'.place = r.place
  createdAt : r'.createdAt = r.createdAt
  data : r'.data = r.credited name amounts
  untouched : amounts = [] → r' = r

namespace Credited

variable {r r' : Record} {name : String} {amounts : List Int}

theorem refl (r : Record) (name : String) : r.Credited name [] r :=
  ⟨rfl, rfl, (if_pos rfl).symm, fun _ => rfl⟩

theorem get? (h : r.Credited name amounts r') {key : String} (hkey : key ≠ name) :
    r'.get? key = r.get? key := by
  unfold Record.get?
  rw [h.data, credited]
  split
  · rfl
  · exact Json.get?_set_of_ne hkey _ _

/-- The record holds the integer that has come about. -/
theorem holdsInteger (h : r.Credited name amounts r') {n : Int} (hn : r.HoldsInteger name n)
    (hsum : (n + amounts.sum).natAbs ≤ maxExactInteger) :
    r'.HoldsInteger name (n + amounts.sum) := by
  by_cases hnone : amounts = []
  · rw [h.untouched hnone, hnone, List.sum_nil, Int.add_zero]
    exact hn
  · have hdata := h.data
    rw [hn.credited_eq hnone] at hdata
    refine holdsInteger_ofInt ?_ ?_ hsum
    · rw [hdata, Json.isObject_set]
      exact hn.1
    · rw [Record.get?, hdata, Json.get?_set_self hn.1]

/-- More is added to the record. -/
theorem add (h : r.Credited name amounts r') {n : Int} (hn : r.HoldsInteger name n)
    {more : List Int} (hmore : more ≠ []) {x : Binary64} (hx : x.Counts more.sum)
    (hnormal : r'.data.IsNormal)
    (hfits : n.natAbs + ((amounts ++ more).map Int.natAbs).sum ≤ maxExactInteger) (now : Int) :
    ∃ w, r'.mutate name (.add x) now = .ok w ∧
      w.current = .ofInt (n + amounts.sum + more.sum) ∧
      r.Credited name (amounts ++ more) w.record := by
  have hamounts := natAbs_sum_le amounts
  have hboth := natAbs_sum_le (amounts ++ more)
  rw [List.map_append, List.sum_append_nat] at hfits hboth
  rw [List.sum_append_int] at hboth
  obtain ⟨w, hw, hcurrent, hdata, hsame⟩ :=
    mutate_add hnormal (h.holdsInteger hn (by omega)) hx (by omega) now
  obtain ⟨hid, hmodule, hcreated, _⟩ := mutate_keeps hw
  refine ⟨w, hw, hcurrent, ?_, hcreated.trans h.createdAt, ?_, fun hnone => ?_⟩
  · exact (Prod.ext hmodule hid).trans h.place
  · rw [hn.credited_eq (List.append_ne_nil_of_right_ne_nil amounts hmore), hdata,
      List.sum_append_int, ← Int.add_assoc, h.data, credited]
    split
    · rfl
    · rw [Json.set_set]
  · exact absurd hnone (List.append_ne_nil_of_right_ne_nil amounts hmore)

end Credited
end Record

/-! ## Stores -/

namespace MemoryStore

/-- The records of a module are what amounts have made of those at the start, and all others are
the same. -/
def Credited (start : MemoryStore) (module : ModuleId) (name : String) (accounts : Accounts)
    (m : MemoryStore) : Prop :=
  ∃ f : Record → Record, m.records = start.records.map f ∧ ∀ r ∈ start.records,
    r.Credited name (if r.module = module then accounts r.id else []) (f r)

/-- Every record that amounts are added to holds an integer, and no sum leaves the exact range. -/
def Fits (start : MemoryStore) (module : ModuleId) (name : String) (accounts : Accounts) : Prop :=
  ∀ r ∈ start.records, r.module = module → accounts r.id ≠ [] →
    ∃ n, r.HoldsInteger name n ∧ n.natAbs + ((accounts r.id).map Int.natAbs).sum ≤ maxExactInteger

theorem Fits.mono {start : MemoryStore} {module : ModuleId} {name : String}
    {accounts more : Accounts} (h : start.Fits module name more)
    (hmore : ∀ id, accounts id <+: more id) : start.Fits module name accounts := by
  intro r hr hmodule hsome
  obtain ⟨rest, hrest⟩ := hmore r.id
  have hne : more r.id ≠ [] := hrest ▸ List.append_ne_nil_of_left_ne_nil hsome rest
  obtain ⟨n, hn, hle⟩ := h r hr hmodule hne
  rw [← hrest, List.map_append, List.sum_append_nat] at hle
  exact ⟨n, hn, by omega⟩

theorem Fits.natAbs_sum_le {start : MemoryStore} {module : ModuleId} {name : String}
    {accounts : Accounts} (h : start.Fits module name accounts) {id : RecordId}
    (hid : ∃ r ∈ start.records, r.module = module ∧ r.id = id) :
    (accounts id).sum.natAbs ≤ maxExactInteger := by
  obtain ⟨r, hr, hmodule, rfl⟩ := hid
  by_cases hnone : accounts r.id = []
  · rw [hnone]
    exact Nat.zero_le _
  · obtain ⟨n, _, hle⟩ := h r hr hmodule hnone
    have := RecordRules.natAbs_sum_le (accounts r.id)
    omega

/-- A field of a record that is there is written where the record stands, and all others stay. -/
theorem Keyed.mutateField_of_mem {m : MemoryStore} (h : m.Keyed) {r : Record} (hr : r ∈ m.records)
    {name : String} {mutation : Mutation} {now : Int} {w : FieldWrite}
    (hw : r.mutate name mutation now = .ok w) :
    ∃ m', RecordStore.mutateField m r.module r.id name mutation now = .ok (w, m') ∧
      m'.records = m.records.map fun r' => if r'.place = r.place then w.record else r' := by
  refine ⟨_, mutateField_of_find? (h.find?_of_mem hr) hw, ?_⟩
  rcases Record.mutate_cases hw with ⟨hchanged, hsame⟩ | ⟨hchanged, _⟩
  · rw [hchanged, if_neg Bool.false_ne_true]
    refine (List.map_id _).symm.trans (List.map_congr_left fun r' hr' => ?_)
    split
    · next hplace => rw [hsame, List.inj_on_of_nodup_map h hr' hr hplace, id]
    · rfl
  · obtain ⟨hid, hmodule, _⟩ := Record.mutate_keeps hw
    rw [if_pos hchanged]
    refine List.map_congr_left fun r' _ => if_congr ?_ rfl rfl
    rw [hid, hmodule, Record.place, Record.place, Prod.mk.injEq]

namespace Credited

variable {start m : MemoryStore} {module : ModuleId} {name : String} {accounts : Accounts}

theorem refl (start : MemoryStore) (module : ModuleId) (name : String) :
    start.Credited module name .empty start := by
  refine ⟨id, (List.map_id _).symm, fun r _ => ?_⟩
  have hnone : (if r.module = module then Accounts.empty r.id else []) = [] := ite_self _
  rw [hnone]
  exact .refl r name

/-- What is seen of records without the field is as it was. -/
theorem map_eq (h : start.Credited module name accounts m) {α : Type} {view : Record → α}
    (hview : ∀ r r' amounts, r.Credited name amounts r' → view r' = view r) :
    m.records.map view = start.records.map view := by
  obtain ⟨f, hf, hcredited⟩ := h
  rw [hf, List.map_map]
  exact List.map_congr_left fun r hr => hview r (f r) _ (hcredited r hr)

theorem places_eq (h : start.Credited module name accounts m) :
    m.records.map Record.place = start.records.map Record.place :=
  h.map_eq fun _ _ _ hr => hr.place

theorem keyed (h : start.Credited module name accounts m) (hm : m.Keyed) : start.Keyed := by
  unfold MemoryStore.Keyed
  rw [← h.places_eq]
  exact hm

/-- What amounts have made of a record is there. -/
theorem exists_mem (h : start.Credited module name accounts m) {r : Record}
    (hr : r ∈ start.records) :
    ∃ r' ∈ m.records, r.Credited name (if r.module = module then accounts r.id else []) r' := by
  obtain ⟨f, hf, hcredited⟩ := h
  exact ⟨f r, hf ▸ List.mem_map_of_mem hr, hcredited r hr⟩

/-- A record is put in the place of its older state, with amounts more than that one had. -/
theorem map_write (h : start.Credited module name accounts m) (hm : m.Keyed) {r new : Record}
    (hr : r ∈ start.records) (hmodule : r.module = module) {more : List Int}
    (hnew : r.Credited name (accounts r.id ++ more) new) {m' : MemoryStore}
    (hm' : m'.records = m.records.map fun r' => if r'.place = r.place then new else r') :
    start.Credited module name (accounts.pay [r.id] more) m' := by
  have hstart := h.keyed hm
  obtain ⟨f, hf, hcredited⟩ := h
  refine ⟨fun r' => if r'.place = r.place then new else f r', ?_, fun r' hr' => ?_⟩
  · rw [hm', hf, List.map_map]
    refine List.map_congr_left fun r' hr' => ?_
    rw [Function.comp_apply, (hcredited r' hr').place]
  · dsimp only
    by_cases hplace : r'.place = r.place
    · obtain rfl : r' = r := List.inj_on_of_nodup_map hstart hr' hr hplace
      rw [if_pos rfl, if_pos hmodule, Accounts.pay_of_mem List.mem_cons_self]
      exact hnew
    · have hsame : (if r'.module = module then accounts.pay [r.id] more r'.id else []) =
          if r'.module = module then accounts r'.id else [] := by
        split
        · next hhome =>
          refine Accounts.pay_of_not_mem fun hid => hplace ?_
          exact Prod.ext (hhome.trans hmodule.symm) (List.mem_singleton.mp hid)
        · rfl
      rw [if_neg hplace, hsame]
      exact hcredited r' hr'

/-- Amounts are added to one record more. -/
theorem mutateField (h : start.Credited module name accounts m) (hm : m.WellKept)
    {id : RecordId} {r : Record} (hr : r ∈ start.records) (hmodule : r.module = module)
    (hid : r.id = id) {more : List Int} (hmore : more ≠ []) {x : Binary64}
    (hx : x.Counts more.sum) (hfits : start.Fits module name (accounts.pay [id] more))
    (now : Int) :
    ∃ w m' n, RecordStore.mutateField m module id name (.add x) now = .ok (w, m') ∧
      w.current = .ofInt n ∧ n.natAbs ≤ maxExactInteger ∧ w.record.id = id ∧
      start.Credited module name (accounts.pay [id] more) m' := by
  subst hmodule hid
  have hpaid : accounts.pay [r.id] more r.id = accounts r.id ++ more :=
    Accounts.pay_of_mem List.mem_cons_self
  have hne : accounts r.id ++ more ≠ [] := List.append_ne_nil_of_right_ne_nil _ hmore
  obtain ⟨n, hn, hle⟩ := hfits r hr rfl (by rw [hpaid]; exact hne)
  rw [hpaid] at hle
  obtain ⟨old, hmem, hold⟩ := h.exists_mem hr
  rw [if_pos rfl] at hold
  obtain ⟨w, hw, hcurrent, hnew⟩ := hold.add hn hmore hx (hm.normal _ hmem) hle now
  obtain ⟨m', hstore, hm'⟩ := hm.keyed.mutateField_of_mem hmem hw
  obtain ⟨hmodule, hid⟩ : old.module = r.module ∧ old.id = r.id := Prod.ext_iff.mp hold.place
  rw [hmodule, hid] at hstore
  rw [hold.place] at hm'
  have hsum := natAbs_sum_le (accounts r.id ++ more)
  rw [List.sum_append_int] at hsum
  exact ⟨w, m', _, hstore, hcurrent, by omega, (Prod.ext_iff.mp hnew.place).2,
    h.map_write hm.keyed hr rfl hnew hm'⟩

end Credited
end MemoryStore

/-! ## What a binding finds -/

namespace Binding

/-- The binding is a match on a field of a module. -/
def Matches (registry : Registry) (module : ModuleId) (name : String) : Binding → Prop
  | .byMatch _ field => matchField registry module field = .ok name
  | _ => False

/-- The identifiers of targets; none if there was a miss. -/
def idsOf : Except Miss (List Record) → List RecordId
  | .ok targets => targets.map Record.id
  | .error _ => []

/-- The targets that a binding finds, by their identifiers. -/
def foundIds {σ : Type} [RecordStore σ] (b : Binding) (registry : Registry) (store : σ)
    (module : ModuleId) (r : Record) (element : Option Json) : List RecordId :=
  idsOf (b.targets registry store module r element)

end Binding

section

variable {σ : Type} [RecordStore σ] {store : σ} {b : Binding} {registry : Registry}
  {module : ModuleId} {r : Record} {element : Option Json}

theorem Binding.foundIds_ok {targets : List Record}
    (h : b.targets registry store module r element = .ok targets) :
    b.foundIds registry store module r element = targets.map Record.id := congrArg idsOf h

theorem Binding.idsOf_bind {α : Type} {x : Except Miss α} {f g : α → Except Miss (List Record)}
    (h : ∀ a, x = .ok a → idsOf (f a) = idsOf (g a)) : idsOf (x >>= f) = idsOf (x >>= g) := by
  cases x with
  | error miss => rfl
  | ok a => exact h a rfl

theorem Binding.foundIds_error {miss : Miss}
    (h : b.targets registry store module r element = .error miss) :
    b.foundIds registry store module r element = [] := congrArg idsOf h

/-- A store finds what the one finds that it shows. -/
theorem CountingStore.targets_eq [CountingStore σ] {m : MemoryStore} (h : Shows store m) :
    b.targets registry store module r element = b.targets registry m module r element := by
  have hlist (module : ModuleId) := CountingStore.list module h
  have hfetch (module : ModuleId) (id : RecordId) : fetch store module id = fetch m module id := by
    unfold fetch
    rw [CountingStore.get module id h]
  unfold Binding.targets
  cases b with
  | sole => simp only [hlist]
  | record id => exact hfetch module id
  | source => exact hfetch module r.id
  | foreignKey address => simp only [hfetch]
  | byMatch address field => simp only [RecordStore.findByField, hlist]

end

namespace MemoryStore

variable {m : MemoryStore} {b : Binding} {registry : Registry} {module : ModuleId} {r : Record}
  {element : Option Json}

/-- The targets are some of the records of their module, in the order of the store. -/
theorem targets_sublist {targets : List Record}
    (h : b.targets registry m module r element = .ok targets) :
    targets.Sublist (m.list module) := by
  have hfetch {id : RecordId} (h : fetch m module id = .ok targets) :
      targets.Sublist (m.list module) := by
    obtain ⟨t, hfind, rfl⟩ := fetch_ok h
    refine List.singleton_sublist.mpr (List.mem_filter.mpr ⟨mem_of_find? hfind, ?_⟩)
    exact decide_eq_true (key_of_find? hfind).1
  cases Binding.targets_searched h with
  | sole hlist =>
    have hlist : m.list module = [_] := Except.ok.inj hlist
    rw [hlist]
  | record hfetched => exact hfetch hfetched
  | source hfetched => exact hfetch hfetched
  | foreignKey _ _ hfetched => exact hfetch hfetched
  | byMatch _ _ hfind =>
    cases hfind
    exact List.filter_sublist

theorem Keyed.nodup_foundIds (h : m.Keyed) : (b.foundIds registry m module r element).Nodup := by
  cases hts : b.targets registry m module r element with
  | error miss =>
    rw [Binding.foundIds_error hts]
    exact List.nodup_nil
  | ok targets =>
    rw [Binding.foundIds_ok hts]
    have hsublist := targets_sublist hts
    have hplaces : (targets.map Record.place).Nodup :=
      h.sublist ((hsublist.trans List.filter_sublist).map Record.place)
    refine (List.nodup_map_iff_inj_on (List.Nodup.of_map _ hplaces)).mpr fun a ha t ht hid => ?_
    have hmodule (x : Record) (hx : x ∈ targets) : x.module = module :=
      of_decide_eq_true (List.mem_filter.mp (hsublist.subset hx)).2
    exact List.inj_on_of_nodup_map hplaces ha ht
      (Prod.ext ((hmodule a ha).trans (hmodule t ht).symm) hid)

/-- Whatever is found is there. -/
theorem exists_of_mem_foundIds {id : RecordId}
    (h : id ∈ b.foundIds registry m module r element) :
    ∃ t ∈ m.records, t.module = module ∧ t.id = id := by
  cases hts : b.targets registry m module r element with
  | error miss =>
    rw [Binding.foundIds_error hts] at h
    cases h
  | ok targets =>
    rw [Binding.foundIds_ok hts] at h
    obtain ⟨t, ht, rfl⟩ := List.mem_map.mp h
    obtain ⟨hmem, hmodule⟩ := List.mem_filter.mp ((targets_sublist hts).subset ht)
    exact ⟨t, hmem, of_decide_eq_true hmodule, rfl⟩

/-! ### What is found, by identifiers -/

theorem idsOf_fetch (id : RecordId) : Binding.idsOf (fetch m module id) =
    if (module, id) ∈ m.records.map Record.place then [id] else [] := by
  show Binding.idsOf (found (.record id module) (m.find? module id)) = _
  cases hfind : m.find? module id with
  | none =>
    rw [if_neg (find?_eq_none_iff.mp hfind)]
    rfl
  | some t =>
    obtain ⟨rfl, rfl⟩ := key_of_find? hfind
    have hmem : (t.module, t.id) ∈ m.records.map Record.place :=
      List.mem_map_of_mem (f := Record.place) (mem_of_find? hfind)
    rw [if_pos hmem]
    rfl

/-- One target is found if and only if one record is listed. -/
theorem foundIds_sole : Binding.sole.foundIds registry m module r element =
    if (m.list module).length = 1 then (m.list module).map Record.id else [] := by
  have hlist : asking (RecordStore.list m module) = .ok (m.list module) := rfl
  simp only [Binding.foundIds, Binding.targets, hlist, bind, Except.bind]
  match m.list module with
  | [] => rfl
  | [t] => rfl
  | t :: u :: rest => exact (if_neg (by simp)).symm

theorem foundIds_byMatch {address field name : String} {key : Json}
    (hread : readKey address r element = .ok key)
    (hname : matchField registry module field = .ok name) :
    (Binding.byMatch address field).foundIds registry m module r element =
      ((m.list module).filter fun t =>
        (t.get? name).any fun v => v.looselyEqual key).map Record.id := by
  have hfind : asking (RecordStore.findByField m module name key) =
      .ok ((m.list module).filter fun t => (t.get? name).any fun v => v.looselyEqual key) := rfl
  simp only [Binding.foundIds, Binding.targets, hread, hname, hfind, bind, Except.bind]
  cases (m.list module).filter fun t => (t.get? name).any fun v => v.looselyEqual key with
  | nil => rfl
  | cons t rest => rfl

namespace Credited

variable {start : MemoryStore} {home : ModuleId} {name : String} {accounts : Accounts}

/-- Records are listed in the same order, also those that have a property. -/
theorem ids_filter_list (h : start.Credited home name accounts m) (module : ModuleId)
    (keep : Record → Bool) (hkeep : ∀ r r' amounts, r.Credited name amounts r' → keep r' = keep r) :
    ((m.list module).filter keep).map Record.id =
      ((start.list module).filter keep).map Record.id := by
  have hids (m : MemoryStore) : ((m.list module).filter keep).map Record.id =
      ((m.records.map fun r => (r.place, keep r)).filter
        fun v => v.2 && decide (v.1.1 = module)).map fun v => v.1.2 := by
    rw [List.filter_map, List.map_map, list, List.filter_filter]
    rfl
  have hview : (m.records.map fun r => (r.place, keep r)) =
      start.records.map fun r => (r.place, keep r) :=
    h.map_eq fun r r' amounts hr => by rw [hr.place, hkeep r r' amounts hr]
  rw [hids, hids, hview]

/-- Amounts that were added do not change what a binding finds. -/
theorem foundIds_eq (h : start.Credited home name accounts m)
    (hmatch : ¬b.Matches registry module name) :
    b.foundIds registry m module r element = b.foundIds registry start module r element := by
  have hfetch (id : RecordId) : Binding.idsOf (fetch m module id) =
      Binding.idsOf (fetch start module id) := by
    rw [idsOf_fetch, idsOf_fetch, h.places_eq]
  cases b with
  | sole =>
    have hids := h.ids_filter_list module (fun _ => true) fun _ _ _ _ => rfl
    rw [List.filter_true, List.filter_true] at hids
    have hlength := congrArg List.length hids
    rw [List.length_map, List.length_map] at hlength
    rw [foundIds_sole, foundIds_sole, hlength, hids]
  | record id => exact hfetch id
  | source => exact hfetch r.id
  | foreignKey address =>
    refine Binding.idsOf_bind fun key _ => ?_
    cases Ident.ofString? (keyText key) with
    | none => rfl
    | some id => exact hfetch id
  | byMatch address field =>
    cases hread : readKey address r element with
    | error miss => simp only [Binding.foundIds, Binding.targets, hread, bind, Except.bind]
    | ok key =>
      cases hfound : matchField registry module field with
      | error miss =>
        simp only [Binding.foundIds, Binding.targets, hread, hfound, bind, Except.bind]
      | ok found =>
        have hne : found ≠ name := by
          rintro rfl
          exact hmatch hfound
        rw [foundIds_byMatch hread hfound, foundIds_byMatch hread hfound]
        exact h.ids_filter_list module _ fun t t' amounts ht => by rw [ht.get? hne]

end Credited
end MemoryStore

end RecordRules
