/-
Increments in any order.

An increment adds an integer to a field of a record.  A field ends with the integer that it held
and the sum of all that was added to it, however the increments of a list are mixed, and since
nothing else of the data is touched, no order of the list leads to other data than another.
-/
import Mathlib.Data.List.Forall2
import RecordRules.Proofs.Basic
import RecordRules.Proofs.Store.Counting

namespace RecordRules

open List (Forall₂)

/-! ## Records -/

namespace Record

/-- A record has become another one by integers that were added to its fields. -/
structure Increased (r : Record) (amounts : String → List Int) (r' : Record) : Prop where
  place : r'.place = r.place
  createdAt : r'.createdAt = r.createdAt
  isObject : r'.data.isObject = r.data.isObject
  normal : r'.data.IsNormal
  sum {name : String} {n : Int} : amounts name ≠ [] → r.HoldsInteger name n →
    r'.get? name = some (.ofInt (n + (amounts name).sum))
  frame {name : String} : amounts name = [] → r'.get? name = r.get? name
  untouched : (∀ name, amounts name = []) → r' = r

namespace Increased

variable {r r' : Record} {amounts : String → List Int} {name : String} {n : Int}

theorem refl (hnormal : r.data.IsNormal) : r.Increased (fun _ => []) r :=
  ⟨rfl, rfl, rfl, hnormal, fun hsome => absurd rfl hsome, fun _ => rfl, fun _ => rfl⟩

theorem holdsInteger (h : r.Increased amounts r') (hn : r.HoldsInteger name n)
    (hsum : (n + (amounts name).sum).natAbs ≤ maxExactInteger) :
    r'.HoldsInteger name (n + (amounts name).sum) := by
  have hobject : r'.data.isObject = true := h.isObject.trans hn.1
  by_cases hnone : amounts name = []
  · rw [hnone, List.sum_nil, Int.add_zero]
    refine ⟨hobject, ?_⟩
    rw [h.frame hnone]
    exact hn.2
  · exact holdsInteger_ofInt hobject (h.sum hnone hn) hsum

/-- The record with a new sum in a field has been increased there. -/
theorem set (h : r.Increased amounts r') (hn : r.HoldsInteger name n) {k : Int} {new : Record}
    (hplace : new.place = r'.place) (hcreated : new.createdAt = r'.createdAt)
    (hdata : new.data = r'.data.set name (.ofInt (n + (amounts name ++ [k]).sum))) :
    r.Increased (Function.update amounts name (amounts name ++ [k])) new := by
  have hobject : r'.data.isObject = true := h.isObject.trans hn.1
  have hconcat : amounts name ++ [k] ≠ [] :=
    List.append_ne_nil_of_right_ne_nil _ (List.cons_ne_nil k [])
  have hothers {key : String} (hkey : key ≠ name) : new.get? key = r'.get? key := by
    rw [get?, hdata, Json.get?_set_of_ne hkey, get?]
  refine ⟨hplace.trans h.place, hcreated.trans h.createdAt, ?_, ?_, ?_, ?_, ?_⟩
  · rw [hdata, Json.isObject_set, h.isObject]
  · rw [hdata]
    exact h.normal.set (Json.isNormal_ofInt _) name
  · intro key n' hsome hn'
    by_cases hkey : key = name
    · subst hkey
      obtain rfl := hn.unique hn'
      rw [Function.update_self, get?, hdata, Json.get?_set_self hobject]
    · rw [Function.update_of_ne hkey] at hsome ⊢
      rw [hothers hkey, h.sum hsome hn']
  · intro key hnone
    have hkey : key ≠ name := by
      rintro rfl
      rw [Function.update_self] at hnone
      exact hconcat hnone
    rw [Function.update_of_ne hkey] at hnone
    rw [hothers hkey, h.frame hnone]
  · intro hnone
    have hself := hnone name
    rw [Function.update_self] at hself
    exact absurd hself hconcat

/-- One integer more is added to a field. -/
theorem add (h : r.Increased amounts r') (hn : r.HoldsInteger name n) {k : Int} {x : Binary64}
    (hx : x.Counts k)
    (hfits : n.natAbs + ((amounts name ++ [k]).map Int.natAbs).sum ≤ maxExactInteger) (now : Int) :
    ∃ w, r'.mutate name (.add x) now = .ok w ∧
      w.current = .ofInt (n + (amounts name ++ [k]).sum) ∧
      r.Increased (Function.update amounts name (amounts name ++ [k])) w.record := by
  have htotal : (amounts name ++ [k]).sum = (amounts name).sum + k := by
    rw [List.sum_append_int, List.sum_singleton]
  -- The sum before the addition is in the exact range as well as the one after it.
  have hbefore := natAbs_sum_le (amounts name)
  have hafter := natAbs_sum_le (amounts name ++ [k])
  rw [htotal] at hafter
  rw [List.map_append, List.sum_append_nat] at hfits hafter
  obtain ⟨w, hw, hcurrent, hdata, _⟩ :=
    mutate_add h.normal (h.holdsInteger hn (by omega)) hx (by omega) now
  rw [Int.add_assoc, ← htotal] at hcurrent hdata
  obtain ⟨hid, hmodule, hcreated, _⟩ := mutate_keeps hw
  exact ⟨w, hw, hcurrent, h.set hn (Prod.ext hmodule hid) hcreated hdata⟩

/-- The order in which integers are added makes no difference to the data. -/
theorem data_eq {amounts' : String → List Int} {r'' : Record} (h : r.Increased amounts r')
    (h' : r.Increased amounts' r'') (hperm : ∀ name, (amounts name).Perm (amounts' name))
    (hheld : ∀ name, amounts name ≠ [] → ∃ n, r.HoldsInteger name n) : r'.data = r''.data := by
  have hnil (name : String) : amounts name = [] ↔ amounts' name = [] := by
    rw [← List.length_eq_zero_iff, (hperm name).length_eq, List.length_eq_zero_iff]
  cases hobject : r.data.isObject with
  | false =>
    -- Data that are no object hold no integers, so nothing is added to them.
    have hnone (name : String) : amounts name = [] := by
      refine Decidable.byContradiction fun hsome => ?_
      obtain ⟨n, htrue, _⟩ := hheld name hsome
      rw [hobject] at htrue
      cases htrue
    rw [h.untouched hnone, h'.untouched fun name => (hnil name).mp (hnone name)]
  | true =>
    refine h.normal.ext h'.normal (h.isObject.trans hobject) (h'.isObject.trans hobject) ?_
    intro name
    by_cases hnone : amounts name = []
    · exact (h.frame hnone).trans (h'.frame ((hnil name).mp hnone)).symm
    · obtain ⟨n, hn⟩ := hheld name hnone
      have hsame : r'.get? name = some (.ofInt (n + (amounts' name).sum)) := by
        rw [h.sum hnone hn, (hperm name).sum_eq]
      exact hsame.trans (h'.sum (fun hnone' => hnone ((hnil name).mpr hnone')) hn).symm

end Increased
end Record

/-! ## Calls that add an integer -/

/-- A call that adds an integer to a field of a record.  What is passed to the store is the float
that has its value. -/
structure Increment where
  module : ModuleId
  id : RecordId
  field : String
  amount : Int
  number : Binary64
  counts : number.Counts amount
  now : Int

namespace Increment

def call (i : Increment) : StoreCall := .mutateField i.module i.id i.field (.add i.number) i.now

/-- What is added to the fields of a record, in the order of the calls. -/
def amounts (is : List Increment) (module : ModuleId) (id : RecordId) (field : String) : List Int :=
  (is.filter fun i => i.module = module ∧ i.id = id ∧ i.field = field).map amount

theorem amounts_append (is js : List Increment) (module : ModuleId) (id : RecordId)
    (field : String) :
    amounts (is ++ js) module id field =
      amounts is module id field ++ amounts js module id field := by
  unfold amounts
  rw [List.filter_append, List.map_append]

theorem amounts_perm {is js : List Increment} (h : is.Perm js) (module : ModuleId) (id : RecordId)
    (field : String) : (amounts is module id field).Perm (amounts js module id field) :=
  (h.filter _).map _

theorem amounts_concat_self (is : List Increment) (i : Increment) :
    amounts (is ++ [i]) i.module i.id =
      Function.update (amounts is i.module i.id) i.field
        (amounts is i.module i.id i.field ++ [i.amount]) := by
  funext field
  rw [amounts_append]
  by_cases h : field = i.field
  · subst h
    rw [Function.update_self]
    simp [amounts]
  · rw [Function.update_of_ne h]
    simp [amounts, Ne.symm h]

theorem amounts_concat_of_ne (is : List Increment) {i : Increment} {module : ModuleId}
    {id : RecordId} (h : (module, id) ≠ (i.module, i.id)) :
    amounts (is ++ [i]) module id = amounts is module id := by
  funext field
  have hno : ¬(i.module = module ∧ i.id = id ∧ i.field = field) := by
    rintro ⟨rfl, rfl, _⟩
    exact h rfl
  rw [amounts_append]
  simp [amounts, hno]

section

variable {σ : Type} [RecordStore σ]

/-- Every field that is added to holds an integer, and no sum leaves the exact range. -/
def Fits (s : σ) (is : List Increment) : Prop :=
  ∀ module id r field, RecordStore.get s module id = .ok (some r) →
    amounts is module id field ≠ [] →
      ∃ n, r.HoldsInteger field n ∧
        n.natAbs + ((amounts is module id field).map Int.natAbs).sum ≤ maxExactInteger

theorem Fits.of_append {s : σ} {is js : List Increment} (h : Fits s (is ++ js)) : Fits s is := by
  intro module id r field hget hsome
  have hne : amounts (is ++ js) module id field ≠ [] := by
    rw [amounts_append]
    exact List.append_ne_nil_of_left_ne_nil hsome _
  obtain ⟨n, hn, hfits⟩ := h module id r field hget hne
  rw [amounts_append, List.map_append, List.sum_append_nat] at hfits
  exact ⟨n, hn, by omega⟩

theorem Fits.perm {s : σ} {is js : List Increment} (h : Fits s is) (hperm : is.Perm js) :
    Fits s js := by
  intro module id r field hget hsome
  have hfield := amounts_perm hperm module id field
  have hne : amounts is module id field ≠ [] := fun hnil => by
    rw [hnil] at hfield
    exact hsome hfield.nil_eq.symm
  rw [← (hfield.map Int.natAbs).sum_nat]
  exact h module id r field hget hne

end

/-- How the call ends where there is a record, and where there is none. -/
inductive Answered : Except StoreError (Option Record) → Except StoreError StoreAnswer → Prop where
  | written {r : Record} {w : FieldWrite} (place : w.record.place = r.place) :
      Answered (.ok (some r)) (.ok (.written w))
  | missing (e : StoreError) : Answered (.ok none) (.error e)

end Increment

/-! ## What is read before and after -/

/-- What is read at a place before and after integers were added to the fields of its record. -/
inductive IncreasedAt (amounts : String → List Int) :
    Except StoreError (Option Record) → Except StoreError (Option Record) → Prop where
  | absent : IncreasedAt amounts (.ok none) (.ok none)
  | present {r r' : Record} (increased : r.Increased amounts r') :
      IncreasedAt amounts (.ok (some r)) (.ok (some r'))

theorem IncreasedAt.exists_of_some {amounts : String → List Int} {r : Record}
    {after : Except StoreError (Option Record)} (h : IncreasedAt amounts (.ok (some r)) after) :
    ∃ r', after = .ok (some r') ∧ r.Increased amounts r' := by
  cases h with
  | present hr => exact ⟨_, rfl, hr⟩

section

variable {σ : Type} [RecordStore σ] {start s : σ}

/-- The records of a store are what increments have made of those at the start. -/
def Increment.Done (start : σ) (is : List Increment) (s : σ) : Prop :=
  ∀ module id, IncreasedAt (Increment.amounts is module id) (RecordStore.get start module id)
    (RecordStore.get s module id)

namespace Increment

/-- What an increment does not add to is as it was. -/
theorem Done.of_frame {is : List Increment} {i : Increment} {s' : σ} (h : Done start is s)
    (hhere : IncreasedAt (amounts (is ++ [i]) i.module i.id) (RecordStore.get start i.module i.id)
      (RecordStore.get s' i.module i.id))
    (hframe : ∀ module id, (module, id) ≠ (i.module, i.id) →
      RecordStore.get s' module id = RecordStore.get s module id) : Done start (is ++ [i]) s' := by
  intro module id
  by_cases hplace : (module, id) = (i.module, i.id)
  · cases hplace
    exact hhere
  · rw [amounts_concat_of_ne is hplace, hframe module id hplace]
    exact h module id

/-- Increments in two orders lead to the same data. -/
theorem Done.data_eq {is js : List Increment} {s s' : σ} (h : Done start is s)
    (h' : Done start js s') (hperm : is.Perm js) (hfits : Fits start is) (module : ModuleId)
    (id : RecordId) : (RecordStore.get s module id).map (Option.map Record.data) =
      (RecordStore.get s' module id).map (Option.map Record.data) := by
  have hhere := h module id
  have hthere := h' module id
  generalize hstart : RecordStore.get start module id = before at hhere hthere
  generalize RecordStore.get s module id = after at hhere ⊢
  generalize RecordStore.get s' module id = after' at hthere ⊢
  cases hhere with
  | absent =>
    cases hthere with
    | absent => rfl
  | present hr =>
    cases hthere with
    | present hr' =>
      have hdata := hr.data_eq hr' (amounts_perm hperm module id) fun field hsome => by
        obtain ⟨n, hn, _⟩ := hfits module id _ field hstart hsome
        exact ⟨n, hn⟩
      exact congrArg (fun v => Except.ok (some v)) hdata

end Increment

variable [CountingStore σ] {m : MemoryStore}

/-- A field that comes to hold an integer is written where the record stands. -/
theorem CountingStore.mutateField_add (h : CountingStore.Shows s m) {module : ModuleId}
    {id : RecordId} {r : Record} (hget : RecordStore.get s module id = .ok (some r))
    {field : String} {x : Binary64} {now n : Int} {w : FieldWrite}
    (hw : r.mutate field (.add x) now = .ok w) (hcurrent : w.current = .ofInt n)
    (hn : n.natAbs ≤ maxExactInteger) :
    ∃ s' m', RecordStore.mutateField s module id field (.add x) now = .ok (w, s') ∧
      CountingStore.Shows s' m' ∧ RecordStore.get s' module id = .ok (some w.record) ∧
      ∀ other otherId, (other, otherId) ≠ (module, id) →
        RecordStore.get s' other otherId = RecordStore.get s other otherId := by
  rw [CountingStore.get module id h] at hget
  have hfind : m.find? module id = some r := Except.ok.inj hget
  have hm' := MemoryStore.mutateField_of_find? hfind hw
  obtain ⟨s', hs', hshows⟩ := CountingStore.write h hm' hcurrent hn
  refine ⟨s', _, hs', hshows, ?_, fun other otherId hne => ?_⟩
  · rw [CountingStore.get module id hshows]
    exact congrArg Except.ok (MemoryStore.get_mutateField hm')
  · rw [CountingStore.get other otherId hshows, CountingStore.get other otherId h]
    exact LawfulRecordStore.get_mutateField_of_ne hm' hne

namespace Increment

theorem done_nil (h : CountingStore.Shows s m) : Done s [] s := by
  intro module id
  have hfind : RecordStore.get s module id = .ok (m.find? module id) :=
    CountingStore.get module id h
  rw [hfind]
  cases hr : m.find? module id with
  | none => exact .absent
  | some r =>
    exact .present (.refl ((CountingStore.wellKept h).normal r (MemoryStore.mem_of_find? hr)))

variable [LawfulRecordStore σ]

/-- One increment more is answered as by the record of the start, and is done. -/
theorem Done.call {is : List Increment} {i : Increment} (h : Done start is s)
    (hshows : CountingStore.Shows s m) (hfits : Fits start (is ++ [i])) :
    Answered (RecordStore.get start i.module i.id) (i.call.run s).1 ∧
      (∃ m', CountingStore.Shows (i.call.run s).2 m') ∧
      Done start (is ++ [i]) (i.call.run s).2 := by
  have hhere := h i.module i.id
  unfold Increment.call StoreCall.run
  dsimp only
  generalize hstart : RecordStore.get start i.module i.id = before at hhere
  generalize hget : RecordStore.get s i.module i.id = now at hhere
  cases hhere with
  | absent =>
    -- A call that goes through would have read a record.
    cases hanswer : RecordStore.mutateField s i.module i.id i.field (.add i.number) i.now with
    | ok answer =>
      obtain ⟨r, hr, _⟩ := LawfulRecordStore.mutate_of_mutateField hanswer
      rw [hget] at hr
      cases hr
    | error e =>
      refine ⟨.missing e, ⟨m, hshows⟩, h.of_frame ?_ fun _ _ _ => rfl⟩
      show IncreasedAt _ _ (RecordStore.get s i.module i.id)
      rw [hstart, hget]
      exact .absent
  | @present r r' increased =>
    have hamounts := congrFun (amounts_concat_self is i) i.field
    rw [Function.update_self] at hamounts
    have hsome : amounts (is ++ [i]) i.module i.id i.field ≠ [] := by
      rw [hamounts]
      exact List.append_ne_nil_of_right_ne_nil _ (List.cons_ne_nil i.amount [])
    obtain ⟨n, hn, hle⟩ := hfits i.module i.id r i.field hstart hsome
    rw [hamounts] at hle
    obtain ⟨w, hw, hcurrent, hnew⟩ := increased.add hn i.counts hle i.now
    have hsum := natAbs_sum_le (amounts is i.module i.id i.field ++ [i.amount])
    obtain ⟨s', m', hs', hshows', hself, hframe⟩ :=
      CountingStore.mutateField_add hshows hget hw hcurrent (by omega)
    rw [hs']
    have hplace : w.record.place = r.place := hnew.place
    refine ⟨.written hplace, ⟨m', hshows'⟩, h.of_frame ?_ hframe⟩
    show IncreasedAt _ _ (RecordStore.get s' i.module i.id)
    rw [hstart, hself, amounts_concat_self]
    exact .present hnew

/-- Increments made one after another are all done. -/
theorem Done.runAll {is rest : List Increment} (h : Done start is s)
    (hshows : CountingStore.Shows s m) (hfits : Fits start (is ++ rest)) :
    Forall₂ (fun i answer => Answered (RecordStore.get start i.module i.id) answer) rest
        (StoreCall.runAll (rest.map Increment.call) s).1 ∧
      Done start (is ++ rest) (StoreCall.runAll (rest.map Increment.call) s).2 := by
  induction rest generalizing is s m with
  | nil =>
    rw [List.append_nil]
    exact ⟨.nil, h⟩
  | cons i rest ih =>
    rw [List.append_cons] at hfits ⊢
    obtain ⟨hanswer, ⟨m', hshows'⟩, hdone⟩ := h.call hshows hfits.of_append
    obtain ⟨hanswers, hall⟩ := ih hdone hshows' hfits
    exact ⟨.cons hanswer hanswers, hall⟩

end Increment

variable [LawfulRecordStore σ]

/-- Increments of integers converge.  Those of records that are there succeed, each field ends with
the integer that it held and the sum of what was added to it, all else stays, and every order of the
increments leads to the same data.  The store has to show the records of a memory store, which for a
store of rows means that their data survive. -/
theorem increments_converge (hshows : CountingStore.Shows s m) {is : List Increment}
    (hfits : Increment.Fits s is) :
    Forall₂ (fun i answer => Increment.Answered (RecordStore.get s i.module i.id) answer) is
        (StoreCall.runAll (is.map Increment.call) s).1 ∧
      Increment.Done s is (StoreCall.runAll (is.map Increment.call) s).2 ∧
      ∀ js : List Increment, is.Perm js → ∀ module id,
        (RecordStore.get (StoreCall.runAll (js.map Increment.call) s).2 module id).map
            (Option.map Record.data) =
          (RecordStore.get (StoreCall.runAll (is.map Increment.call) s).2 module id).map
            (Option.map Record.data) := by
  have hnil := Increment.done_nil hshows
  obtain ⟨hanswers, hdone⟩ := hnil.runAll hshows (show Increment.Fits s ([] ++ is) from hfits)
  refine ⟨hanswers, hdone, fun js hperm => ?_⟩
  have hfits' := hfits.perm hperm
  obtain ⟨_, hdone'⟩ := hnil.runAll hshows (show Increment.Fits s ([] ++ js) from hfits')
  exact hdone'.data_eq hdone hperm.symm hfits'

end

namespace Sample

/-- A pen of which there is one, in a row. -/
def onePen : Record := pen (.object [("count", .ofInt 1)])

def penRows : TableStore := ⟨[Row.ofRecord onePen]⟩

theorem shows_penRows : CountingStore.Shows penRows ⟨[onePen]⟩ := by
  have hone : Int.natAbs 1 ≤ maxExactInteger := by decide
  have hempty : (Json.object []).Survives :=
    ⟨show 1 ≤ 127 by omega, List.forall_mem_nil _⟩
  exact ⟨rfl, ⟨List.nodup_singleton _, List.forall_mem_singleton.mpr rfl⟩,
    List.forall_mem_singleton.mpr (hempty.set_ofInt "count" hone)⟩

/-- Pens are counted. -/
def counted (id : RecordId) (k : Int) (hk : k.natAbs ≤ maxExactInteger) : Increment :=
  { module := onePen.module, id, field := "count", amount := k, number := Binary64.ofInt k
    counts := Binary64.counts_ofInt hk, now := 5 }

/-- The second of the pens that are counted is not there. -/
def countings : List Increment :=
  [counted onePen.id 2 (by decide), counted ⟨"p2", by decide +kernel⟩ 7 (by decide),
    counted onePen.id (-4) (by decide)]

theorem fits_countings : Increment.Fits penRows countings := by
  intro module id r field hget hsome
  rw [CountingStore.get module id shows_penRows] at hget
  have hfind : MemoryStore.find? ⟨[onePen]⟩ module id = some r := Except.ok.inj hget
  obtain rfl := List.mem_singleton.mp (MemoryStore.mem_of_find? hfind)
  obtain ⟨rfl, rfl⟩ := MemoryStore.key_of_find? hfind
  by_cases hfield : "count" = field
  · subst hfield
    exact ⟨1, Record.holdsInteger_ofInt rfl rfl (by decide), by decide +kernel⟩
  · refine absurd ?_ hsome
    unfold Increment.amounts
    rw [List.map_eq_nil_iff, List.filter_eq_nil_iff]
    intro i hi
    have hcount : i.field = "count" := by
      simp only [countings, List.mem_cons, List.not_mem_nil, or_false] at hi
      rcases hi with rfl | rfl | rfl <;> rfl
    simp [hcount, hfield]

end Sample

/-- One and two less four is minus one, and in the reverse order as well. -/
theorem increments_converge_on_sample :
    ∃ r r' : Record, RecordStore.get (StoreCall.runAll (Sample.countings.map Increment.call)
        Sample.penRows).2 Sample.onePen.module Sample.onePen.id = .ok (some r) ∧
      RecordStore.get (StoreCall.runAll (Sample.countings.reverse.map Increment.call)
        Sample.penRows).2 Sample.onePen.module Sample.onePen.id = .ok (some r') ∧
      r.get? "count" = some (.ofInt (-1)) ∧ r'.data = r.data := by
  obtain ⟨_, hdone, hsame⟩ := increments_converge Sample.shows_penRows Sample.fits_countings
  have hstart : RecordStore.get Sample.penRows Sample.onePen.module Sample.onePen.id =
      .ok (some Sample.onePen) := CountingStore.get _ _ Sample.shows_penRows
  have hamounts : Increment.amounts Sample.countings Sample.onePen.module Sample.onePen.id
      "count" = [2, -4] := by decide +kernel
  have hone : Sample.onePen.HoldsInteger "count" 1 := Record.holdsInteger_ofInt rfl rfl (by decide)
  have hhere := hdone Sample.onePen.module Sample.onePen.id
  have hthere := hsame _ Sample.countings.reverse_perm.symm Sample.onePen.module Sample.onePen.id
  rw [hstart] at hhere
  obtain ⟨r, hget, hr⟩ := hhere.exists_of_some
  rw [hget] at hthere
  obtain ⟨found, hget', hfound⟩ := map_ok hthere
  obtain ⟨r', rfl, hdata⟩ := Option.map_eq_some_iff.mp hfound
  have hsum := hr.sum (by rw [hamounts]; exact List.cons_ne_nil 2 [-4]) hone
  rw [hamounts] at hsum
  exact ⟨r, r', hget, hget', hsum, hdata⟩

end RecordRules
