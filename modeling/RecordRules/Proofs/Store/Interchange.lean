/-
The two stores answer alike.

A store of rows that holds the texts of the records of another store answers every call as that one
does, refusals included, and goes on holding the texts of its records.  The only thing that can
come between them is a record that does not read back from its text, so a whole history of calls is
answered alike as long as the data that are stored survive.
-/
import RecordRules.Proofs.Json.RoundTrip
import RecordRules.Proofs.Store.Mirror

namespace RecordRules

/-! ## Changes of data in normal form -/

theorem Json.isNormal_ofInt (n : Int) : (Json.ofInt n).IsNormal := by
  unfold Json.ofInt
  cases Json.Number.ofInt? n with
  | some m => exact Json.isNormal_number m
  | none =>
    cases Binary64.ofInt n with
    | finite x => exact Json.isNormal_number _
    | infinite negative => rfl
    | notANumber => rfl

theorem Json.isNormal_ofBinary64 {x : Binary64} {v : Json} (h : Json.ofBinary64 x = .ok v) :
    v.IsNormal := by
  cases x with
  | finite x =>
    cases h
    unfold Json.ofFinite
    split
    · exact Json.isNormal_ofInt _
    · exact Json.isNormal_number _
  | infinite negative => cases h
  | notANumber => cases h

/-- The value that is set, if any, is in normal form. -/
def Mutation.IsNormal : Mutation → Prop
  | set value => value.IsNormal
  | _ => True

/-- Arithmetic gives numbers, so only a value that is set could be out of normal form. -/
theorem Mutation.isNormal_apply {change : Mutation} {current : Option Json} {v : Json}
    (hchange : change.IsNormal) (h : change.apply current = .ok v) : v.IsNormal := by
  have harith : ∀ f : Binary64 → Binary64,
      (do Json.ofBinary64 (f (← currentNumber current))) = Except.ok v → v.IsNormal := by
    intro f hf
    cases hx : currentNumber current with
    | error e =>
      rw [hx] at hf
      cases hf
    | ok x =>
      rw [hx] at hf
      exact Json.isNormal_ofBinary64 hf
  cases change with
  | set value =>
    cases h
    exact hchange
  | add amount => exact harith (· + amount) h
  | multiply factor => exact harith (· * factor) h
  | divide divisor =>
    change (if divisor.isZero then .error .divisionByZero
      else do Json.ofBinary64 ((← currentNumber current) / divisor)) = _ at h
    split at h
    · cases h
    · exact harith (· / divisor) h

theorem Record.isNormal_mutate {r : Record} {field : String} {change : Mutation} {now : Int}
    {w : FieldWrite} (hr : r.data.IsNormal) (hchange : change.IsNormal)
    (h : r.mutate field change now = .ok w) : w.record.data.IsNormal := by
  obtain ⟨_, happly, ⟨_, hrecord, _⟩ | ⟨_, hrecord⟩⟩ := mutate_ok h
  · rw [hrecord]
    exact hr
  · rw [hrecord]
    exact hr.set (Mutation.isNormal_apply hchange happly) field

/-! ## Calls -/

/-- A call of an operation of a record store, with the time that the clock shows. -/
inductive StoreCall where
  | get (module : ModuleId) (id : RecordId)
  | insert (r : Record)
  | replaceData (module : ModuleId) (id : RecordId) (data : Json) (now : Int)
  | mutateField (module : ModuleId) (id : RecordId) (field : String) (m : Mutation) (now : Int)
  | delete (module : ModuleId) (id : RecordId)
  | list (module : ModuleId)
  | count (module : ModuleId)
  | findByField (module : ModuleId) (field : String) (value : Json)
  | purge (module : ModuleId)

/-- What an operation gives back. -/
inductive StoreAnswer where
  | done
  | found (r : Option Record)
  | stored (r : Record)
  | written (w : FieldWrite)
  | records (rs : List Record)
  | number (n : Nat)

namespace StoreCall

section

variable {σ : Type} [RecordStore σ]

/-- The answer and the store that an operation leaves, which is the old one if it refuses. -/
def settle {α : Type} (s : σ) (answer : α → StoreAnswer) :
    Except StoreError (α × σ) → Except StoreError StoreAnswer × σ
  | .ok (a, s') => (.ok (answer a), s')
  | .error e => (.error e, s)

def run (c : StoreCall) (s : σ) : Except StoreError StoreAnswer × σ :=
  match c with
  | get module id => settle s .found ((RecordStore.get s module id).map (·, s))
  | insert r => settle s (fun () => .done) ((RecordStore.insert s r).map ((), ·))
  | replaceData module id data now =>
    settle s .stored (RecordStore.replaceData s module id data now)
  | mutateField module id field m now =>
    settle s .written (RecordStore.mutateField s module id field m now)
  | delete module id => settle s .found (RecordStore.delete s module id)
  | list module => settle s .records ((RecordStore.list s module).map (·, s))
  | count module => (.ok (.number (RecordStore.count s module)), s)
  | findByField module field value =>
    settle s .records ((RecordStore.findByField s module field value).map (·, s))
  | purge module => settle s .number (.ok (RecordStore.purge s module))

/-- The answers to calls made one after another and the store that they leave. -/
def runAll : List StoreCall → σ → List (Except StoreError StoreAnswer) × σ
  | [], s => ([], s)
  | c :: rest, s =>
    ((c.run s).1 :: (runAll rest (c.run s).2).1, (runAll rest (c.run s).2).2)

end

end StoreCall

/-! ## Stores that only operations have changed -/

namespace MemoryStore

/-- What holds of a store that only calls have changed: no place holds two records, and all data
are in normal form. -/
structure WellKept (m : MemoryStore) : Prop where
  keyed : m.Keyed
  normal : ∀ r ∈ m.records, r.data.IsNormal

/-- Every record of the store is read again from its row. -/
def Reads (m : MemoryStore) : Prop := ∀ r ∈ m.records, (Row.ofRecord r).toRecord = .ok r

theorem wellKept_empty : empty.WellKept := ⟨keyed_empty, nofun⟩

namespace WellKept

variable {m : MemoryStore}

theorem insert (h : m.WellKept) {r : Record} (hnew : m.find? r.module r.id = none)
    (hr : r.data.IsNormal) : WellKept ⟨insertBefore Record.before r m.records⟩ where
  keyed := h.keyed.insert hnew
  normal r' hr' := by
    rcases mem_insertBefore.mp hr' with rfl | hr'
    · exact hr
    · exact h.normal r' hr'

theorem replace (h : m.WellKept) {new : Record} (hnew : new.data.IsNormal) :
    (m.replace new).WellKept where
  keyed := h.keyed.replace new
  normal r hr := by
    obtain ⟨r', hr', rfl⟩ := List.mem_map.mp hr
    split
    · exact hnew
    · exact h.normal r' hr'

theorem filter (h : m.WellKept) (keep : Record → Bool) : WellKept ⟨m.records.filter keep⟩ where
  keyed := h.keyed.filter keep
  normal r hr := h.normal r (List.mem_filter.mp hr).1

end WellKept
end MemoryStore

/-! ## Answers of stores that hold the same records -/

namespace TableStore.Mirrors

variable {t : TableStore} {m : MemoryStore}

theorem get (h : t.Mirrors m) (hread : m.Reads) (module : ModuleId) (id : RecordId) :
    RecordStore.get t module id = RecordStore.get m module id := by
  rw [h.get_map (f := fun r => r) hread, Option.map_id']
  rfl

theorem list (h : t.Mirrors m) (hread : m.Reads) (module : ModuleId) :
    RecordStore.list t module = RecordStore.list m module := by
  rw [h.list_map (f := fun r => r) hread, List.map_id']
  rfl

theorem count (h : t.Mirrors m) (module : ModuleId) :
    RecordStore.count t module = RecordStore.count m module := by
  show (t.rowsOf module).length = (m.list module).length
  rw [h.rowsOf, List.length_map]

theorem load (h : t.Mirrors m) (hread : m.Reads) (module : ModuleId) (id : RecordId) :
    t.load module id = match m.find? module id with
      | none => .error (.notFound id)
      | some r => .ok r := by
  have hget : t.get module id = .ok (m.find? module id) := h.get hread module id
  unfold TableStore.load
  rw [hget]
  cases m.find? module id <;> rfl

end TableStore.Mirrors

/-- Results of a change to the two stores: both refuse for the same reason, or both give the same
and go on holding the same records. -/
inductive SameChange {α : Type} :
    Except StoreError (α × TableStore) → Except StoreError (α × MemoryStore) → Prop where
  | refused (e : StoreError) : SameChange (.error e) (.error e)
  | done (a : α) {t : TableStore} {m : MemoryStore} (h : t.Mirrors m) :
    SameChange (.ok (a, t)) (.ok (a, m))

namespace TableStore.Mirrors

variable {t : TableStore} {m : MemoryStore}

theorem insertRow? (h : t.Mirrors m) (r : Record) :
    t.insertRow? (Row.ofRecord r) =
      if (m.find? r.module r.id).isSome = true then none
      else some ⟨insertBefore Row.before (Row.ofRecord r) t.rows⟩ := by
  have htaken : (t.rows.any fun row => row.module == (Row.ofRecord r).module &&
      row.id == (Row.ofRecord r).id) = (m.find? r.module r.id).isSome := by
    rw [← Option.isSome_map (f := Row.ofRecord), ← h.row?, Bool.eq_iff_iff, List.any_eq_true]
    exact List.find?_isSome.symm
  unfold TableStore.insertRow?
  rw [htaken]

theorem of_query (h : t.Mirrors m) {α : Type} {x y : Except StoreError α} (hxy : x = y) :
    SameChange (x.map (·, t)) (y.map (·, m)) := by
  subst hxy
  cases x with
  | error e => exact .refused e
  | ok a => exact .done a h

theorem insert_change (h : t.Mirrors m) (r : Record) :
    SameChange ((RecordStore.insert t r).map ((), ·)) ((RecordStore.insert m r).map ((), ·)) := by
  show SameChange ((t.insert r).map _) ((m.insert r).map _)
  unfold TableStore.insert MemoryStore.insert
  rw [h.insertRow?]
  by_cases hobject : (!r.data.isObject) = true
  · rw [if_pos hobject, if_pos hobject]
    exact .refused _
  · rw [if_neg hobject, if_neg hobject]
    by_cases hfound : (m.find? r.module r.id).isSome = true
    · rw [if_pos hfound, if_pos hfound]
      exact .refused _
    · rw [if_neg hfound, if_neg hfound]
      exact .done () (h.insert r)

theorem replaceData_change (h : t.Mirrors m) (hm : m.Keyed) (hread : m.Reads) (module : ModuleId)
    (id : RecordId) (data : Json) (now : Int) :
    SameChange (RecordStore.replaceData t module id data now)
      (RecordStore.replaceData m module id data now) := by
  show SameChange (t.replaceData module id data now) (m.replaceData module id data now)
  unfold TableStore.replaceData MemoryStore.replaceData
  rw [h.load hread]
  by_cases hobject : (!data.isObject) = true
  · rw [if_pos hobject, if_pos hobject]
    exact .refused _
  · rw [if_neg hobject, if_neg hobject]
    cases hfound : m.find? module id with
    | none => exact .refused _
    | some r =>
      obtain ⟨rfl, rfl⟩ := MemoryStore.key_of_find? hfound
      exact .done _ (h.replace hm hfound rfl)

theorem mutateField_change (h : t.Mirrors m) (hm : m.Keyed) (hread : m.Reads) (module : ModuleId)
    (id : RecordId) (field : String) (change : Mutation) (now : Int) :
    SameChange (RecordStore.mutateField t module id field change now)
      (RecordStore.mutateField m module id field change now) := by
  show SameChange (t.mutateField module id field change now)
    (m.mutateField module id field change now)
  unfold TableStore.mutateField MemoryStore.mutateField
  rw [h.load hread]
  cases hfound : m.find? module id with
  | none => exact .refused _
  | some r =>
    obtain ⟨rfl, rfl⟩ := MemoryStore.key_of_find? hfound
    show SameChange (r.mutate field change now >>= _) _
    dsimp only
    cases hw : r.mutate field change now with
    | error e => exact .refused _
    | ok w =>
      obtain ⟨hid, hmodule, hcreated, _⟩ := Record.mutate_keeps hw
      refine .done _ ?_
      by_cases hc : w.changed = true
      · rw [if_pos hc, if_pos hc]
        exact h.replace hm (by rw [hid, hmodule]; exact hfound) hcreated
      · rw [if_neg hc, if_neg hc]
        exact h

theorem delete_change (h : t.Mirrors m) (hread : m.Reads) (module : ModuleId) (id : RecordId) :
    SameChange (RecordStore.delete t module id) (RecordStore.delete m module id) := by
  rw [MemoryStore.delete_eq]
  show SameChange (t.delete module id) _
  have hget : t.get module id = .ok (m.find? module id) := h.get hread module id
  unfold TableStore.delete
  rw [hget]
  cases hfound : m.find? module id with
  | none =>
    -- Nothing is taken out of the other store either.
    refine .done none ?_
    have hnone := LawfulRecordStore.eq_of_delete_none
      ((MemoryStore.delete_eq m module id).trans (by rw [hfound]))
    rw [hnone]
    exact h
  | some r => exact .done (some r) (h.delete module id)

theorem purge_change (h : t.Mirrors m) (module : ModuleId) :
    SameChange (.ok (RecordStore.purge t module)) (.ok (RecordStore.purge m module)) := by
  have hcount : (RecordStore.purge t module).1 = (RecordStore.purge m module).1 := h.count module
  rw [← Prod.mk.eta (p := RecordStore.purge t module), hcount]
  exact .done _ (h.purge module)

end TableStore.Mirrors

/-! ## Answers to calls -/

namespace StoreCall

theorem settle_alike {α : Type} {t : TableStore} {m : MemoryStore} (h : t.Mirrors m)
    {x : Except StoreError (α × TableStore)} {y : Except StoreError (α × MemoryStore)}
    (hxy : SameChange x y) (answer : α → StoreAnswer) :
    (settle t answer x).1 = (settle m answer y).1 ∧
      (settle t answer x).2.Mirrors (settle m answer y).2 := by
  cases hxy with
  | refused e => exact ⟨rfl, h⟩
  | done a h' => exact ⟨rfl, h'⟩

/-- A call is answered alike by stores that hold the same records. -/
theorem run_alike {t : TableStore} {m : MemoryStore} (h : t.Mirrors m) (hm : m.WellKept)
    (hread : m.Reads) (c : StoreCall) :
    (c.run t).1 = (c.run m).1 ∧ (c.run t).2.Mirrors (c.run m).2 := by
  cases c with
  | get module id => exact settle_alike h (h.of_query (h.get hread module id)) _
  | insert r => exact settle_alike h (h.insert_change r) _
  | replaceData module id data now =>
    exact settle_alike h (h.replaceData_change hm.keyed hread module id data now) _
  | mutateField module id field change now =>
    exact settle_alike h (h.mutateField_change hm.keyed hread module id field change now) _
  | delete module id => exact settle_alike h (h.delete_change hread module id) _
  | list module => exact settle_alike h (h.of_query (h.list hread module)) _
  | count module => exact ⟨by rw [run, run, h.count], h⟩
  | findByField module field value =>
    refine settle_alike h (h.of_query ?_) _
    unfold RecordStore.findByField
    rw [h.list hread]
  | purge module => exact settle_alike h (h.purge_change module) _

end StoreCall

/-! ## What calls leave -/

namespace StoreCall

/-- The data that the call brings, if any, are in normal form, as data that were read are. -/
def IsNormal : StoreCall → Prop
  | insert r => r.data.IsNormal
  | replaceData _ _ data _ => data.IsNormal
  | mutateField _ _ _ change _ => change.IsNormal
  | _ => True

theorem run_wellKept {m : MemoryStore} (hm : m.WellKept) {c : StoreCall} (hc : c.IsNormal) :
    (c.run m).2.WellKept := by
  cases c with
  | insert r =>
    show (settle m _ ((MemoryStore.insert m r).map ((), ·))).2.WellKept
    unfold MemoryStore.insert
    split
    · exact hm
    · split
      · exact hm
      · next hnew => exact hm.insert (Option.not_isSome_iff_eq_none.mp hnew) hc
  | replaceData module id data now =>
    show (settle m _ (MemoryStore.replaceData m module id data now)).2.WellKept
    unfold MemoryStore.replaceData
    split
    · exact hm
    · split
      · exact hm
      · exact hm.replace hc
  | mutateField module id field change now =>
    show (settle m _ (MemoryStore.mutateField m module id field change now)).2.WellKept
    unfold MemoryStore.mutateField
    split
    · exact hm
    · next r hr =>
      split
      · exact hm
      · next w hw =>
        show (if w.changed then m.replace w.record else m).WellKept
        split
        · exact hm.replace
            (Record.isNormal_mutate (hm.normal r (MemoryStore.mem_of_find? hr))
              (show change.IsNormal from hc) hw)
        · exact hm
  | delete module id => exact hm.filter _
  | purge module => exact hm.filter _
  | get module id => exact hm
  | list module => exact hm
  | count module => exact hm
  | findByField module field value => exact hm

/-! ## Histories of calls -/

theorem runAll_wellKept {calls : List StoreCall} (hcalls : ∀ c ∈ calls, c.IsNormal)
    {m : MemoryStore} (hm : m.WellKept) : (runAll calls m).2.WellKept := by
  induction calls generalizing m with
  | nil => exact hm
  | cons c rest ih =>
    obtain ⟨hc, hrest⟩ := List.forall_mem_cons.mp hcalls
    exact ih hrest (run_wellKept hm hc)

theorem reads_of_survives {m : MemoryStore} (hm : m.WellKept)
    (h : ∀ r ∈ m.records, r.data.Survives) : m.Reads := by
  intro r hr
  have hparse := Json.parse?_text_eq_some_iff.mpr ⟨hm.normal r hr, h r hr⟩
  exact Row.toRecord_ofRecord hparse

theorem runAll_alike {calls : List StoreCall} (hcalls : ∀ c ∈ calls, c.IsNormal) {t : TableStore}
    {m : MemoryStore} (h : t.Mirrors m) (hm : m.WellKept)
    (hsurvive : ∀ n, ∀ r ∈ (runAll (calls.take n) m).2.records, r.data.Survives) :
    (runAll calls t).1 = (runAll calls m).1 ∧ (runAll calls t).2.Mirrors (runAll calls m).2 := by
  induction calls generalizing t m with
  | nil => exact ⟨rfl, h⟩
  | cons c rest ih =>
    obtain ⟨hc, hrest⟩ := List.forall_mem_cons.mp hcalls
    obtain ⟨hanswer, hstores⟩ := run_alike h hm (reads_of_survives hm (hsurvive 0)) c
    obtain ⟨hanswers, hlast⟩ := ih hrest hstores (run_wellKept hm hc) fun n => hsurvive (n + 1)
    refine ⟨?_, hlast⟩
    show (c.run t).1 :: _ = (c.run m).1 :: _
    rw [hanswer, hanswers]

end StoreCall

/-- Calls made one after another to the two stores, which are empty at first, get the same answers,
refusals included, as long as the data that are stored survive being written.  In the end the rows
are read as the records of the other store, in their order. -/
theorem stores_interchangeable (calls : List StoreCall) (hcalls : ∀ c ∈ calls, c.IsNormal)
    (hsurvive : ∀ n, ∀ r ∈ (StoreCall.runAll (calls.take n) MemoryStore.empty).2.records,
      r.data.Survives) :
    (StoreCall.runAll calls TableStore.empty).1 = (StoreCall.runAll calls MemoryStore.empty).1 ∧
      (StoreCall.runAll calls TableStore.empty).2.rows.mapM Row.toRecord =
        .ok (StoreCall.runAll calls MemoryStore.empty).2.records := by
  have hempty : TableStore.empty.Mirrors MemoryStore.empty := rfl
  obtain ⟨hanswers, hstores⟩ :=
    StoreCall.runAll_alike hcalls hempty MemoryStore.wellKept_empty hsurvive
  refine ⟨hanswers, ?_⟩
  have hkept := StoreCall.runAll_wellKept hcalls MemoryStore.wellKept_empty
  have hread := StoreCall.reads_of_survives hkept (by simpa using hsurvive calls.length)
  rw [hstores]
  exact Row.mapM_toRecord_iff.mpr hread

namespace Sample

def pen (data : Json) : Record :=
  ⟨⟨"p1", by decide +kernel⟩, ⟨"pens", by decide +kernel⟩, data, 4, 4⟩

def named (name : String) : Json := .object [("name", .string name)]

/-- A record is put in twice and changed twice, the second time in vain. -/
def calls : List StoreCall :=
  [.insert (pen (named "pen")), .insert (pen (named "pen")),
    .mutateField (pen .null).module (pen .null).id "name" (.set (.string "ink")) 2,
    .mutateField (pen .null).module (pen .null).id "name" (.add (Binary64.ofInt 1)) 3,
    .list (pen .null).module]

end Sample

theorem stores_interchangeable_on_sample :
    (∀ c ∈ Sample.calls, c.IsNormal) ∧
      (∀ n, ∀ r ∈ (StoreCall.runAll (Sample.calls.take n) MemoryStore.empty).2.records,
        r.data.Survives) ∧
      (StoreCall.runAll Sample.calls TableStore.empty).1 =
        (StoreCall.runAll Sample.calls MemoryStore.empty).1 := by
  have hcalls : ∀ c ∈ Sample.calls, c.IsNormal :=
    List.forall_iff_forall_mem.mp ⟨rfl, rfl, rfl, trivial, trivial⟩
  have hrecords : ∀ n, (StoreCall.runAll (Sample.calls.take n) MemoryStore.empty).2.records = [] ∨
      ∃ name, (StoreCall.runAll (Sample.calls.take n) MemoryStore.empty).2.records =
        [Sample.pen (Sample.named name)]
    | 0 => Or.inl rfl
    | 1 => Or.inr ⟨"pen", rfl⟩
    | 2 => Or.inr ⟨"pen", rfl⟩
    | 3 => Or.inr ⟨"ink", rfl⟩
    | 4 => Or.inr ⟨"ink", rfl⟩
    | n + 5 => by
      rw [List.take_of_length_le (by simp [Sample.calls])]
      exact Or.inr ⟨"ink", rfl⟩
  have hsurvive : ∀ n, ∀ r ∈ (StoreCall.runAll (Sample.calls.take n) MemoryStore.empty).2.records,
      r.data.Survives := by
    intro n r hr
    rcases hrecords n with h | ⟨name, h⟩
    · rw [h] at hr
      cases hr
    · rw [h] at hr
      obtain rfl := List.mem_singleton.mp hr
      exact ⟨show 1 ≤ 127 by omega, fun n hn => (List.not_mem_nil (a := n) hn).elim⟩
  exact ⟨hcalls, hsurvive, (stores_interchangeable Sample.calls hcalls hsurvive).1⟩

end RecordRules
