/-
Integers in the fields of records.

A record holds an integer in a field in many ways: as a number of either sort, spelled by a text, or
as zero where nothing is.  Adding an integer leaves the sum in the field, written in one way.  Both
stores keep such a sum, the store of rows if the data in it survive.
-/
import RecordRules.Proofs.Binary64.Integers
import RecordRules.Proofs.Store.Interchange

namespace RecordRules

/-! ## Amounts -/

theorem natAbs_sum_le (amounts : List Int) :
    amounts.sum.natAbs ≤ (amounts.map Int.natAbs).sum := by
  induction amounts with
  | nil => exact Nat.le_refl 0
  | cons a rest ih =>
    rw [List.sum_cons, List.map_cons, List.sum_cons]
    omega

/-! ## Integers as JSON -/

namespace Json

theorem eq_ofInt_of_beq {v : Json} {n : Int} (hn : n.natAbs ≤ maxExactInteger)
    (h : (v == Json.ofInt n) = true) : v = Json.ofInt n := by
  obtain ⟨integral, hof⟩ := ofInt_eq hn
  rw [hof] at h ⊢
  cases v with
  | number m =>
    cases m with
    | integer k _ =>
      obtain rfl : k = n := eq_of_beq (show (k == n) = true from h)
      rfl
    | float x => cases h
  | _ => cases h

/-! ## Putting in what is there -/

theorem insertMember_of_lookup {key : String} {value : Json} {members : List (String × Json)}
    (hordered : Ordered members) (h : members.lookup key = some value) :
    insertMember key value members = members := by
  induction members with
  | nil => cases h
  | cons first rest ih =>
    obtain ⟨k, v⟩ := first
    obtain ⟨hfirst, hrest⟩ := List.pairwise_cons.mp hordered
    rw [List.lookup_cons] at h
    by_cases heq : key = k
    · subst heq
      rw [beq_self_eq_true] at h
      cases h
      rw [insertMember, if_neg (String.lt_irrefl key), if_pos rfl]
    · rw [beq_eq_false_iff_ne.mpr heq] at h
      have hlt : k < key := by
        obtain ⟨before, after, rfl, _⟩ := List.lookup_eq_some_iff.mp h
        exact hfirst _ (List.mem_append_right before List.mem_cons_self)
      rw [insertMember, if_neg (String.lt_asymm hlt), if_neg heq, ih hrest h]

theorem IsNormal.set_of_get? {v value : Json} (hnormal : v.IsNormal) {key : String}
    (h : v.get? key = some value) : v.set key value = v := by
  cases v with
  | object members =>
    exact congrArg object (insertMember_of_lookup (isNormal_object_iff.mp hnormal).1 h)
  | _ => rfl

/-! ## Data that survive a write -/

theorem nestingMembers_le {members : List (String × Json)} {k : Nat} :
    nestingMembers members ≤ k ↔ ∀ m ∈ members, m.2.nesting ≤ k := by
  induction members with
  | nil => exact ⟨fun _ => List.forall_mem_nil _, fun _ => Nat.zero_le _⟩
  | cons first rest ih => rw [nestingMembers, Nat.max_le, ih, List.forall_mem_cons]

theorem mem_numbersMembers {members : List (String × Json)} {n : Number} :
    n ∈ numbersMembers members ↔ ∃ m ∈ members, n ∈ m.2.numbers := by
  induction members with
  | nil => simp [numbersMembers]
  | cons first rest ih => rw [numbersMembers, List.mem_append, ih, List.exists_mem_cons_iff]

theorem Survives.set_ofInt {v : Json} (h : v.Survives) (key : String) {n : Int}
    (hn : n.natAbs ≤ maxExactInteger) : (v.set key (.ofInt n)).Survives := by
  obtain ⟨integral, hof⟩ := ofInt_eq hn
  rw [hof]
  cases v with
  | object members =>
    obtain ⟨hnesting, hnumbers⟩ := h
    refine ⟨?_, fun k hk => ?_⟩
    · refine Nat.le_trans (Nat.succ_le_succ (nestingMembers_le.mpr fun m hm => ?_)) hnesting
      rcases eq_or_mem_of_mem_insertMember hm with rfl | hm
      · exact Nat.zero_le _
      · exact nestingMembers_le.mp (Nat.le_refl _) m hm
    · obtain ⟨m, hm, hk⟩ := mem_numbersMembers.mp hk
      rcases eq_or_mem_of_mem_insertMember hm with rfl | hm
      · rw [List.mem_singleton.mp hk]
        exact Number.readsBack_integer integral
      · exact hnumbers k (mem_numbersMembers.mpr ⟨m, hm, hk⟩)
  | _ => exact h

end Json

/-! ## Adding an integer to a field -/

theorem Mutation.currentNumber_number {m : Json.Number} {x : Binary64.Finite}
    (h : m.toBinary64 = .finite x) : currentNumber (some (.number m)) = .ok x := by
  simp only [currentNumber, Json.Number.number?_eq h]

namespace Record

/-- The field has the value of an integer, where null and nothing count as zero. -/
def HoldsInteger (r : Record) (name : String) (n : Int) : Prop :=
  r.data.isObject = true ∧ ∃ x, Mutation.currentNumber (r.get? name) = .ok x ∧ x.Counts n

theorem HoldsInteger.unique {r : Record} {name : String} {m n : Int} (h : r.HoldsInteger name m)
    (h' : r.HoldsInteger name n) : m = n := by
  obtain ⟨_, x, hx, y, rfl, hm⟩ := h
  obtain ⟨_, x', hx', y', rfl, hn⟩ := h'
  rw [hx] at hx'
  cases hx'
  exact hm.unique hn

theorem holdsInteger_ofInt {r : Record} {name : String} {n : Int} (hobject : r.data.isObject = true)
    (h : r.get? name = some (.ofInt n)) (hn : n.natAbs ≤ maxExactInteger) :
    r.HoldsInteger name n := by
  obtain ⟨x, hx, hcounts⟩ := Binary64.counts_ofInt hn
  refine ⟨hobject, x, ?_, x, rfl, hcounts⟩
  obtain ⟨integral, hof⟩ := Json.ofInt_eq hn
  have hinteger : (Json.Number.integer n integral).toBinary64 = Binary64.ofInt n := rfl
  rw [h, hof]
  exact Mutation.currentNumber_number (hinteger.trans hx)

/-- Adding an integer leaves the sum in the field. -/
theorem mutate_add {r : Record} {name : String} {n k : Int} {x : Binary64}
    (hnormal : r.data.IsNormal) (h : r.HoldsInteger name n) (hx : x.Counts k)
    (hsum : (n + k).natAbs ≤ maxExactInteger) (now : Int) :
    ∃ w, r.mutate name (.add x) now = .ok w ∧ w.current = .ofInt (n + k) ∧
      w.record.data = r.data.set name (.ofInt (n + k)) ∧ (w.changed = false → w.record = r) := by
  obtain ⟨hobject, y, hy, hcounts⟩ := h
  have happly : Mutation.apply (.add x) (r.get? name) = .ok (.ofInt (n + k)) := by
    unfold Mutation.apply
    rw [hy]
    exact (hcounts.add hx hsum).ofBinary64 hsum
  unfold mutate
  rw [hobject, Bool.not_true, if_neg Bool.false_ne_true]
  dsimp only
  rw [happly]
  dsimp only
  split
  · next hsame =>
    obtain ⟨v, hv, hsame⟩ := (Option.any_eq_true ..).mp hsame
    rw [Json.eq_ofInt_of_beq hsum hsame] at hv
    exact ⟨_, rfl, rfl, (hnormal.set_of_get? hv).symm, fun _ => rfl⟩
  · exact ⟨_, rfl, rfl, rfl, nofun⟩

end Record

/-! ## Stores that keep integers -/

/-- A store that shows the records of a memory store, and goes on to do so when an integer is
written. -/
class CountingStore (σ : Type) [RecordStore σ] where
  Shows : σ → MemoryStore → Prop
  wellKept {s : σ} {m : MemoryStore} : Shows s m → m.WellKept
  get {s : σ} {m : MemoryStore} (module : ModuleId) (id : RecordId) : Shows s m →
    RecordStore.get s module id = RecordStore.get m module id
  list {s : σ} {m : MemoryStore} (module : ModuleId) : Shows s m →
    RecordStore.list s module = RecordStore.list m module
  write {s : σ} {m m' : MemoryStore} {module : ModuleId} {id : RecordId} {field : String}
      {x : Binary64} {now : Int} {w : FieldWrite} {n : Int} : Shows s m →
    RecordStore.mutateField m module id field (.add x) now = .ok (w, m') → w.current = .ofInt n →
      n.natAbs ≤ maxExactInteger →
        ∃ s', RecordStore.mutateField s module id field (.add x) now = .ok (w, s') ∧ Shows s' m'

theorem MemoryStore.WellKept.mutateField {m m' : MemoryStore} (h : m.WellKept) {module : ModuleId}
    {id : RecordId} {field : String} {x : Binary64} {now : Int} {w : FieldWrite}
    (hw : RecordStore.mutateField m module id field (.add x) now = .ok (w, m')) : m'.WellKept := by
  have hrun : (StoreCall.settle m StoreAnswer.written
      (RecordStore.mutateField m module id field (.add x) now)).2.WellKept :=
    StoreCall.run_wellKept (c := .mutateField module id field (.add x) now) h trivial
  rw [hw] at hrun
  exact hrun

/-- Each store of this kind shows itself. -/
instance : CountingStore MemoryStore where
  Shows s m := s = m ∧ m.WellKept
  wellKept h := h.2
  get _ _ h := by rw [h.1]
  list _ h := by rw [h.1]
  write {s m m' module id field x now w n} h hw _ _ := by
    obtain ⟨rfl, hkept⟩ := h
    exact ⟨m', hw, rfl, hkept.mutateField hw⟩

/-- Rows show the records whose texts they hold, if the data survive. -/
instance : CountingStore TableStore where
  Shows t m := t.Mirrors m ∧ m.WellKept ∧ ∀ r ∈ m.records, r.data.Survives
  wellKept h := h.2.1
  get module id h := h.1.get (StoreCall.reads_of_survives h.2.1 h.2.2) module id
  list module h := h.1.list (StoreCall.reads_of_survives h.2.1 h.2.2) module
  write {t m m' module id field x now w n} h hw hcurrent hn := by
    obtain ⟨hmirrors, hkept, hsurvive⟩ := h
    have hread := StoreCall.reads_of_survives hkept hsurvive
    have hsame := hmirrors.mutateField_change hkept.keyed hread module id field (.add x) now
    rw [hw] at hsame
    cases ht : RecordStore.mutateField t module id field (.add x) now with
    | error e =>
      rw [ht] at hsame
      cases hsame
    | ok answer =>
      obtain ⟨w', t'⟩ := answer
      rw [ht] at hsame
      cases hsame with
      | done a hmirrors' =>
        refine ⟨t', rfl, hmirrors', hkept.mutateField hw, fun r hr => ?_⟩
        obtain ⟨r₀, hfind, hmutate, rfl⟩ := MemoryStore.mutateField_ok hw
        split at hr
        · next hchanged =>
          obtain ⟨r', hr', rfl⟩ := List.mem_map.mp hr
          split
          · rcases Record.mutate_cases hmutate with ⟨hno, _⟩ | ⟨_, hrecord⟩
            · rw [hchanged] at hno
              cases hno
            · rw [hrecord, Record.withData, hcurrent]
              exact (hsurvive r₀ (MemoryStore.mem_of_find? hfind)).set_ofInt field hn
          · exact hsurvive r' hr'
        · exact hsurvive r hr

end RecordRules
