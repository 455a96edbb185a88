/-
Rules keep fields to their kinds.

A rule that sets a value checks it before the write, and arithmetic is done on number fields only,
where every result is a number.  What a store reads back after a write fits the kinds that the
written data fitted, also where a number has drifted in its text.
-/
import RecordRules.Proofs.Basic
import RecordRules.Proofs.Binary64.Rounding
import RecordRules.Proofs.Evaluation.Termination
import RecordRules.Proofs.Json.RoundTrip
import RecordRules.Proofs.Store.Table

namespace RecordRules

open Relation

/-! ## Values that fit a kind -/

/-- There is no value, or the kind accepts it. -/
def Kind.Fits (kind : Kind) (v : Option Json) : Prop :=
  ∀ x ∈ v, ∃ value, Value.ofJson kind x = .ok value

theorem Kind.fits_none (kind : Kind) : kind.Fits none := nofun

theorem Kind.fits_some {kind : Kind} {v : Json} {value : Value}
    (h : Value.ofJson kind v = .ok value) : kind.Fits (some v) := by
  rintro x hx
  cases hx
  exact ⟨value, h⟩

theorem Kind.fits_number (n : Json.Number) : Kind.number.Fits (some (.number n)) := by
  obtain ⟨x, hx⟩ := n.exists_finite
  have hvalue : Value.ofJson .number (.number n) = .ok (.number x) := by
    simp [Value.ofJson, Json.number?, hx]
  exact fits_some hvalue

/-- Only the number kind accepts numbers. -/
theorem Kind.eq_number_of_fits {kind : Kind} {n : Json.Number} (h : kind.Fits (some (.number n))) :
    kind = .number := by
  obtain ⟨value, hvalue⟩ := h _ rfl
  cases kind with
  | number => rfl
  | _ => cases hvalue

theorem Kind.fits_of_ofBinary64 {x : Binary64} {v : Json} (h : Json.ofBinary64 x = .ok v) :
    Kind.number.Fits (some v) := by
  cases x with
  | finite x =>
    cases h
    unfold Json.ofFinite
    split
    · next hwhole =>
      have hintegral : Json.Integral x.truncate := by
        have hexact : maxExactInteger = 9007199254740991 := rfl
        unfold Json.Integral
        omega
      rw [Json.ofInt, Json.Number.ofInt?, dif_pos hintegral]
      exact fits_number _
    · exact fits_number _
  | infinite negative => cases h
  | notANumber => cases h

/-- A mutation that suits a kind makes values of it. -/
theorem Mutation.fits_apply {m : Mutation} {kind : Kind} {current : Option Json} {v : Json}
    (hcheck : m.checkFor (some kind) = .ok ()) (h : m.apply current = .ok v) :
    kind.Fits (some v) := by
  have hnumber (hnumeric : checkNumeric (some kind) = .ok ()) : kind = .number := by
    cases kind with
    | number => rfl
    | _ => cases hnumeric
  cases m with
  | set value =>
    cases h
    unfold checkFor checkKind at hcheck
    dsimp only at hcheck
    split at hcheck
    · next hvalue => exact Kind.fits_some hvalue
    · cases hcheck
  | add amount =>
    obtain rfl := hnumber hcheck
    obtain ⟨x, _, hx⟩ := bind_ok h
    exact Kind.fits_of_ofBinary64 hx
  | multiply factor =>
    obtain rfl := hnumber hcheck
    obtain ⟨x, _, hx⟩ := bind_ok h
    exact Kind.fits_of_ofBinary64 hx
  | divide divisor =>
    obtain rfl := hnumber hcheck
    unfold apply at h
    dsimp only at h
    split at h
    · cases h
    · obtain ⟨x, _, hx⟩ := bind_ok h
      exact Kind.fits_of_ofBinary64 hx

/-- A field write that changes a value leaves what the mutation makes of it. -/
theorem Record.mutate_applied {r : Record} {name : String} {m : Mutation} {now : Int}
    {w : FieldWrite} (h : r.mutate name m now = .ok w) (hchanged : w.changed = true) :
    m.apply (r.get? name) = .ok w.current ∧ w.record.get? name = some w.current := by
  obtain ⟨hobject, happly, ⟨hfalse, _⟩ | ⟨_, hrecord⟩⟩ := mutate_ok h
  · cases hfalse.symm.trans hchanged
  · rw [hrecord]
    exact ⟨happly, Json.get?_set_self hobject name _⟩

/-! ## Reading back -/

/-- What a record store reads of written data fits the kinds that the data fitted. -/
class KindKeepingStore (σ : Type) [RecordStore σ] : Prop where
  fits_of_mutateField {s s' : σ} {module : ModuleId} {id : RecordId} {field : String}
      {m : Mutation} {now : Int} {w : FieldWrite} {r : Record} {kind : Kind} {key : String} :
    RecordStore.mutateField s module id field m now = .ok (w, s') →
      RecordStore.get s' module id = .ok (some r) →
        kind.Fits (w.record.get? key) → kind.Fits (r.get? key)

instance : KindKeepingStore MemoryStore where
  fits_of_mutateField h hr hfits := by
    rw [MemoryStore.get_eq, MemoryStore.get_mutateField h] at hr
    cases hr
    exact hfits

namespace Json

/-- A value that is read from its text is of the sort that was written. -/
theorem fits_of_value?_seen {kind : Kind} {a b : Json} {room : Nat}
    (h : (a.seen room).value? = some b) (hfits : kind.Fits (some a)) :
    kind.Fits (some b.normal) := by
  obtain ⟨value, hvalue⟩ := hfits a rfl
  cases a with
  | null | bool _ | string _ =>
    rw [seen] at h
    cases h
    exact Kind.fits_some hvalue
  | number n =>
    obtain rfl := Kind.eq_number_of_fits hfits
    rw [seen] at h
    rcases n.reread_cases with ⟨m, _, hseen⟩ | ⟨_, hseen⟩
    · rw [hseen] at h
      cases h
      exact Kind.fits_number m
    · rw [hseen] at h
      cases h
  | array items =>
    rw [seen_array] at h
    split at h
    · cases h
    · obtain ⟨ws, _, rfl⟩ := Option.map_eq_some_iff.mp h
      cases kind with
      | array => exact Kind.fits_some rfl
      | _ => cases hvalue
  | object members =>
    rw [seen_object] at h
    split at h
    · cases h
    · obtain ⟨ws, _, rfl⟩ := Option.map_eq_some_iff.mp h
      cases kind with
      | object => exact Kind.fits_some rfl
      | _ => cases hvalue

/-- The members that are read from the text of an object have its keys, and under each of them what
is read of its value. -/
theorem lookup_of_memberValues? {room : Nat} {members ws : List (String × Json)}
    (h : Tree.memberValues? (seenMembers room members) = some ws) :
    ws.map Prod.fst = members.map Prod.fst ∧ ∀ key b, ws.lookup key = some b →
      ∃ a, members.lookup key = some a ∧ (a.seen room).value? = some b := by
  induction members generalizing ws with
  | nil =>
    cases h
    exact ⟨rfl, nofun⟩
  | cons m rest ih =>
    obtain ⟨k, v⟩ := m
    simp only [seenMembers, Tree.memberValues?, Option.bind_eq_bind, Option.bind_eq_some_iff] at h
    obtain ⟨w, hw, ws', hws, heq⟩ := h
    cases heq
    obtain ⟨hkeys, hvalues⟩ := ih hws
    refine ⟨congrArg (k :: ·) hkeys, fun key b hb => ?_⟩
    by_cases hkey : key = k
    · subst hkey
      rw [List.lookup_cons_self] at hb ⊢
      cases hb
      exact ⟨v, rfl, hw⟩
    · have hne : (key == k) = false := beq_false_of_ne hkey
      rw [List.lookup_cons, hne] at hb ⊢
      exact hvalues key b hb

theorem lookup_normalMembers (members : List (String × Json)) (key : String) :
    (normalMembers members).lookup key = (members.lookup key).map normal := by
  induction members with
  | nil => rfl
  | cons m rest ih =>
    obtain ⟨k, v⟩ := m
    rw [normalMembers, List.lookup_cons, List.lookup_cons, ih]
    split <;> rfl

/-- An object whose keys are in order is read from its text member by member. -/
theorem exists_of_parse?_text {members : List (String × Json)} {w : Json}
    (hordered : Ordered members) (h : parse? (object members).text = some w) :
    ∃ room ws, Tree.memberValues? (seenMembers room members) = some ws ∧
      w = object (normalMembers ws) := by
  rw [parse?_text, Option.map_eq_some_iff] at h
  obtain ⟨v, hv, rfl⟩ := h
  rw [seen_object] at hv
  split at hv
  · cases hv
  · obtain ⟨ws, hws, rfl⟩ := Option.map_eq_some_iff.mp hv
    have hsorted : sortMembers (normalMembers ws) = normalMembers ws := by
      refine Ordered.sortMembers (hordered.of_keys ?_)
      rw [normalMembers_eq_map, List.map_map, ← (lookup_of_memberValues? hws).1]
      rfl
    exact ⟨_, ws, hws, congrArg object hsorted⟩

/-- An object whose keys are in order is read from its text with values of the same sorts. -/
theorem fits_of_parse?_text {kind : Kind} {members : List (String × Json)} {w : Json}
    (hordered : Ordered members) (h : parse? (object members).text = some w) {key : String}
    (hfits : kind.Fits ((object members).get? key)) : kind.Fits (w.get? key) := by
  obtain ⟨room, ws, hws, rfl⟩ := exists_of_parse?_text hordered h
  show kind.Fits ((normalMembers ws).lookup key)
  rw [lookup_normalMembers]
  intro x hx
  obtain ⟨b, hb, rfl⟩ := Option.map_eq_some_iff.mp hx
  obtain ⟨a, ha, hread⟩ := (lookup_of_memberValues? hws).2 key b hb
  rw [get?, ha] at hfits
  exact fits_of_value?_seen hread hfits _ rfl

end Json

namespace TableStore

/-- The data of a record that is read have their keys in order. -/
theorem ordered_of_get {s : TableStore} {module : ModuleId} {id : RecordId} {r : Record}
    (h : RecordStore.get s module id = .ok (some r)) {members : List (String × Json)}
    (hdata : r.data = .object members) : Json.Ordered members := by
  obtain ⟨row, _, hread⟩ := row?_of_get h
  have hparse := (Row.toRecord_ok hread).2.2.1
  rw [Json.parse?, Option.map_eq_some_iff] at hparse
  obtain ⟨v, _, hv⟩ := hparse
  rw [hdata] at hv
  cases v with
  | object ms =>
    cases hv
    exact Json.ordered_sortMembers _
  | _ => cases hv

/-- The text of the data that a field write left is that of an object, and is what is read. -/
theorem parse?_of_changed {s s' : TableStore} {module : ModuleId} {id : RecordId} {field : String}
    {m : Mutation} {now : Int} {w : FieldWrite} {r : Record}
    (h : RecordStore.mutateField s module id field m now = .ok (w, s')) (hc : w.changed = true)
    (hr : RecordStore.get s' module id = .ok (some r)) :
    ∃ members, Json.Ordered members ∧ w.record.data = .object members ∧
      Json.parse? (Json.object members).text = some r.data := by
  obtain ⟨before, hbefore, hw, _⟩ := mutateField_ok h
  have hparse := (of_get_changed h hc hr).1
  obtain ⟨hobject, _, ⟨hfalse, _⟩ | ⟨_, hrecord⟩⟩ := Record.mutate_ok hw
  · rw [hc] at hfalse
    cases hfalse
  · cases hdata : before.data with
    | object members =>
      have hnew : w.record.data = .object (Json.insertMember field w.current members) := by
        rw [hrecord, Record.withData, hdata, Json.set]
      exact ⟨_, (ordered_of_get hbefore hdata).insertMember field w.current, hnew, hnew ▸ hparse⟩
    | _ =>
      rw [hdata] at hobject
      cases hobject

instance : KindKeepingStore TableStore where
  fits_of_mutateField {s s' module id field m now w r kind key} h hr hfits := by
    by_cases hc : w.changed = true
    · obtain ⟨members, hordered, hdata, hparse⟩ := parse?_of_changed h hc hr
      unfold Record.get? at hfits ⊢
      rw [hdata] at hfits
      exact Json.fits_of_parse?_text hordered hparse hfits
    · rw [get_of_unchanged h hc] at hr
      cases hr
      exact hfits

end TableStore

/-! ## Writes of rules -/

theorem Scope.targetField_ok {c : Scope} {registry : Registry} {field : TargetField}
    (h : c.targetField registry = .ok (some field)) :
    ∃ f ∈ registry.listFields c.target, field = ⟨f.name, registry.kindOf f.dataType⟩ := by
  cases Scope.targetFound h with
  | found _ _ hmodule hf =>
    rw [hmodule] at hf
    exact ⟨_, List.mem_of_find?_eq_some hf, rfl⟩

section

variable {σ : Type} [RecordStore σ] [LawfulRecordStore σ] [KindKeepingStore σ] {s : Setting}
  {run run' : Run σ} {home : ModuleId} {id : RecordId} {f : Field} {kind : Kind}

/-- The value of a field of a record, if the record is there, fits a kind. -/
def Run.FieldFits (run : Run σ) (home : ModuleId) (id : RecordId) (f : Field) (kind : Kind) :
    Prop :=
  ∀ r, RecordStore.get run.store home id = .ok (some r) → kind.Fits (r.get? f.name)

theorem Write.fieldFits {c : Scope} (h : Write s c run run')
    (hnames : ((s.registry.listFields home).map (·.name)).Nodup)
    (hf : f ∈ s.registry.listFields home) (hkind : s.registry.kindOf f.dataType = some kind)
    (hfits : run.FieldFits home id f kind) : run'.FieldFits home id f kind := by
  intro r hr
  cases h with
  | @change store target field m w itemIndex _ _ htarget hsuits hwrite hchanged =>
    rw [Run.wrote_store] at hr
    by_cases hplace : (home, id) = (c.target, target)
    · cases hplace
      refine KindKeepingStore.fits_of_mutateField hwrite hr ?_
      obtain ⟨before, hbefore, hmutate⟩ := LawfulRecordStore.mutate_of_mutateField hwrite
      by_cases hname : f.name = field.name
      · -- The field that is written is the field in question, since no other has its name.
        obtain ⟨g, hg, rfl⟩ := Scope.targetField_ok htarget
        obtain rfl : f = g := List.inj_on_of_nodup_map hnames hf hg hname
        rw [hkind] at hsuits
        obtain ⟨happly, hcurrent⟩ := Record.mutate_applied hmutate hchanged
        rw [hcurrent]
        exact Mutation.fits_apply hsuits happly
      · rw [(Record.mutate_keeps hmutate).2.2.2.2 f.name hname]
        exact hfits before hbefore
    · rw [LawfulRecordStore.get_mutateField_of_ne hwrite hplace] at hr
      exact hfits r hr
  | @delete store target found itemIndex _ hdelete =>
    rw [Run.wrote_store] at hr
    by_cases hplace : (home, id) = (c.target, target)
    · cases hplace
      rw [LawfulRecordStore.get_delete_self hdelete] at hr
      cases hr
    · rw [LawfulRecordStore.get_delete_of_ne hdelete hplace] at hr
      exact hfits r hr

theorem RunStep.fieldFits {rootMode : Mode} (h : RunStep s rootMode run run')
    (hnames : ((s.registry.listFields home).map (·.name)).Nodup)
    (hf : f ∈ s.registry.listFields home) (hkind : s.registry.kindOf f.dataType = some kind)
    (hfits : run.FieldFits home id f kind) : run'.FieldFits home id f kind := by
  rcases h.cases with hidle | ⟨t, rest, _, rfl⟩ | ⟨t, c, _, _, _, _, hwrite⟩
  · intro r hr
    rw [hidle.store] at hr
    exact hfits r hr
  · exact hfits
  · exact hwrite.fieldFits hnames hf hkind hfits

theorem Reaches.fieldFits {rootMode : Mode} (h : Reaches s rootMode run run')
    (hnames : ((s.registry.listFields home).map (·.name)).Nodup)
    (hf : f ∈ s.registry.listFields home) (hkind : s.registry.kindOf f.dataType = some kind)
    (hfits : run.FieldFits home id f kind) : run'.FieldFits home id f kind := by
  induction h with
  | refl => exact hfits
  | tail _ step ih => exact step.fieldFits hnames hf hkind ih

/-- Whatever rules run, a field of a known kind that has no value or one that its kind accepts is
such a field after the run, in every record that is still there. -/
theorem evaluation_keeps_kinds (registry : Registry)
    (hnames : ∀ m, ((registry.listFields m).map (·.name)).Nodup) (config : Config) (clock : Clock)
    (store : σ) (module : ModuleId) (event : Event) (record : Record)
    (prechecked : Option (List Outcome)) {before after : Record}
    (hf : f ∈ registry.listFields home) (hkind : registry.kindOf f.dataType = some kind)
    (hbefore : RecordStore.get store home id = .ok (some before))
    (hfits : kind.Fits (before.get? f.name))
    (hafter : RecordStore.get
      (evaluate registry config clock store module event record prechecked).2 home id =
        .ok (some after)) :
    kind.Fits (after.get? f.name) := by
  have hreaches := evaluation_reaches registry config clock store module event record prechecked
  refine Reaches.fieldFits hreaches (hnames home) hf hkind ?_ after hafter
  intro r hr
  have hr : RecordStore.get store home id = .ok (some r) := hr
  rw [hbefore] at hr
  cases hr
  exact hfits

end

namespace Sample

/-- The data type of the field `sold`. -/
def flag : DataType :=
  { id := sold.dataType, name := "Flag", kind := .boolean, description := none, isActive := true
    createdAt := 0, updatedAt := 0 }

/-- Here `sold` holds truth values, and what is sold stays. -/
def flagged : Registry :=
  { registry with
    catalog := ⟨[flag]⟩
    graph := { registry.graph with
      slots := [some ⟨⟨orders, "Orders", [sale], 0, 0⟩, [sale]⟩,
        some ⟨⟨stock, "Stock", [], 0, 0⟩, []⟩] } }

def soldItem : Record := { item with data := .object [("sold", .bool true)], updatedAt := 5 }

end Sample

theorem evaluation_keeps_kinds_on_sample :
    LawfulRecordStore MemoryStore ∧ KindKeepingStore MemoryStore ∧
      (∀ m, ((Sample.flagged.listFields m).map (·.name)).Nodup) ∧
      Sample.sold ∈ Sample.flagged.listFields Sample.stock ∧
      Sample.flagged.kindOf Sample.sold.dataType = some .boolean ∧
      Kind.boolean.Fits (Sample.item.get? "sold") ∧
      RecordStore.get (evaluate Sample.flagged .standard (.steady 5 0)
        (⟨[Sample.item]⟩ : MemoryStore) Sample.orders .create Sample.order none).2 Sample.stock
          Sample.one = .ok (some Sample.soldItem) ∧
      Kind.boolean.Fits (Sample.soldItem.get? "sold") := by
  have hnames : ∀ m, ((Sample.flagged.listFields m).map (·.name)).Nodup := by
    intro m
    by_cases hm : m = Sample.stock
    · subst hm
      decide
    · have hnone : Sample.flagged.listFields m = [] := by
        simp [Registry.listFields, FieldTable.list, Sample.flagged, Sample.registry,
          List.lookup_cons, beq_eq_false_iff_ne.mpr hm]
      rw [hnone]
      exact List.nodup_nil
  have hsold : Sample.sold ∈ Sample.flagged.listFields Sample.stock := List.mem_singleton.mpr rfl
  have hkind : Sample.flagged.kindOf Sample.sold.dataType = some .boolean := rfl
  have hafter : RecordStore.get (evaluate Sample.flagged .standard (.steady 5 0)
      (⟨[Sample.item]⟩ : MemoryStore) Sample.orders .create Sample.order none).2 Sample.stock
        Sample.one = .ok (some Sample.soldItem) := by rfl
  have hbefore : RecordStore.get (⟨[Sample.item]⟩ : MemoryStore) Sample.stock Sample.one =
      .ok (some Sample.item) := by rfl
  exact ⟨inferInstance, inferInstance, hnames, hsold, hkind, Kind.fits_none _, hafter,
    evaluation_keeps_kinds Sample.flagged hnames .standard (.steady 5 0) _ Sample.orders .create
      Sample.order none hsold hkind hbefore (Kind.fits_none _) hafter⟩

end RecordRules
