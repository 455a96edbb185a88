/-
Values in normal form.

A value is in normal form if the keys of each of its objects stand in order and none is repeated.
Such a value is its own normal form, and it stays in normal form when a member is put in.
-/
import RecordRules.Json.Text

namespace RecordRules
namespace Json

/-! ## Members in order -/

/-- The keys of members stand in order, each of them once. -/
def Ordered {α : Type} (members : List (String × α)) : Prop := members.Pairwise fun a b => a.1 < b.1

theorem eq_or_mem_of_mem_insertMember {key : String} {value : Json} {members : List (String × Json)}
    {m : String × Json} (h : m ∈ insertMember key value members) :
    m = (key, value) ∨ m ∈ members := by
  induction members with
  | nil => exact Or.inl (List.mem_singleton.mp h)
  | cons first rest ih =>
    obtain ⟨k, v⟩ := first
    unfold insertMember at h
    split at h
    · exact (List.mem_cons.mp h).imp_right fun h => h
    · split at h
      · exact (List.mem_cons.mp h).imp_right (List.mem_cons_of_mem _)
      · rcases List.mem_cons.mp h with h | h
        · exact Or.inr (h ▸ List.mem_cons_self)
        · exact (ih h).imp_right (List.mem_cons_of_mem _)

theorem Ordered.insertMember {members : List (String × Json)} (h : Ordered members) (key : String)
    (value : Json) : Ordered (insertMember key value members) := by
  induction members with
  | nil => exact List.pairwise_singleton _ _
  | cons first rest ih =>
    obtain ⟨k, v⟩ := first
    obtain ⟨hfirst, hrest⟩ := List.pairwise_cons.mp h
    unfold Json.insertMember
    split
    · next hlt =>
      refine List.pairwise_cons.mpr ⟨fun m hm => ?_, h⟩
      rcases List.mem_cons.mp hm with rfl | hm
      · exact hlt
      · exact String.lt_trans hlt (hfirst m hm)
    · next hnot =>
      split
      · next heq =>
        subst heq
        exact List.pairwise_cons.mpr ⟨hfirst, hrest⟩
      · next hne =>
        refine List.pairwise_cons.mpr ⟨fun m hm => ?_, ih hrest⟩
        rcases eq_or_mem_of_mem_insertMember hm with rfl | hm
        · exact Std.lt_of_le_of_ne (String.not_lt.mp hnot) (Ne.symm hne)
        · exact hfirst m hm

/-- Members come out of sorting in order. -/
theorem ordered_sortMembers (members : List (String × Json)) : Ordered (sortMembers members) := by
  suffices h : ∀ (members sorted : List (String × Json)), Ordered sorted →
      Ordered (members.foldl (fun sorted m => insertMember m.1 m.2 sorted) sorted) from
    h members [] .nil
  intro members
  induction members with
  | nil => exact fun _ h => h
  | cons m rest ih => exact fun sorted h => ih _ (h.insertMember m.1 m.2)

theorem insertMember_eq_append {key : String} {value : Json} {members : List (String × Json)}
    (h : ∀ m ∈ members, m.1 < key) :
    insertMember key value members = members ++ [(key, value)] := by
  induction members with
  | nil => rfl
  | cons first rest ih =>
    obtain ⟨k, v⟩ := first
    have hfirst : k < key := h (k, v) List.mem_cons_self
    unfold insertMember
    have hne : key ≠ k := fun heq => String.lt_irrefl k (heq ▸ hfirst)
    rw [if_neg (String.lt_asymm hfirst), if_neg hne,
      ih fun m hm => h m (List.mem_cons_of_mem _ hm)]
    rfl

/-- Members in order are left as they are by sorting. -/
theorem Ordered.sortMembers {members : List (String × Json)} (h : Ordered members) :
    sortMembers members = members := by
  suffices hfold : ∀ (rest sorted : List (String × Json)), Ordered (sorted ++ rest) →
      rest.foldl (fun sorted m => Json.insertMember m.1 m.2 sorted) sorted = sorted ++ rest from
    hfold members [] h
  intro rest
  induction rest with
  | nil => exact fun sorted _ => (List.append_nil sorted).symm
  | cons m rest ih =>
    intro sorted hordered
    have hbefore : ∀ a ∈ sorted, a.1 < m.1 := fun a ha =>
      (List.pairwise_append.mp hordered).2.2 a ha m List.mem_cons_self
    rw [List.foldl_cons, insertMember_eq_append hbefore]
    have hsplit : sorted ++ m :: rest = (sorted ++ [m]) ++ rest := by simp
    rw [hsplit] at hordered ⊢
    exact ih _ hordered

theorem ordered_map {α β : Type} {f : α → β} {members : List (String × α)} :
    Ordered (members.map fun m => (m.1, f m.2)) ↔ Ordered members :=
  List.pairwise_map

theorem ordered_iff_pairwise_keys {α : Type} {members : List (String × α)} :
    Ordered members ↔ (members.map Prod.fst).Pairwise (· < ·) :=
  List.pairwise_map.symm

theorem Ordered.of_keys {α β : Type} {members : List (String × α)} {others : List (String × β)}
    (h : Ordered members) (hkeys : others.map Prod.fst = members.map Prod.fst) :
    Ordered others := by
  rw [ordered_iff_pairwise_keys, hkeys]
  exact ordered_iff_pairwise_keys.mp h

/-! ## A member that is put in -/

/-- What comes before all keys is none of them. -/
theorem lookup_eq_none_of_lt {members : List (String × Json)} {key : String}
    (h : ∀ m ∈ members, key < m.1) : members.lookup key = none :=
  List.lookup_eq_none_iff.mpr fun m hm => bne_iff_ne.mpr (Std.ne_of_lt (h m hm))

/-- Members in order are told apart by what stands under the keys. -/
theorem Ordered.ext {members others : List (String × Json)} (h : Ordered members)
    (h' : Ordered others) (hlookup : ∀ key, members.lookup key = others.lookup key) :
    members = others := by
  induction members generalizing others with
  | nil =>
    cases others with
    | nil => rfl
    | cons other rest' =>
      have hfound := hlookup other.1
      rw [List.lookup_cons_self] at hfound
      cases hfound
  | cons m rest ih =>
    cases others with
    | nil =>
      have hfound := hlookup m.1
      rw [List.lookup_cons_self] at hfound
      cases hfound
    | cons other rest' =>
      obtain ⟨k, v⟩ := m
      obtain ⟨k', v'⟩ := other
      obtain ⟨hfirst, hrest⟩ := List.pairwise_cons.mp h
      obtain ⟨hfirst', hrest'⟩ := List.pairwise_cons.mp h'
      -- The least keys are the same, since each is found on the other side.
      have hkey : k = k' := by
        refine String.le_antisymm (String.not_lt.mp fun hgt => ?_) (String.not_lt.mp fun hlt => ?_)
        · have hfound := hlookup k'
          rw [List.lookup_cons_self, lookup_eq_none_of_lt (List.forall_mem_cons.mpr
            ⟨hgt, fun m hm => String.lt_trans hgt (hfirst m hm)⟩)] at hfound
          cases hfound
        · have hfound := hlookup k
          rw [List.lookup_cons_self, lookup_eq_none_of_lt (List.forall_mem_cons.mpr
            ⟨hlt, fun m hm => String.lt_trans hlt (hfirst' m hm)⟩)] at hfound
          cases hfound
      subst hkey
      have hvalue := hlookup k
      rw [List.lookup_cons_self, List.lookup_cons_self] at hvalue
      cases hvalue
      rw [ih hrest hrest' fun key => ?_]
      by_cases hkey : key = k
      · rw [hkey, lookup_eq_none_of_lt hfirst, lookup_eq_none_of_lt hfirst']
      · have hlookup := hlookup key
        rwa [List.lookup_cons, List.lookup_cons, beq_false_of_ne hkey] at hlookup

theorem lookup_insertMember_self (key : String) (value : Json) (members : List (String × Json)) :
    (insertMember key value members).lookup key = some value := by
  induction members with
  | nil => simp [insertMember]
  | cons first rest ih =>
    obtain ⟨k, v⟩ := first
    unfold insertMember
    split
    · simp
    · split
      · simp
      · next hne =>
        have hb : (key == k) = false := by simpa using hne
        rw [List.lookup_cons, hb]
        exact ih

theorem get?_set_self {v : Json} (h : v.isObject = true) (key : String) (value : Json) :
    (v.set key value).get? key = some value := by
  cases v with
  | object members => exact lookup_insertMember_self key value members
  | _ => cases h

theorem insertMember_insertMember (key : String) (a b : Json) (members : List (String × Json)) :
    insertMember key b (insertMember key a members) = insertMember key b members := by
  induction members with
  | nil => simp [insertMember]
  | cons first rest ih =>
    obtain ⟨k, v⟩ := first
    by_cases hlt : key < k
    · simp [insertMember, hlt]
    · by_cases heq : key = k
      · simp [insertMember, heq]
      · simp [insertMember, hlt, heq, ih]

theorem insertMember_comm_of_lt {key other : String} (h : key < other) (a b : Json)
    (members : List (String × Json)) :
    insertMember key a (insertMember other b members) =
      insertMember other b (insertMember key a members) := by
  have hne : key ≠ other := fun heq => String.lt_irrefl other (heq ▸ h)
  have hback := String.lt_asymm h
  induction members with
  | nil => simp [insertMember, h, hback, hne.symm]
  | cons first rest ih =>
    obtain ⟨k, v⟩ := first
    by_cases hother : other < k
    · have hkey : key < k := String.lt_trans h hother
      simp [insertMember, hother, hkey, h, hback, hne.symm]
    · by_cases heq : other = k
      · subst heq
        simp [insertMember, h, hback, hne.symm]
      · by_cases hkey : key < k
        · simp [insertMember, hother, heq, hkey, hback, hne.symm]
        · by_cases heq' : key = k
          · subst heq'
            simp [insertMember, hback, hne.symm]
          · simp [insertMember, hother, heq, hkey, heq', ih]

/-- Members of different keys may be put in one before the other or the other way round. -/
theorem insertMember_comm {key other : String} (h : key ≠ other) (a b : Json)
    (members : List (String × Json)) :
    insertMember key a (insertMember other b members) =
      insertMember other b (insertMember key a members) := by
  by_cases hlt : key < other
  · exact insertMember_comm_of_lt hlt a b members
  · have hgt : other < key := Std.lt_of_le_of_ne (String.not_lt.mp hlt) h.symm
    exact (insertMember_comm_of_lt hgt b a members).symm

/-- Of two values put in under one key the last one stays. -/
theorem set_set (v : Json) (key : String) (a b : Json) : (v.set key a).set key b = v.set key b := by
  cases v with
  | object members => exact congrArg object (insertMember_insertMember key a b members)
  | _ => rfl

@[simp]
theorem isObject_set (v : Json) (key : String) (value : Json) :
    (v.set key value).isObject = v.isObject := by
  cases v <;> rfl

/-! ## Normal form -/

/-- The value is its own normal form. -/
def IsNormal (v : Json) : Prop := v.normal = v

theorem normalItems_eq_map (items : List Json) : normalItems items = items.map normal := by
  induction items with
  | nil => rfl
  | cons v rest ih => rw [normalItems, ih, List.map_cons]

theorem normalMembers_eq_map (members : List (String × Json)) :
    normalMembers members = members.map fun m => (m.1, m.2.normal) := by
  induction members with
  | nil => rfl
  | cons m rest ih =>
    obtain ⟨k, v⟩ := m
    rw [normalMembers, ih, List.map_cons]

theorem map_eq_self_iff {α : Type} {f : α → α} {l : List α} :
    l.map f = l ↔ ∀ a ∈ l, f a = a := by
  have hid := List.map_inj_left (f := f) (g := id) (l := l)
  rwa [List.map_id] at hid

theorem isNormal_array_iff {items : List Json} :
    (array items).IsNormal ↔ ∀ v ∈ items, v.IsNormal := by
  unfold IsNormal
  rw [normal, normalItems_eq_map, Json.array.injEq, map_eq_self_iff]

/-- An object is in normal form if its members are in order and their values in normal form. -/
theorem isNormal_object_iff {members : List (String × Json)} :
    (object members).IsNormal ↔ Ordered members ∧ ∀ m ∈ members, m.2.IsNormal := by
  have hvalues : (members.map fun m => (m.1, m.2.normal)) = members ↔
      ∀ m ∈ members, m.2.IsNormal := by
    rw [map_eq_self_iff]
    exact forall₂_congr fun m _ => Prod.ext_iff.trans (and_iff_right rfl)
  unfold IsNormal
  rw [normal, Json.object.injEq, normalMembers_eq_map]
  constructor
  · intro h
    have hordered : Ordered members := h ▸ ordered_sortMembers _
    rw [(ordered_map.mpr hordered).sortMembers] at h
    exact ⟨hordered, hvalues.mp h⟩
  · rintro ⟨hordered, hnormal⟩
    rw [(ordered_map.mpr hordered).sortMembers]
    exact hvalues.mpr hnormal

/-- The members of an object in normal form are in normal form. -/
theorem IsNormal.lookup {members : List (String × Json)} (h : (object members).IsNormal)
    {key : String} {v : Json} (hv : members.lookup key = some v) : v.IsNormal := by
  obtain ⟨before, after, rfl, _⟩ := List.lookup_eq_some_iff.mp hv
  exact (isNormal_object_iff.mp h).2 (key, v) (List.mem_append_right before List.mem_cons_self)

theorem IsNormal.get? {v w : Json} (h : v.IsNormal) {key : String} (hw : v.get? key = some w) :
    w.IsNormal := by
  cases v with
  | object members => exact h.lookup hw
  | _ => cases hw

/-- A value in normal form stays so when a member in normal form is put in. -/
theorem IsNormal.set {v value : Json} (h : v.IsNormal) (hvalue : value.IsNormal) (key : String) :
    (v.set key value).IsNormal := by
  cases v with
  | object members =>
    obtain ⟨hordered, hvalues⟩ := isNormal_object_iff.mp h
    refine isNormal_object_iff.mpr ⟨hordered.insertMember key value, fun m hm => ?_⟩
    rcases eq_or_mem_of_mem_insertMember hm with rfl | hm
    · exact hvalue
    · exact hvalues m hm
  | _ => exact h

/-- Objects in normal form are told apart by their members. -/
theorem IsNormal.ext {a b : Json} (ha : a.IsNormal) (hb : b.IsNormal)
    (hobject : a.isObject = true) (hobject' : b.isObject = true)
    (h : ∀ key, a.get? key = b.get? key) : a = b := by
  cases a with
  | object members =>
    cases b with
    | object others =>
      exact congrArg object
        ((isNormal_object_iff.mp ha).1.ext (isNormal_object_iff.mp hb).1 h)
    | _ => cases hobject'
  | _ => cases hobject

theorem mem_of_mem_sortMembers {members : List (String × Json)} {m : String × Json}
    (h : m ∈ sortMembers members) : m ∈ members := by
  suffices hfold : ∀ (rest sorted : List (String × Json)),
      m ∈ rest.foldl (fun sorted m => insertMember m.1 m.2 sorted) sorted → m ∈ sorted ∨ m ∈ rest by
    exact (hfold members [] h).resolve_left List.not_mem_nil
  intro rest
  induction rest with
  | nil => exact fun sorted h => Or.inl h
  | cons first rest ih =>
    intro sorted h
    rcases ih _ h with h | h
    · rcases eq_or_mem_of_mem_insertMember h with rfl | h
      · exact Or.inr List.mem_cons_self
      · exact Or.inl h
    · exact Or.inr (List.mem_cons_of_mem _ h)

mutual

theorem isNormal_normal : ∀ v : Json, v.normal.IsNormal
  | null | bool _ | number _ | string _ => rfl
  | array items => by
    rw [normal]
    exact isNormal_array_iff.mpr (isNormal_of_mem_normalItems items)
  | object members => by
    rw [normal]
    refine isNormal_object_iff.mpr ⟨ordered_sortMembers _, fun m hm => ?_⟩
    exact isNormal_of_mem_normalMembers members m (mem_of_mem_sortMembers hm)

theorem isNormal_of_mem_normalItems : ∀ (items : List Json), ∀ v ∈ normalItems items, v.IsNormal
  | [], _, h => absurd h List.not_mem_nil
  | v :: rest, w, h => by
    rcases List.mem_cons.mp h with rfl | h
    · exact isNormal_normal v
    · exact isNormal_of_mem_normalItems rest w h

theorem isNormal_of_mem_normalMembers :
    ∀ (members : List (String × Json)), ∀ m ∈ normalMembers members, m.2.IsNormal
  | [], _, h => absurd h List.not_mem_nil
  | (k, v) :: rest, m, h => by
    rcases List.mem_cons.mp h with rfl | h
    · exact isNormal_normal v
    · exact isNormal_of_mem_normalMembers rest m h

end

/-- A number is in normal form. -/
theorem isNormal_number (n : Number) : (number n).IsNormal := rfl

end Json
end RecordRules
