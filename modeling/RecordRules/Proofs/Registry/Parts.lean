/-
The parts of a registry, well kept.

The catalog stands in order of age, the index of the graph leads to the slots that are filled, and
the table knows the module of each field.  Every operation on a part keeps this, given that the
documents that come with it were read, which lets the part be built again from what it lists.
-/
import Mathlib.Data.List.Nodup
import RecordRules.Proofs.Assoc
import RecordRules.Proofs.Basic
import RecordRules.Proofs.Registry.Documents

namespace RecordRules

open Json

/-! ## The catalog -/

namespace DataType

theorem before_iff {a b : DataType} :
    a.before b = true ↔ Older (a.createdAt, a.id.text) (b.createdAt, b.id.text) := by
  simp [before, Older]

theorem before_trans {a b c : DataType} (hab : a.before b = true) (hbc : b.before c = true) :
    a.before c = true :=
  before_iff.mpr ((before_iff.mp hab).trans (before_iff.mp hbc))

theorem not_before_of_before {a b : DataType} (h : a.before b = true) : b.before a = false :=
  Bool.eq_false_iff.mpr fun h' => (before_iff.mp h).asymm (before_iff.mp h')

theorem before_total {a b : DataType} (h : a.id ≠ b.id) :
    a.before b = true ∨ b.before a = true := by
  rw [before_iff, before_iff]
  exact older_total fun htext => h (Ident.ext_text htext)

end DataType

namespace Catalog

/-- The data types stand in order, no two of one identifier. -/
structure WellKept (c : Catalog) : Prop where
  ordered : c.types.Pairwise fun a b => a.before b = true
  unique : ∀ a ∈ c.types, ∀ b ∈ c.types, a.id = b.id → a = b
  legible : ∀ t ∈ c.types, t.Legible

theorem wellKept_empty : empty.WellKept := ⟨.nil, nofun, nofun⟩

variable {c c' : Catalog} {t : DataType} {id : DataTypeId} {now : Int}

theorem get?_eq_none_iff : c.get? id = none ↔ ∀ t ∈ c.types, t.id ≠ id := by
  simp [get?]

theorem create_ok {name kind : String} {fresh : DataTypeId}
    (h : c.create name kind fresh now = .ok (t, c')) :
    t.id = fresh ∧ t.createdAt = now ∧ t.updatedAt = now ∧
      c' = (⟨c.types.filter fun u => u.id ≠ fresh⟩ : Catalog).add t := by
  unfold Catalog.create at h
  obtain ⟨clean, _, h⟩ := bind_ok h
  split at h
  · cases h
  · cases h
    exact ⟨rfl, rfl, rfl, rfl⟩

theorem update_ok {change : DataType → DataType} (h : c.update id change = .ok (t, c')) :
    c' = ⟨c.types.map fun u => if u.id = id then change u else u⟩ := by
  unfold Catalog.update at h
  obtain ⟨u, _, h⟩ := bind_ok h
  cases h
  rfl

theorem remove_ok (h : c.remove id = .ok c') : c' = ⟨c.types.filter fun t => t.id ≠ id⟩ := by
  unfold Catalog.remove at h
  obtain ⟨u, _, h⟩ := bind_ok h
  cases h
  rfl

theorem WellKept.filter (h : c.WellKept) (keep : DataType → Bool) :
    WellKept ⟨c.types.filter keep⟩ where
  ordered := h.ordered.sublist List.filter_sublist
  unique a ha b hb := h.unique a (List.mem_of_mem_filter ha) b (List.mem_of_mem_filter hb)
  legible t ht := h.legible t (List.mem_of_mem_filter ht)

theorem WellKept.add (h : c.WellKept) (hnew : ∀ u ∈ c.types, u.id ≠ t.id) (ht : t.Legible) :
    (c.add t).WellKept where
  ordered := pairwise_insertBefore DataType.before_trans
    (fun u hu => DataType.before_total (hnew u hu).symm) h.ordered
  unique a ha b hb hab := by
    rcases mem_insertBefore.mp ha with rfl | hold
    · rcases mem_insertBefore.mp hb with rfl | hold
      · rfl
      · exact absurd hab.symm (hnew b hold)
    · rcases mem_insertBefore.mp hb with rfl | hold'
      · exact absurd hab (hnew a hold)
      · exact h.unique a hold b hold' hab
  legible u hu := by
    rcases mem_insertBefore.mp hu with rfl | hu
    · exact ht
    · exact h.legible u hu

theorem WellKept.insert (h : c.WellKept) (ht : t.Legible) (hinsert : c.insert t = .ok c') :
    c'.WellKept := by
  unfold Catalog.insert at hinsert
  split at hinsert
  · cases hinsert
  · next hnew =>
    cases hinsert
    exact h.add (get?_eq_none_iff.mp (by simpa using hnew)) ht

theorem WellKept.create (h : c.WellKept) {name kind : String} {fresh : DataTypeId}
    (hnow : Word now) (hcreate : c.create name kind fresh now = .ok (t, c')) : c'.WellKept := by
  obtain ⟨hid, hcreated, hupdated, rfl⟩ := create_ok hcreate
  refine (h.filter _).add (fun u hu => ?_) ⟨hcreated ▸ hnow, hupdated ▸ hnow⟩
  rw [hid]
  exact of_decide_eq_true (List.mem_filter.mp hu).2

/-- A change that leaves identifier and age alone leaves the order alone. -/
theorem WellKept.update (h : c.WellKept) {change : DataType → DataType}
    (hid : ∀ u, (change u).id = u.id) (hage : ∀ u, (change u).createdAt = u.createdAt)
    (hlegible : ∀ u, u.Legible → (change u).Legible)
    (hupdate : c.update id change = .ok (t, c')) : c'.WellKept := by
  obtain rfl := update_ok hupdate
  have hkeep (u : DataType) : (if u.id = id then change u else u).id = u.id ∧
      (if u.id = id then change u else u).createdAt = u.createdAt := by
    split
    · exact ⟨hid u, hage u⟩
    · exact ⟨rfl, rfl⟩
  refine ⟨List.pairwise_map.mpr (h.ordered.imp fun {a b} hab => ?_), ?_, ?_⟩
  · rw [DataType.before_iff] at hab ⊢
    rw [(hkeep a).1, (hkeep a).2, (hkeep b).1, (hkeep b).2]
    exact hab
  · rintro _ ha _ hb hab
    obtain ⟨a, hold, rfl⟩ := List.mem_map.mp ha
    obtain ⟨b, hold', rfl⟩ := List.mem_map.mp hb
    rw [(hkeep a).1, (hkeep b).1] at hab
    rw [h.unique a hold b hold' hab]
  · rintro _ hu
    obtain ⟨u, hold, rfl⟩ := List.mem_map.mp hu
    split
    · exact hlegible u (h.legible u hold)
    · exact h.legible u hold

theorem WellKept.remove (h : c.WellKept) (hremove : c.remove id = .ok c') : c'.WellKept := by
  obtain rfl := remove_ok hremove
  exact h.filter _

end Catalog

/-! ## The graph -/

namespace ModuleGraph

/-- The index leads to the slots that are filled, each of which holds the relationships of its
module, and the relationships are counted. -/
structure Indexed (g : ModuleGraph) : Prop where
  index : ∀ id i, List.lookup id g.index = some i ↔
    ∃ s, g.slots[i]? = some (some s) ∧ s.module.id = id
  outgoing : ∀ s, some s ∈ g.slots → s.outgoing = s.module.relationships
  base : ∀ m ∈ g.list, ∀ r ∈ m.relationships, r.base = m.id
  count : g.relationshipCount = (g.list.flatMap fun m => m.relationships).length

/-- What is more, every module is read back from what is written of it. -/
structure WellKept (g : ModuleGraph) : Prop extends Indexed g where
  legible : ∀ m ∈ g.list, m.Legible

theorem indexed_empty : empty.Indexed where
  index id i := by simp [empty]
  outgoing := nofun
  base := List.forall_mem_nil _
  count := rfl

theorem wellKept_empty : empty.WellKept := ⟨indexed_empty, List.forall_mem_nil _⟩

variable {g g' : ModuleGraph} {m : Module} {s : Slot} {id : ModuleId} {i : Nat} {now : Int}

/-! ### What an operation leaves -/

theorem insert_ok (h : g.insert m = .ok g') :
    g.contains m.id = false ∧ (∀ r ∈ m.relationships, r.base = m.id) ∧
      g' = ⟨g.slots ++ [some ⟨m, m.relationships⟩], Assoc.put m.id g.slots.length g.index,
        g.relationshipCount + m.relationships.length⟩ := by
  unfold insert at h
  split_ifs at h with hcontains
  split at h
  · cases h
  · next hfind =>
    cases h
    exact ⟨Bool.eq_false_iff.mpr hcontains, by simpa using List.find?_eq_none.mp hfind, rfl⟩

theorem create_ok {name : String} (h : g.create id name now = .ok (m, g')) :
    ∃ clean, m = ⟨id, clean, [], now, now⟩ ∧ g.insert m = .ok g' := by
  unfold create at h
  obtain ⟨clean, _, h⟩ := bind_ok h
  obtain ⟨graph, hinsert, h⟩ := bind_ok h
  cases h
  exact ⟨clean, rfl, hinsert⟩

theorem rename_ok {name : String} (h : g.rename id name now = .ok (m, g')) :
    ∃ s clean, g.slot? id = some s ∧ m = { s.module with name := clean, updatedAt := now } ∧
      g' = { g with slots := g.setSlot id (some ⟨m, s.outgoing⟩) } := by
  unfold rename at h
  obtain ⟨clean, _, h⟩ := bind_ok h
  split at h
  · cases h
  · next s hs =>
    cases h
    exact ⟨s, clean, hs, rfl, rfl⟩

theorem of_checkRelationships {rels : List Relationship} {index : Nat}
    (h : g.checkRelationships id index rels = .ok ()) :
    ∀ r ∈ rels, g.checkRelationship id r = .ok () := by
  induction rels generalizing index with
  | nil => exact List.forall_mem_nil _
  | cons r rest ih =>
    unfold checkRelationships at h
    split at h
    · cases h
    · next hcheck => exact List.forall_mem_cons.mpr ⟨hcheck, ih h⟩

theorem setRelationships_ok {rels : List Relationship}
    (h : g.setRelationships id rels now = .ok (m, g')) :
    (∀ r ∈ rels, g.checkRelationship id r = .ok ()) ∧ ∃ s, g.slot? id = some s ∧
      m = { s.module with relationships := rels, updatedAt := now } ∧
      g' = { g with
        slots := g.setSlot id (some ⟨m, rels⟩)
        relationshipCount :=
          g.relationshipCount - s.module.relationships.length + rels.length } := by
  unfold setRelationships at h
  split at h
  · cases h
  · obtain ⟨_, hcheck, h⟩ := bind_ok h
    split at h
    · cases h
    · next s hs =>
      cases h
      exact ⟨of_checkRelationships hcheck, s, hs, rfl, rfl⟩

theorem remove_ok (h : g.remove id = .ok (m, g')) :
    ∃ s, g.slot? id = some s ∧ s.module = m ∧
      g' = ⟨g.setSlot id none, Assoc.erase id g.index,
        g.relationshipCount - m.relationships.length⟩ := by
  unfold remove at h
  split at h
  · cases h
  · next s hs =>
    cases h
    exact ⟨s, hs, rfl, rfl⟩

/-! ### Looking up -/

theorem mem_list : m ∈ g.list ↔ ∃ s, some s ∈ g.slots ∧ s.module = m := by
  unfold list
  rw [List.mem_filterMap]
  constructor
  · rintro ⟨slot, hslot, heq⟩
    obtain ⟨s, rfl, rfl⟩ := Option.map_eq_some_iff.mp heq
    exact ⟨s, hslot, rfl⟩
  · rintro ⟨s, hs, rfl⟩
    exact ⟨some s, hs, rfl⟩

theorem mem_slots_of_slot? {s : Slot} (h : g.slot? id = some s) : some s ∈ g.slots := by
  obtain ⟨i, _, hi⟩ := Option.bind_eq_some_iff.mp h
  rw [Option.join_eq_some_iff] at hi
  exact List.mem_of_getElem? hi

theorem slot?_eq_some_iff (h : g.Indexed) :
    g.slot? id = some s ↔ some s ∈ g.slots ∧ s.module.id = id := by
  unfold slot?
  rw [Option.bind_eq_some_iff]
  constructor
  · rintro ⟨i, hi, hs⟩
    rw [Option.join_eq_some_iff] at hs
    obtain ⟨s', hs', hid⟩ := (h.index id i).mp hi
    rw [hs] at hs'
    cases hs'
    exact ⟨List.mem_of_getElem? hs, hid⟩
  · rintro ⟨hs, hid⟩
    obtain ⟨i, hi⟩ := List.mem_iff_getElem?.mp hs
    exact ⟨i, (h.index id i).mpr ⟨s, hi, hid⟩, by rw [hi]; rfl⟩

theorem contains_iff (h : g.Indexed) : g.contains id = true ↔ ∃ m ∈ g.list, m.id = id := by
  unfold contains
  rw [Option.isSome_iff_exists]
  constructor
  · rintro ⟨i, hi⟩
    obtain ⟨s, hs, hid⟩ := (h.index id i).mp hi
    exact ⟨s.module, mem_list.mpr ⟨s, List.mem_of_getElem? hs, rfl⟩, hid⟩
  · rintro ⟨m, hm, hid⟩
    obtain ⟨s, hs, rfl⟩ := mem_list.mp hm
    obtain ⟨i, hi⟩ := List.mem_iff_getElem?.mp hs
    exact ⟨i, (h.index id i).mpr ⟨s, hi, hid⟩⟩

/-- No two modules have the same identifier. -/
theorem Indexed.nodup_ids (h : g.Indexed) : (g.list.map (·.id)).Nodup := by
  unfold list
  rw [List.Nodup, List.pairwise_map, List.pairwise_filterMap, List.pairwise_iff_getElem]
  intro i j hi hj hlt m hm m' hm' heq
  obtain ⟨s, hs, rfl⟩ := Option.map_eq_some_iff.mp hm
  obtain ⟨s', hs', rfl⟩ := Option.map_eq_some_iff.mp hm'
  have hfirst := (h.index _ i).mpr ⟨s, List.getElem?_eq_some_iff.mpr ⟨hi, hs⟩, rfl⟩
  have hsecond := (h.index _ j).mpr ⟨s', List.getElem?_eq_some_iff.mpr ⟨hj, hs'⟩, heq.symm⟩
  rw [hfirst] at hsecond
  cases hsecond
  omega

/-- Graphs of the same modules have a module in a slot of the same contents. -/
theorem Indexed.slot?_congr (h : g.Indexed) (h' : g'.Indexed) (hlist : g'.list = g.list)
    (id : ModuleId) : g'.slot? id = g.slot? id := by
  have hslot {a b : ModuleGraph} (ha : a.Indexed) (hb : b.Indexed) (hlist : a.list = b.list)
      {s : Slot} (hs : a.slot? id = some s) : b.slot? id = some s := by
    obtain ⟨hmem, hid⟩ := (slot?_eq_some_iff ha).mp hs
    obtain ⟨s', hmem', hmodule⟩ := mem_list.mp (hlist ▸ mem_list.mpr ⟨s, hmem, rfl⟩)
    have houtgoing : s'.outgoing = s.outgoing := by
      rw [ha.outgoing s hmem, hb.outgoing s' hmem', hmodule]
    have heq : s' = s := by
      cases s
      cases s'
      cases hmodule
      cases houtgoing
      rfl
    rw [← heq]
    exact (slot?_eq_some_iff hb).mpr ⟨hmem', heq ▸ hid⟩
  exact Option.ext fun s => ⟨hslot h' h hlist, hslot h h' hlist.symm⟩

theorem Indexed.contains_congr (h : g.Indexed) (h' : g'.Indexed) (hlist : g'.list = g.list)
    (id : ModuleId) : g'.contains id = g.contains id := by
  rw [Bool.eq_iff_iff, contains_iff h, contains_iff h', hlist]

/-! ### Taking in a module -/

theorem list_insert (h : g.insert m = .ok g') : g'.list = g.list ++ [m] := by
  obtain ⟨_, _, rfl⟩ := insert_ok h
  exact List.filterMap_append

theorem insert_eq_ok (hnew : g.contains m.id = false)
    (hbase : ∀ r ∈ m.relationships, r.base = m.id) : ∃ g', g.insert m = .ok g' := by
  have hfind : (m.relationships.find? fun r => r.base ≠ m.id) = none :=
    List.find?_eq_none.mpr fun r hr => by simpa using hbase r hr
  unfold insert
  rw [hnew, hfind]
  exact ⟨_, rfl⟩

theorem Indexed.insert (h : g.Indexed) (hinsert : g.insert m = .ok g') : g'.Indexed := by
  have hlist := list_insert hinsert
  obtain ⟨hcontains, hbase, rfl⟩ := insert_ok hinsert
  have hnew : List.lookup m.id g.index = none :=
    Option.not_isSome_iff_eq_none.mp (ne_true_of_eq_false hcontains)
  refine ⟨fun id i => ?_, ?_, ?_, ?_⟩
  · simp only [Assoc.lookup_put, List.getElem?_append]
    split
    · next hid =>
      subst hid
      split
      · next hlt =>
        -- the identifier is new, so no slot so far has it
        rw [← h.index, hnew]
        simp only [reduceCtorEq, iff_false, Option.some.injEq]
        omega
      · next hle =>
        constructor
        · rintro hi
          cases hi
          exact ⟨⟨m, m.relationships⟩, by simp, rfl⟩
        · rintro ⟨s, hs, _⟩
          obtain ⟨hlt, _⟩ := List.getElem?_eq_some_iff.mp hs
          have hlen : i - g.slots.length < 1 := hlt
          exact congrArg some (by omega)
    · next hid =>
      split
      · exact h.index id i
      · next hle =>
        constructor
        · intro hi
          obtain ⟨s, hs, _⟩ := (h.index id i).mp hi
          exact absurd (List.getElem?_eq_some_iff.mp hs).1 hle
        · rintro ⟨s, hs, rfl⟩
          have hmem := List.mem_of_getElem? hs
          cases List.mem_singleton.mp hmem
          exact absurd rfl hid
  · intro s hs
    rcases List.mem_append.mp hs with hs | hs
    · exact h.outgoing s hs
    · cases List.mem_singleton.mp hs
      rfl
  · rw [hlist]
    exact List.forall_mem_append.mpr ⟨h.base, List.forall_mem_singleton.mpr hbase⟩
  · rw [hlist]
    simp [h.count]

theorem WellKept.insert (h : g.WellKept) (hm : m.Legible) (hinsert : g.insert m = .ok g') :
    g'.WellKept := by
  refine ⟨h.toIndexed.insert hinsert, ?_⟩
  rw [list_insert hinsert]
  exact List.forall_mem_append.mpr ⟨h.legible, List.forall_mem_singleton.mpr hm⟩

theorem Indexed.create {name : String} (h : g.Indexed)
    (hcreate : g.create id name now = .ok (m, g')) : g'.Indexed := by
  obtain ⟨clean, _, hinsert⟩ := create_ok hcreate
  exact h.insert hinsert

theorem WellKept.create (h : g.WellKept) {name : String} (hnow : Word now)
    (hcreate : g.create id name now = .ok (m, g')) : g'.WellKept := by
  obtain ⟨clean, rfl, hinsert⟩ := create_ok hcreate
  exact h.insert ⟨List.forall_mem_nil _, hnow, hnow⟩ hinsert

/-! ### Filling a slot anew -/

/-- The module of a slot stands between others, and another or none may take its place. -/
theorem exists_split (h : g.slots[i]? = some (some s)) :
    ∃ before after, g.list = before ++ s.module :: after ∧ ∀ slot,
      list { g with slots := g.slots.set i slot } =
        before ++ (slot.map (·.module)).toList ++ after := by
  obtain ⟨hlt, hi⟩ := List.getElem?_eq_some_iff.mp h
  have hslots : g.slots = g.slots.take i ++ some s :: g.slots.drop (i + 1) := by
    rw [← hi, List.getElem_cons_drop, List.take_append_drop]
  refine ⟨(g.slots.take i).filterMap fun s => s.map (·.module),
    (g.slots.drop (i + 1)).filterMap fun s => s.map (·.module), ?_, fun slot => ?_⟩
  · rw [list, hslots, List.filterMap_append, List.filterMap_cons, ← hslots]
    rfl
  · rw [list, List.set_eq_take_append_cons_drop, if_pos hlt, List.filterMap_append,
      List.filterMap_cons]
    cases slot with
    | none => rw [Option.map_none, Option.toList_none, List.append_nil]
    | some s => rw [Option.map_some, Option.toList_some, List.append_assoc]; rfl

/-- Where the slot of a module stands. -/
theorem Indexed.setSlot_eq (h : g.Indexed) (hs : g.slot? id = some s) :
    ∃ i, List.lookup id g.index = some i ∧ g.slots[i]? = some (some s) ∧ s.module.id = id ∧
      ∀ slot, g.setSlot id slot = g.slots.set i slot := by
  obtain ⟨hmem, hid⟩ := (slot?_eq_some_iff h).mp hs
  obtain ⟨i, hi⟩ := List.mem_iff_getElem?.mp hmem
  have hindex := (h.index id i).mpr ⟨s, hi, hid⟩
  refine ⟨i, hindex, hi, hid, fun slot => ?_⟩
  rw [setSlot, Assoc.get?, hindex]

/-- The modules before and after one whose slot is filled anew. -/
theorem Indexed.list_setSlot (h : g.Indexed) (hs : g.slot? id = some s) :
    ∃ before after, g.list = before ++ s.module :: after ∧ ∀ slot index count,
      list ⟨g.setSlot id slot, index, count⟩ =
        before ++ (slot.map (·.module)).toList ++ after := by
  obtain ⟨i, _, hi, _, hset⟩ := h.setSlot_eq hs
  obtain ⟨before, after, hold, hsplit⟩ := exists_split hi
  refine ⟨before, after, hold, fun slot index count => ?_⟩
  rw [hset]
  exact hsplit slot

/-- A module that is there after a slot was filled anew is the one of the slot or was there. -/
theorem Indexed.mem_list_replace (h : g.Indexed) (hs : g.slot? id = some s) {s' : Slot}
    {count : Nat}
    (hm : m ∈ list { g with slots := g.setSlot id (some s'), relationshipCount := count }) :
    m = s'.module ∨ m ∈ g.list := by
  obtain ⟨before, after, hold, hlist⟩ := h.list_setSlot hs
  rw [hlist (some s'), Option.map_some, Option.toList_some] at hm
  rw [hold]
  simp only [List.mem_append, List.mem_cons, List.not_mem_nil, or_false] at hm ⊢
  tauto

/-- A slot may be filled anew for the same module. -/
theorem Indexed.replace (h : g.Indexed) (hs : g.slot? id = some s) {s' : Slot} {count : Nat}
    (hid : s'.module.id = id) (houtgoing : s'.outgoing = s'.module.relationships)
    (hbase : ∀ r ∈ s'.module.relationships, r.base = id)
    (hcount : count = g.relationshipCount - s.module.relationships.length +
      s'.module.relationships.length) :
    Indexed { g with slots := g.setSlot id (some s'), relationshipCount := count } := by
  obtain ⟨i, hindex, hi, hsid, hset⟩ := h.setSlot_eq hs
  refine ⟨fun other j => ?_, ?_, fun m hm r hr => ?_, ?_⟩
  · rw [h.index other j, hset, List.getElem?_set]
    split
    · next hij =>
      subst hij
      rw [if_pos (List.getElem?_eq_some_iff.mp hi).1, hi]
      constructor
      · rintro ⟨_, heq, rfl⟩
        cases heq
        exact ⟨s', rfl, hid.trans hsid.symm⟩
      · rintro ⟨_, heq, rfl⟩
        cases heq
        exact ⟨s, rfl, hsid.trans hid.symm⟩
    · exact Iff.rfl
  · rw [hset]
    intro slot hslot
    rcases List.mem_or_eq_of_mem_set hslot with hslot | heq
    · exact h.outgoing slot hslot
    · cases heq
      exact houtgoing
  · rcases h.mem_list_replace hs hm with rfl | hm
    · exact (hbase r hr).trans hid.symm
    · exact h.base m hm r hr
  · obtain ⟨before, after, hold, hlist⟩ := h.list_setSlot hs
    have hwhole := h.count
    rw [hold] at hwhole
    rw [hlist (some s'), hcount, hwhole]
    simp only [Option.map_some, Option.toList_some, List.flatMap_append, List.flatMap_cons,
      List.flatMap_nil, List.length_append, List.length_nil]
    omega

theorem WellKept.replace (h : g.WellKept) (hs : g.slot? id = some s) {s' : Slot} {count : Nat}
    (hindexed : Indexed { g with slots := g.setSlot id (some s'), relationshipCount := count })
    (hlegible : s'.module.Legible) :
    WellKept { g with slots := g.setSlot id (some s'), relationshipCount := count } := by
  refine ⟨hindexed, fun m hm => ?_⟩
  rcases h.mem_list_replace hs hm with rfl | hm
  · exact hlegible
  · exact h.legible m hm

/-- The relationships of a module can be taken from the count. -/
theorem Indexed.length_le_count (h : g.Indexed) (hm : m ∈ g.list) :
    m.relationships.length ≤ g.relationshipCount := by
  obtain ⟨before, after, hsplit⟩ := List.append_of_mem hm
  rw [h.count, hsplit, List.flatMap_append, List.flatMap_cons, List.length_append,
    List.length_append]
  omega

theorem Indexed.rename {name : String} (h : g.Indexed)
    (hrename : g.rename id name now = .ok (m, g')) : g'.Indexed := by
  obtain ⟨s, clean, hs, rfl, rfl⟩ := rename_ok hrename
  obtain ⟨hslot, hid⟩ := (slot?_eq_some_iff h).mp hs
  have hmem := mem_list.mpr ⟨s, hslot, rfl⟩
  exact h.replace hs hid (h.outgoing s hslot) (fun r hr => (h.base _ hmem r hr).trans hid)
    (Nat.sub_add_cancel (h.length_le_count hmem)).symm

theorem WellKept.rename (h : g.WellKept) {name : String} (hnow : Word now)
    (hrename : g.rename id name now = .ok (m, g')) : g'.WellKept := by
  have hindexed := h.toIndexed.rename hrename
  obtain ⟨s, clean, hs, rfl, rfl⟩ := rename_ok hrename
  obtain ⟨hslot, _⟩ := (slot?_eq_some_iff h.toIndexed).mp hs
  obtain ⟨hrelationships, hcreated, _⟩ := h.legible _ (mem_list.mpr ⟨s, hslot, rfl⟩)
  exact h.replace hs hindexed ⟨hrelationships, hcreated, hnow⟩

/-- A relationship that starts elsewhere is not let through. -/
theorem base_of_checkRelationship {r : Relationship} (h : g.checkRelationship id r = .ok ()) :
    r.base = id := by
  unfold checkRelationship at h
  split at h
  · cases h
  · next hbase => exact Decidable.not_not.mp hbase

theorem Indexed.setRelationships {rels : List Relationship} (h : g.Indexed)
    (hset : g.setRelationships id rels now = .ok (m, g')) : g'.Indexed := by
  obtain ⟨hcheck, s, hs, rfl, rfl⟩ := setRelationships_ok hset
  obtain ⟨_, hid⟩ := (slot?_eq_some_iff h).mp hs
  exact h.replace hs hid rfl (fun r hr => base_of_checkRelationship (hcheck r hr)) rfl

theorem WellKept.setRelationships (h : g.WellKept) {rels : List Relationship} (hnow : Word now)
    (hread : ∀ r ∈ rels, Relationship.ofJson? r.toJson.tree = some r)
    (hset : g.setRelationships id rels now = .ok (m, g')) : g'.WellKept := by
  have hindexed := h.toIndexed.setRelationships hset
  obtain ⟨_, s, hs, rfl, rfl⟩ := setRelationships_ok hset
  obtain ⟨hslot, _⟩ := (slot?_eq_some_iff h.toIndexed).mp hs
  obtain ⟨_, hcreated, _⟩ := h.legible _ (mem_list.mpr ⟨s, hslot, rfl⟩)
  exact h.replace hs hindexed ⟨hread, hcreated, hnow⟩

/-! ### Removal -/

/-- What is there after a removal was there before. -/
theorem Indexed.list_remove (h : g.Indexed) (hremove : g.remove id = .ok (m, g')) :
    ∃ before after, g.list = before ++ m :: after ∧ g'.list = before ++ after := by
  obtain ⟨s, hs, rfl, rfl⟩ := remove_ok hremove
  obtain ⟨before, after, hold, hlist⟩ := h.list_setSlot hs
  refine ⟨before, after, hold, ?_⟩
  rw [hlist none, Option.map_none, Option.toList_none, List.append_nil]

theorem Indexed.remove (h : g.Indexed) (hremove : g.remove id = .ok (m, g')) : g'.Indexed := by
  obtain ⟨before, after, hold, hlist⟩ := h.list_remove hremove
  have hmem : ∀ m ∈ g'.list, m ∈ g.list := by
    rw [hold, hlist]
    simp only [List.mem_append, List.mem_cons]
    tauto
  obtain ⟨s, hs, rfl, rfl⟩ := remove_ok hremove
  obtain ⟨i, hindex, hi, hsid, hset⟩ := h.setSlot_eq hs
  refine ⟨fun other j => ?_, ?_, fun m hm => h.base m (hmem m hm), ?_⟩
  · rw [hset none, Assoc.lookup_erase, List.getElem?_set]
    split
    · next hother =>
      subst hother
      simp only [reduceCtorEq, false_iff, not_exists, not_and]
      intro s' hs' hid
      split at hs'
      · split at hs' <;> cases hs'
      · next hij =>
        have hindex' := (h.index other j).mpr ⟨s', hs', hid⟩
        rw [hindex] at hindex'
        exact hij (Option.some.inj hindex')
    · next hother =>
      rw [h.index other j]
      split
      · next hij =>
        subst hij
        rw [if_pos (List.getElem?_eq_some_iff.mp hi).1, hi]
        constructor
        · rintro ⟨_, heq, hid⟩
          cases heq
          exact absurd (hid.symm.trans hsid) hother
        · rintro ⟨_, heq, _⟩
          cases heq
      · exact Iff.rfl
  · rw [hset none]
    intro slot hslot
    rcases List.mem_or_eq_of_mem_set hslot with hslot | heq
    · exact h.outgoing slot hslot
    · cases heq
  · have hwhole := h.count
    rw [hold] at hwhole
    rw [hlist, hwhole]
    simp only [List.flatMap_append, List.flatMap_cons, List.length_append]
    omega

theorem WellKept.remove (h : g.WellKept) (hremove : g.remove id = .ok (m, g')) :
    g'.WellKept := by
  obtain ⟨before, after, hold, hlist⟩ := h.toIndexed.list_remove hremove
  refine ⟨h.toIndexed.remove hremove, fun m' hm' => h.legible m' ?_⟩
  rw [hold]
  rw [hlist] at hm'
  exact (List.mem_append.mp hm').elim (List.mem_append_left _)
    fun hm' => List.mem_append_right _ (List.mem_cons_of_mem _ hm')

/-! ### Which modules there are -/

theorem contains_insert (hinsert : g.insert m = .ok g') (id : ModuleId) :
    g'.contains id = if id = m.id then true else g.contains id := by
  obtain ⟨_, _, rfl⟩ := insert_ok hinsert
  unfold contains Assoc.get?
  rw [Assoc.lookup_put]
  split <;> rfl

theorem contains_create {name : String} (hcreate : g.create id name now = .ok (m, g'))
    (other : ModuleId) : g'.contains other = if other = id then true else g.contains other := by
  obtain ⟨clean, rfl, hinsert⟩ := create_ok hcreate
  exact contains_insert hinsert other

theorem contains_rename {name : String} (hrename : g.rename id name now = .ok (m, g'))
    (other : ModuleId) : g'.contains other = g.contains other := by
  obtain ⟨s, clean, _, _, rfl⟩ := rename_ok hrename
  rfl

theorem contains_setRelationships {rels : List Relationship}
    (hset : g.setRelationships id rels now = .ok (m, g')) (other : ModuleId) :
    g'.contains other = g.contains other := by
  obtain ⟨_, s, _, _, rfl⟩ := setRelationships_ok hset
  rfl

theorem contains_remove (hremove : g.remove id = .ok (m, g')) (other : ModuleId) :
    g'.contains other = if other = id then false else g.contains other := by
  obtain ⟨s, _, _, rfl⟩ := remove_ok hremove
  unfold contains Assoc.get?
  rw [Assoc.lookup_erase]
  split <;> rfl

end ModuleGraph

/-! ## The fields -/

/-- One field at two times, between which the label may have moved. -/
structure Field.SameAs (g f : Field) : Prop where
  id : g.id = f.id
  module : g.module = f.module
  name : g.name = f.name
  dataType : g.dataType = f.dataType
  subfields : g.subfields = f.subfields

theorem Field.SameAs.refl (f : Field) : f.SameAs f := ⟨rfl, rfl, rfl, rfl, rfl⟩

namespace FieldTable

/-- Every field stands with its module, which owns its identifier, and a module has at most one
label. -/
structure Tidy (t : FieldTable) : Prop where
  keys : (t.byModule.map Prod.fst).Nodup
  home : ∀ module, ∀ f ∈ t.list module, f.module = module
  owned : ∀ module, ∀ f ∈ t.list module, List.lookup f.id t.owners = some module
  unique : ∀ module, ((t.list module).map (·.id)).Nodup
  label : ∀ module, ∀ f ∈ t.list module, ∀ g ∈ t.list module,
    f.isLabel = true → g.isLabel = true → f.id = g.id

/-- What is more, every field is read back from what is written of it. -/
structure WellKept (t : FieldTable) : Prop where
  keys : (t.byModule.map Prod.fst).Nodup
  home : ∀ module, ∀ f ∈ t.list module, f.module = module
  owned : ∀ module, ∀ f ∈ t.list module, List.lookup f.id t.owners = some module
  unique : ∀ module, ((t.list module).map (·.id)).Nodup
  label : ∀ module, ∀ f ∈ t.list module, ∀ g ∈ t.list module,
    f.isLabel = true → g.isLabel = true → f.id = g.id
  legible : ∀ module, ∀ f ∈ t.list module, f.Legible

variable {t t' : FieldTable} {f : Field} {module : ModuleId} {id : FieldId} {now : Int}

theorem WellKept.tidy (h : t.WellKept) : t.Tidy := ⟨h.keys, h.home, h.owned, h.unique, h.label⟩

theorem Tidy.wellKept (h : t.Tidy) (hlegible : ∀ module, ∀ f ∈ t.list module, f.Legible) :
    t.WellKept :=
  ⟨h.keys, h.home, h.owned, h.unique, h.label, hlegible⟩

theorem tidy_empty : empty.Tidy where
  keys := .nil
  home _ := List.forall_mem_nil _
  owned _ := List.forall_mem_nil _
  unique _ := .nil
  label _ := List.forall_mem_nil _

theorem wellKept_empty : empty.WellKept := tidy_empty.wellKept fun _ => List.forall_mem_nil _

/-! ### New fields -/

/-- What is left of a field when another one becomes the label. -/
def unlabelled (label : Bool) (f : Field) : Field :=
  if label then { f with isLabel := false } else f

theorem unlabelled_sameAs (label : Bool) (f : Field) : (unlabelled label f).SameAs f := by
  cases label <;> exact ⟨rfl, rfl, rfl, rfl, rfl⟩

theorem list_insert (t : FieldTable) (f : Field) (module : ModuleId) :
    (t.insert f).list module =
      if module = f.module then (t.list module).map (unlabelled f.isLabel) ++ [f]
      else t.list module := by
  unfold insert list Assoc.get?
  rw [Assoc.lookup_put]
  split
  · next h =>
    subst h
    cases f.isLabel with
    | true => rfl
    | false => exact congrArg (· ++ [f]) (List.map_id' _).symm
  · rfl

/-- A field of the enlarged table is the new one, or it was there, perhaps as the label. -/
theorem mem_list_insert {g : Field} (h : g ∈ (t.insert f).list module) :
    (module = f.module ∧ g = f) ∨ ∃ old ∈ t.list module, g.SameAs old ∧
      (old.Legible → g.Legible) ∧
      (g.isLabel = true → old.isLabel = true ∧ (module = f.module → f.isLabel = false)) := by
  rw [list_insert] at h
  split at h
  · next hmodule =>
    rcases List.mem_append.mp h with h | h
    · obtain ⟨old, hold, rfl⟩ := List.mem_map.mp h
      refine Or.inr ⟨old, hold, unlabelled_sameAs f.isLabel old, ?_⟩
      cases hf : f.isLabel with
      | true => exact ⟨fun h => ⟨h.1, h.2, h.3⟩, nofun⟩
      | false => exact ⟨id, fun hlabel => ⟨hlabel, fun _ => rfl⟩⟩
    · exact Or.inl ⟨hmodule, List.mem_singleton.mp h⟩
  · next hmodule =>
    exact Or.inr ⟨g, h, .refl g, id, fun hlabel => ⟨hlabel, fun hf => absurd hf hmodule⟩⟩

theorem Tidy.insert (h : t.Tidy) (hnew : List.lookup f.id t.owners = none) :
    (t.insert f).Tidy := by
  -- the owner of a field that was there keeps it apart from the new one
  have hapart (module : ModuleId) (old : Field) (hold : old ∈ t.list module) : old.id ≠ f.id := by
    intro hid
    have howner := h.owned module old hold
    rw [hid, hnew] at howner
    cases howner
  refine ⟨Assoc.nodup_keys_put h.keys _ _, fun module g hg => ?_, fun module g hg => ?_,
    fun module => ?_, fun module g hg g' hg' hlabel hlabel' => ?_⟩
  · rcases mem_list_insert hg with ⟨hmodule, rfl⟩ | ⟨old, hold, hsame, _⟩
    · exact hmodule.symm
    · exact hsame.module.trans (h.home module old hold)
  · show List.lookup g.id (Assoc.put f.id f.module t.owners) = some module
    rw [Assoc.lookup_put]
    rcases mem_list_insert hg with ⟨hmodule, rfl⟩ | ⟨old, hold, hsame, _⟩
    · rw [if_pos rfl, hmodule]
    · rw [hsame.id, if_neg (hapart module old hold), h.owned module old hold]
  · rw [list_insert]
    split
    · have hids : ((t.list module).map (unlabelled f.isLabel)).map (·.id) =
          (t.list module).map (·.id) := by
        rw [List.map_map]
        exact List.map_congr_left fun g _ => (unlabelled_sameAs _ g).id
      rw [List.map_append, hids, List.map_singleton]
      refine List.nodup_append.mpr ⟨h.unique module, List.pairwise_singleton _ _, ?_⟩
      rintro _ hid _ hnew rfl
      obtain ⟨old, hold, heq⟩ := List.mem_map.mp hid
      exact hapart module old hold (heq.trans (List.mem_singleton.mp hnew))
    · exact h.unique module
  · rcases mem_list_insert hg with ⟨hmodule, rfl⟩ | ⟨old, hold, hsame, _, hwas⟩
    · rcases mem_list_insert hg' with ⟨_, rfl⟩ | ⟨old', _, _, _, hwas'⟩
      · rfl
      · rw [(hwas' hlabel').2 hmodule] at hlabel
        cases hlabel
    · rcases mem_list_insert hg' with ⟨hmodule, rfl⟩ | ⟨old', hold', hsame', _, hwas'⟩
      · rw [(hwas hlabel).2 hmodule] at hlabel'
        cases hlabel'
      · rw [hsame.id, hsame'.id]
        exact h.label module old hold old' hold' (hwas hlabel).1 (hwas' hlabel').1

theorem WellKept.insert (h : t.WellKept) (hnew : List.lookup f.id t.owners = none)
    (hf : f.Legible) : (t.insert f).WellKept := by
  refine (h.tidy.insert hnew).wellKept fun module g hg => ?_
  rcases mem_list_insert hg with ⟨_, rfl⟩ | ⟨old, hold, _, hlegible, _⟩
  · exact hf
  · exact hlegible (h.legible module old hold)

/-- A draft that is accepted has a name that no field of its module has, an identifier that no field
has, and a data type that is there.  It has subfields only if it holds arrays. -/
theorem build_cases {c : Catalog} {d : FieldDraft} {fresh : FieldId}
    (h : t.build c d fresh now = .ok f) :
    ∃ name type, cleanName .field d.name = .ok name ∧
      List.lookup (d.id.getD fresh) t.owners = none ∧ t.getByName? d.module name = none ∧
      c.get? d.dataType = some type ∧ type.isActive = true ∧
      (∀ subfields, d.subfields = some subfields →
        type.kind = .array ∧ checkSubfields c name [] subfields = .ok ()) ∧
      f = { id := d.id.getD fresh, name, module := d.module, dataType := d.dataType,
            isLabel := d.isLabel, subfields := d.subfields, createdAt := now,
            updatedAt := now } := by
  unfold build at h
  obtain ⟨name, hname, h⟩ := bind_ok h
  dsimp only at h
  split at h
  · cases h
  · next hid =>
    split at h
    · cases h
    · next hfree =>
      split at h
      · cases h
      · next type htype =>
        split at h
        · cases h
        · next hactive =>
          refine ⟨name, type, hname, Option.not_isSome_iff_eq_none.mp hid, by simpa using hfree,
            htype, by simpa using hactive, ?_⟩
          split at h
          · next hnone =>
            cases h
            refine ⟨fun subfields hsome => ?_, rfl⟩
            rw [hnone] at hsome
            cases hsome
          · next subfields hsome =>
            split at h
            · obtain ⟨_, hrefused, _⟩ := bind_ok h
              cases hrefused
            · next hkind =>
              obtain ⟨_, hcheck, h⟩ := bind_ok h
              cases h
              refine ⟨fun subfields' hsome' => ?_, rfl⟩
              cases hsome.symm.trans hsome'
              exact ⟨Decidable.not_not.mp hkind, hcheck⟩

/-- What a new field takes from its draft and from the time, and whom it does not meet. -/
theorem build_ok {c : Catalog} {d : FieldDraft} {fresh : FieldId}
    (h : t.build c d fresh now = .ok f) :
    List.lookup f.id t.owners = none ∧ f.module = d.module ∧ f.subfields = d.subfields ∧
      f.createdAt = now ∧ f.updatedAt = now := by
  obtain ⟨name, type, _, hnew, _, _, _, _, rfl⟩ := build_cases h
  exact ⟨hnew, rfl, rfl, rfl, rfl⟩

/-! ### Labels -/

theorem relabelled_sameAs (id : FieldId) (now : Int) (f : Field) :
    (relabelled id now f).SameAs f := by
  dsimp only [relabelled]
  split <;> exact ⟨rfl, rfl, rfl, rfl, rfl⟩

@[simp] theorem relabelled_id (id : FieldId) (now : Int) (f : Field) :
    (relabelled id now f).id = f.id :=
  (relabelled_sameAs id now f).id

@[simp] theorem relabelled_isLabel (id : FieldId) (now : Int) (f : Field) :
    (relabelled id now f).isLabel = decide (f.id = id) := by
  dsimp only [relabelled]
  split
  · assumption
  · rfl

theorem legible_relabelled (h : f.Legible) (hnow : Word now) :
    (relabelled id now f).Legible := by
  dsimp only [relabelled]
  split
  · exact h
  · exact ⟨h.subfields, h.created, hnow⟩

theorem setLabel_ok (hset : t.setLabel module id now = .ok (f, t')) :
    t'.owners = t.owners ∧
      t'.byModule = Assoc.put module ((t.list module).map (relabelled id now)) t.byModule := by
  unfold FieldTable.setLabel at hset
  split at hset
  · cases hset
  · cases hset
    exact ⟨rfl, rfl⟩

theorem list_setLabel (hset : t.setLabel module id now = .ok (f, t')) (m : ModuleId) :
    t'.list m = if m = module then (t.list m).map (relabelled id now) else t.list m := by
  unfold list Assoc.get?
  rw [(setLabel_ok hset).2, Assoc.lookup_put]
  split
  · next hm =>
    rw [hm]
    rfl
  · rfl

/-- A field after the label has moved was there before, and if it is the label, it is the one chosen
or its module is another one. -/
theorem mem_list_setLabel (hset : t.setLabel module id now = .ok (f, t')) {m : ModuleId} {g : Field}
    (hg : g ∈ t'.list m) :
    ∃ old ∈ t.list m, g.SameAs old ∧ (Word now → old.Legible → g.Legible) ∧
      (g.isLabel = true → m = module ∧ g.id = id ∨ m ≠ module ∧ old.isLabel = true) := by
  rw [list_setLabel hset] at hg
  split at hg
  · next hm =>
    obtain ⟨old, hold, rfl⟩ := List.mem_map.mp hg
    refine ⟨old, hold, relabelled_sameAs .., fun hnow hl => legible_relabelled hl hnow,
      fun hlabel => Or.inl ⟨hm, ?_⟩⟩
    rw [relabelled_isLabel] at hlabel
    exact (relabelled_id ..).trans (of_decide_eq_true hlabel)
  · next hm => exact ⟨g, hg, .refl g, fun _ hl => hl, fun hlabel => Or.inr ⟨hm, hlabel⟩⟩

theorem Tidy.setLabel (h : t.Tidy) (hset : t.setLabel module id now = .ok (f, t')) : t'.Tidy := by
  obtain ⟨howners, hentries⟩ := setLabel_ok hset
  refine ⟨hentries ▸ Assoc.nodup_keys_put h.keys _ _, fun m g hg => ?_, fun m g hg => ?_,
    fun m => ?_, fun m g hg g' hg' hlabel hlabel' => ?_⟩
  · obtain ⟨old, hold, hsame, _⟩ := mem_list_setLabel hset hg
    exact hsame.module.trans (h.home m old hold)
  · obtain ⟨old, hold, hsame, _⟩ := mem_list_setLabel hset hg
    rw [hsame.id, howners]
    exact h.owned m old hold
  · have hids : (t'.list m).map (·.id) = (t.list m).map (·.id) := by
      rw [list_setLabel hset]
      split
      · rw [List.map_map]
        exact List.map_congr_left fun g _ => relabelled_id ..
      · rfl
    rw [hids]
    exact h.unique m
  · obtain ⟨old, hold, hsame, _, hlab⟩ := mem_list_setLabel hset hg
    obtain ⟨old', hold', hsame', _, hlab'⟩ := mem_list_setLabel hset hg'
    rcases hlab hlabel with ⟨_, heq⟩ | ⟨hm, hlab⟩
    · rcases hlab' hlabel' with ⟨_, heq'⟩ | ⟨hm', _⟩
      · exact heq.trans heq'.symm
      · contradiction
    · rcases hlab' hlabel' with ⟨hm', _⟩ | ⟨_, hlab'⟩
      · contradiction
      · rw [hsame.id, hsame'.id]
        exact h.label m old hold old' hold' hlab hlab'

theorem WellKept.setLabel (h : t.WellKept) (hnow : Word now)
    (hset : t.setLabel module id now = .ok (f, t')) :
    t'.WellKept ∧ ∀ m, ∀ g ∈ t'.list m, ∃ old ∈ t.list m, g.id = old.id := by
  refine ⟨(h.tidy.setLabel hset).wellKept fun m g hg => ?_, fun m g hg => ?_⟩
  · obtain ⟨old, hold, _, hlegible, _⟩ := mem_list_setLabel hset hg
    exact hlegible hnow (h.legible m old hold)
  · obtain ⟨old, hold, hsame, _⟩ := mem_list_setLabel hset hg
    exact ⟨old, hold, hsame.id⟩

/-! ### Removal -/

theorem lookup_disown {removed : List Field} {owners : Assoc FieldId ModuleId}
    (h : ∀ f ∈ removed, f.id ≠ id) :
    List.lookup id (disown removed owners) = List.lookup id owners := by
  unfold disown
  induction removed generalizing owners with
  | nil => rfl
  | cons f rest ih =>
    obtain ⟨hf, hrest⟩ := List.forall_mem_cons.mp h
    rw [List.foldl_cons, ih hrest, Assoc.lookup_erase_of_ne hf.symm]

/-- A table is still tidy without some of the fields, whose identifiers become free. -/
theorem Tidy.without (h : t.Tidy) {byModule : Assoc ModuleId (List Field)}
    {removed : List Field} (hkeys : (byModule.map Prod.fst).Nodup)
    (hsub : ∀ m, (list ⟨byModule, disown removed t.owners⟩ m).Sublist (t.list m))
    (hapart : ∀ m, ∀ f ∈ list ⟨byModule, disown removed t.owners⟩ m, ∀ g ∈ removed, g.id ≠ f.id) :
    Tidy ⟨byModule, disown removed t.owners⟩ where
  keys := hkeys
  home m f hf := h.home m f ((hsub m).subset hf)
  owned m f hf := (lookup_disown (hapart m f hf)).trans (h.owned m f ((hsub m).subset hf))
  unique m := (h.unique m).sublist ((hsub m).map _)
  label m f hf g hg := h.label m f ((hsub m).subset hf) g ((hsub m).subset hg)

theorem list_removeOf (t : FieldTable) (module m : ModuleId) :
    (t.removeOf module).2.list m = if m = module then [] else t.list m := by
  unfold removeOf list Assoc.get?
  rw [Assoc.lookup_erase]
  split <;> rfl

theorem list_removeOf_sublist (t : FieldTable) (module m : ModuleId) :
    ((t.removeOf module).2.list m).Sublist (t.list m) := by
  rw [list_removeOf]
  split
  · exact List.nil_sublist _
  · exact List.Sublist.refl _

theorem Tidy.removeOf (h : t.Tidy) (module : ModuleId) : (t.removeOf module).2.Tidy := by
  have hlist := list_removeOf t module
  have hsub := list_removeOf_sublist t module
  unfold FieldTable.removeOf at hlist hsub ⊢
  refine h.without (h.keys.sublist (List.filter_sublist.map _)) hsub fun m f hf g hg hid => ?_
  rw [hlist] at hf
  split at hf
  · cases hf
  · next hm =>
    have hfirst := h.owned module g hg
    rw [hid, h.owned m f hf] at hfirst
    exact hm (Option.some.inj hfirst)

theorem WellKept.removeOf (h : t.WellKept) (module : ModuleId) :
    (t.removeOf module).2.WellKept :=
  (h.tidy.removeOf module).wellKept fun m f hf =>
    h.legible m f ((list_removeOf_sublist t module m).subset hf)

theorem list_removeTyped (t : FieldTable) (type : DataTypeId) (m : ModuleId) :
    (t.removeTyped type).2.list m = (t.list m).filter fun f => f.dataType ≠ type := by
  unfold removeTyped list Assoc.get?
  rw [Assoc.lookup_map fun fields : List Field => fields.filter fun f => f.dataType ≠ type]
  cases List.lookup m t.byModule <;> rfl

theorem Tidy.removeTyped (h : t.Tidy) (type : DataTypeId) : (t.removeTyped type).2.Tidy := by
  have hlist := list_removeTyped t type
  unfold FieldTable.removeTyped at hlist ⊢
  refine h.without ?_ (fun m => ?_) fun m f hf g hg hid => ?_
  · rw [List.map_map]
    exact h.keys
  · rw [hlist]
    exact List.filter_sublist
  · rw [hlist] at hf
    obtain ⟨hf, htype⟩ := List.mem_filter.mp hf
    obtain ⟨⟨m', fields⟩, hentry, hg⟩ := List.mem_flatMap.mp hg
    obtain ⟨hg, htype'⟩ := List.mem_filter.mp hg
    have hg' : g ∈ t.list m' := by
      unfold list Assoc.get?
      rw [Assoc.lookup_of_mem h.keys hentry]
      exact hg
    have howner := h.owned m' g hg'
    rw [hid, h.owned m f hf] at howner
    cases howner
    -- fields of one module and one identifier are one field, of one data type
    have hsame : f = g := List.inj_on_of_nodup_map (h.unique m) hf hg' hid.symm
    simp [hsame, of_decide_eq_true htype'] at htype

theorem WellKept.removeTyped (h : t.WellKept) (type : DataTypeId) :
    (t.removeTyped type).2.WellKept := by
  refine (h.tidy.removeTyped type).wellKept fun m f hf => h.legible m f ?_
  rw [list_removeTyped] at hf
  exact List.mem_of_mem_filter hf

end FieldTable

end RecordRules
