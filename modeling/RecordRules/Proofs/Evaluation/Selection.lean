/-
Which records a binding selects.

A binding is resolved on a record, or on each of its array elements if the key of the binding is
read there.  What it selects is said here without a store: the targets of a rule are the records of
its target module, among those that are there, that its binding selects.
-/
import RecordRules.Proofs.Evaluation.Branches
import RecordRules.Proofs.Evaluation.Sources
import RecordRules.Proofs.Store.Mirror

namespace RecordRules

/-! ## Selected records -/

/-- The key that a source gives on a record or on one of its array elements. -/
def Record.KeyAt (r : Record) (element : Option Json) (address : String) (key : Json) : Prop :=
  ∃ source, Source.parse address = .ok source ∧ r.readFrom? element source = some key ∧
    key.isNull = false

theorem Record.KeyAt.unique {r : Record} {element : Option Json} {address : String}
    {key key' : Json} (h : r.KeyAt element address key) (h' : r.KeyAt element address key') :
    key = key' := by
  obtain ⟨source, hsource, hread, _⟩ := h
  obtain ⟨source', hsource', hread', _⟩ := h'
  rw [hsource] at hsource'
  cases hsource'
  exact Option.some.inj (hread.symm.trans hread')

namespace Binding

/-- A binding that is resolved on a record or on one of its array elements selects another record.
A sole record is not selected in this sense, since it depends on the others of its module. -/
inductive Selects (registry : Registry) (r : Record) (element : Option Json) (target : Record) :
    Binding → Prop where
  | record : Selects registry r element target (.record target.id)
  | source (same : target.id = r.id) : Selects registry r element target .source
  | foreignKey {address : String} {key : Json} (read : r.KeyAt element address key)
      (id : Ident.ofString? (keyText key) = some target.id) :
      Selects registry r element target (.foreignKey address)
  | byMatch {address field name : String} {key value : Json} (read : r.KeyAt element address key)
      (named : matchField registry target.module field = .ok name)
      (held : target.get? name = some value) (equal : value.looselyEqual key = true) :
      Selects registry r element target (.byMatch address field)

/-- What a binding is resolved on: the array elements of a record in which its key is read, or the
record as a whole. -/
inductive ResolvedOn (registry : Registry) (r : Record) (b : Binding) : Option Json → Prop where
  | whole (plain : ∀ text subfield, b.keySource? = some text →
      Source.parse text ≠ .ok (.item subfield)) : ResolvedOn registry r b none
  | element {text subfield name : String} {items : List Item} {item : Item}
      (key : b.keySource? = some text) (parsed : Source.parse text = .ok (.item subfield))
      (array : r.items subfield (registry.listFields r.module) = .ok (name, items))
      (mem : item ∈ items) : ResolvedOn registry r b (some item.element)

end Binding

/-! ## The targets that are found -/

section

variable {store : MemoryStore} {module : ModuleId} {id : RecordId} {r target : Record}
  {element : Option Json}

theorem readKey_ok_iff {address : String} {key : Json} :
    readKey address r element = .ok key ↔ r.KeyAt element address key := by
  unfold readKey
  constructor
  · intro h
    split at h
    · cases h
    · next source hparse =>
      split at h
      · next v hv =>
        cases h
        obtain ⟨hread, hnull⟩ := Option.filter_eq_some_iff.mp hv
        exact ⟨source, hparse, hread, by simpa using hnull⟩
      · cases h
  · rintro ⟨source, hparse, hread, hnull⟩
    rw [hparse]
    dsimp only
    rw [hread, Option.filter_some, hnull]
    rfl

section

variable {σ : Type} [RecordStore σ] {store : σ} {ts : List Record}

theorem exists_of_fetch (h : fetch store module id = .ok ts) :
    ∃ t, RecordStore.get store module id = .ok (some t) ∧ ts = [t] := by
  cases fetch_fetched h with
  | found hget => exact ⟨_, hget, rfl⟩

/-- A match leads to records that are found by its key. -/
theorem targets_byMatch_ok {registry : Registry} {address field : String}
    (h : (Binding.byMatch address field).targets registry store module r element = .ok ts) :
    ∃ key name, r.KeyAt element address key ∧ matchField registry module field = .ok name ∧
      RecordStore.findByField store module name key = .ok ts := by
  cases Binding.targets_searched h with
  | byMatch hread hnamed hfind => exact ⟨_, _, readKey_ok_iff.mp hread, hnamed, hfind⟩

end

namespace MemoryStore

theorem fetch_ok {targets : List Record} (h : fetch store module id = .ok targets) :
    ∃ t, store.find? module id = some t ∧ targets = [t] := by
  obtain ⟨t, hget, rfl⟩ := exists_of_fetch h
  exact ⟨t, Except.ok.inj hget, rfl⟩

/-- A fetched record is the one of its identifier. -/
theorem Keyed.mem_fetch (h : store.Keyed) :
    (∃ ts, fetch store module id = .ok ts ∧ target ∈ ts) ↔
      target ∈ store.records ∧ target.module = module ∧ target.id = id := by
  constructor
  · rintro ⟨ts, hts, hmem⟩
    obtain ⟨t, hfind, rfl⟩ := fetch_ok hts
    rw [List.mem_singleton.mp hmem]
    exact ⟨mem_of_find? hfind, key_of_find? hfind⟩
  · rintro ⟨hmem, rfl, rfl⟩
    refine ⟨[target], ?_, List.mem_singleton_self _⟩
    show found _ (store.find? target.module target.id) = _
    rw [h.find?_of_mem hmem]
    rfl

variable {registry : Registry} {address field : String}

/-- The target of a foreign key is the record that the key names. -/
theorem mem_targets_foreignKey :
    (∃ ts, (Binding.foreignKey address).targets registry store module r element = .ok ts ∧
      target ∈ ts) ↔
    ∃ key id, r.KeyAt element address key ∧ Ident.ofString? (keyText key) = some id ∧
      ∃ ts, fetch store module id = .ok ts ∧ target ∈ ts := by
  constructor
  · rintro ⟨ts, hts, hmem⟩
    cases Binding.targets_searched hts with
    | foreignKey hread hid hfetched =>
      exact ⟨_, _, readKey_ok_iff.mp hread, hid, ts, hfetched, hmem⟩
  · rintro ⟨key, id, hread, hid, ts, hts, hmem⟩
    refine ⟨ts, ?_, hmem⟩
    unfold Binding.targets
    simp only [readKey_ok_iff.mpr hread, bind, Except.bind, hid]
    exact hts

/-- The targets of a match are the records whose field loosely equals the key. -/
theorem mem_targets_byMatch :
    (∃ ts, (Binding.byMatch address field).targets registry store module r element = .ok ts ∧
      target ∈ ts) ↔
    ∃ key name, r.KeyAt element address key ∧ matchField registry module field = .ok name ∧
      target ∈ (store.list module).filter fun t =>
        (t.get? name).any fun v => v.looselyEqual key := by
  have hfind (name : String) (key : Json) : asking (RecordStore.findByField store module name key) =
      .ok ((store.list module).filter fun t =>
        (t.get? name).any fun v => v.looselyEqual key) := rfl
  constructor
  · rintro ⟨ts, hts, hmem⟩
    obtain ⟨key, name, hkey, hname, hfound⟩ := targets_byMatch_ok hts
    cases hfound
    exact ⟨key, name, hkey, hname, hmem⟩
  · rintro ⟨key, name, hread, hname, hmem⟩
    refine ⟨_, ?_, hmem⟩
    obtain ⟨first, rest, hcons⟩ := List.exists_cons_of_ne_nil (List.ne_nil_of_mem hmem)
    unfold Binding.targets
    simp only [readKey_ok_iff.mpr hread, bind, Except.bind, hname, hfind, hcons]
    rfl

/-- The targets of a binding are the records of the target module that it selects. -/
theorem Keyed.mem_targets (h : store.Keyed) {b : Binding} (hsole : b ≠ .sole) :
    (∃ ts, b.targets registry store module r element = .ok ts ∧ target ∈ ts) ↔
      target ∈ store.records ∧ target.module = module ∧ b.Selects registry r element target := by
  cases b with
  | sole => exact absurd rfl hsole
  | record id =>
    refine h.mem_fetch.trans (and_congr_right fun _ => and_congr_right fun _ => ?_)
    constructor
    · rintro rfl
      exact .record
    · intro hselects
      cases hselects
      rfl
  | source =>
    refine h.mem_fetch.trans (and_congr_right fun _ => and_congr_right fun _ => ?_)
    constructor
    · exact .source
    · intro hselects
      cases hselects with
      | source same => exact same
  | foreignKey address =>
    refine mem_targets_foreignKey.trans ⟨?_, ?_⟩
    · rintro ⟨key, id, hread, hid, hfetched⟩
      obtain ⟨hthere, hmodule, rfl⟩ := h.mem_fetch.mp hfetched
      exact ⟨hthere, hmodule, .foreignKey hread hid⟩
    · rintro ⟨hthere, hmodule, hselects⟩
      cases hselects with
      | foreignKey hread hid => exact ⟨_, _, hread, hid, h.mem_fetch.mpr ⟨hthere, hmodule, rfl⟩⟩
  | byMatch address field =>
    refine mem_targets_byMatch.trans ⟨?_, ?_⟩
    · rintro ⟨key, name, hread, hname, hmem⟩
      obtain ⟨hlist, heq⟩ := List.mem_filter.mp hmem
      obtain ⟨hthere, hmodule⟩ := List.mem_filter.mp hlist
      obtain rfl := of_decide_eq_true hmodule
      obtain ⟨value, hvalue, heq⟩ := (Option.any_eq_true ..).mp heq
      exact ⟨hthere, rfl, .byMatch hread hname hvalue heq⟩
    · rintro ⟨hthere, rfl, hselects⟩
      cases hselects with
      | @byMatch _ _ name key value hread hname hvalue heq =>
        refine ⟨key, name, hread, hname,
          List.mem_filter.mpr ⟨List.mem_filter.mpr ⟨hthere, by simp⟩, ?_⟩⟩
        rw [hvalue]
        exact heq

end MemoryStore

end

/-! ## The applications of a rule without a source -/

theorem Binding.Selects.parse_key {registry : Registry} {r target : Record} {element : Option Json}
    {b : Binding} (h : b.Selects registry r element target) :
    ∀ text, b.keySource? = some text → ∃ source, Source.parse text = .ok source := by
  rintro text hkey
  cases h with
  | record => cases hkey
  | source => cases hkey
  | foreignKey hread | byMatch hread =>
    cases hkey
    obtain ⟨source, hparse, _⟩ := hread
    exact ⟨source, hparse⟩

section

variable {c : Scope} {registry : Registry} {element : Option Json}

/-- The record as a whole or each element has an application, unless the key does not read. -/
theorem Scope.applications_of_resolvedOn (hsource : c.rule.source = none)
    (hfields : c.fields = registry.listFields c.trigger.record.module)
    (h : c.binding.ResolvedOn registry c.trigger.record element)
    (hparse : ∀ text, c.binding.keySource? = some text → ∃ source, Source.parse text = .ok source) :
    ∃ source applications, c.applications = .ok (source, applications) ∧
      ∃ a ∈ applications, a.item.map (·.element) = element := by
  have hnone : parseSource c.rule.source = .ok none := by rw [hsource, parseSource]
  cases h with
  | whole hplain =>
    obtain ⟨key, hkey, hfan⟩ :
        ∃ key, parseSource c.binding.keySource? = .ok key ∧ fanOut? none key = none := by
      cases hkey : c.binding.keySource? with
      | none => exact ⟨none, rfl, rfl⟩
      | some text =>
        obtain ⟨source, hsource⟩ := hparse text hkey
        refine ⟨some source, parseSource_of_parse hsource, ?_⟩
        cases source with
        | field name => rfl
        | item subfield => exact absurd hsource (hplain text subfield hkey)
    exact ⟨none, _, applications_of_whole hnone hkey hfan, _, List.mem_singleton_self _, rfl⟩
  | @element text subfield name items item hbinding hparsed harray hmem =>
    have hkey : parseSource c.binding.keySource? = .ok (some (.item subfield)) := by
      rw [hbinding, parseSource_of_parse hparsed]
    rw [← hfields] at harray
    exact ⟨none, _, applications_of_items hnone hkey rfl harray, _, List.mem_map_of_mem hmem, rfl⟩

theorem Scope.resolvedOn_of_applications (hsource : c.rule.source = none)
    (hfields : c.fields = registry.listFields c.trigger.record.module)
    {source : Option Source} {applications : List Application}
    (h : c.applications = .ok (source, applications)) {a : Application} (ha : a ∈ applications) :
    c.binding.ResolvedOn registry c.trigger.record (a.item.map (·.element)) := by
  obtain ⟨key, hnone, hkey, hcases⟩ := c.applications_cases h
  rw [hsource] at hnone
  cases hnone
  rcases hcases with ⟨hfan, rfl⟩ | ⟨subfield, name, items, hfan, hitems, rfl⟩
  · rw [List.mem_singleton.mp ha]
    refine .whole fun text subfield hsome hitem => ?_
    rw [hsome, parseSource, hitem] at hkey
    cases hkey
    cases hfan
  · obtain ⟨item, hitem, rfl⟩ := List.mem_map.mp ha
    obtain rfl := fanOut?_none_eq_some_iff.mp hfan
    obtain ⟨text, hbinding, hparse⟩ := parseSource_some hkey
    exact .element hbinding hparse (hfields ▸ hitems) hitem

end

end RecordRules
