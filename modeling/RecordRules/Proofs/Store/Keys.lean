/-
Records found by a key.

A search for records whose field equals a key lists the records of a module and keeps those whose
field means what the key means.  So keys that are loosely equal find the same records, and keys that
are not find none in common.
-/
import Mathlib.Data.List.Basic
import RecordRules.Proofs.Json.Equality
import RecordRules.Store.Memory

namespace RecordRules

namespace RecordStore

variable {σ : Type} [RecordStore σ] {store : σ} {module : ModuleId} {field : String}
  {key a b : Json} {found as bs : List Record}

theorem findByField_ok_iff :
    findByField store module field key = .ok found ↔
      ∃ all, list store module = .ok all ∧
        found = all.filter fun r => (r.get? field).any fun v => v.looselyEqual key := by
  unfold findByField
  cases list store module with
  | error e => simp [Except.map]
  | ok all => simp [Except.map, eq_comm]

/-- A record is found if it is listed and its field holds a value loosely equal to the key. -/
theorem mem_of_findByField (h : findByField store module field key = .ok found) :
    ∃ all, list store module = .ok all ∧ ∀ r, r ∈ found ↔
      r ∈ all ∧ ∃ v, r.get? field = some v ∧ v.looselyEqual key = true := by
  obtain ⟨all, hall, rfl⟩ := findByField_ok_iff.mp h
  refine ⟨all, hall, fun r => ?_⟩
  rw [List.mem_filter, Option.any_eq_true]

theorem findByField_congr (h : a.looselyEqual b = true) :
    findByField store module field a = findByField store module field b := by
  have hsame (v : Json) : v.looselyEqual a = v.looselyEqual b := by
    rw [Bool.eq_iff_iff, Json.looselyEqual_iff_meaning_eq, Json.looselyEqual_iff_meaning_eq,
      Json.looselyEqual_iff_meaning_eq.mp h]
  unfold findByField
  simp only [hsame]

theorem disjoint_findByField (h : a.looselyEqual b = false)
    (ha : findByField store module field a = .ok as)
    (hb : findByField store module field b = .ok bs) : as.Disjoint bs := by
  intro r hra hrb
  obtain ⟨_, -, hfound⟩ := mem_of_findByField ha
  obtain ⟨_, -, hfound'⟩ := mem_of_findByField hb
  obtain ⟨-, v, hv, hva⟩ := (hfound r).mp hra
  obtain ⟨-, w, hw, hwb⟩ := (hfound' r).mp hrb
  rw [hv] at hw
  cases hw
  have hab := Json.looselyEqual_equivalence.trans (Json.looselyEqual_equivalence.symm hva) hwb
  rw [h] at hab
  cases hab

end RecordStore

/-- Loose equality is an equivalence on all values, and a search by a field follows it in every
store: it finds the listed records whose field is loosely equal to the key, the same ones for keys
that are loosely equal, and none in common for keys that are not. -/
theorem searches_respect_loose_equality :
    Equivalence (fun a b : Json => a.looselyEqual b = true) ∧
      ∀ {σ : Type} [RecordStore σ] (store : σ) (module : ModuleId) (field : String),
        (∀ key found, RecordStore.findByField store module field key = .ok found →
          ∃ all, RecordStore.list store module = .ok all ∧ ∀ r, r ∈ found ↔
            r ∈ all ∧ ∃ v, r.get? field = some v ∧ v.looselyEqual key = true) ∧
        (∀ a b : Json, a.looselyEqual b = true →
          RecordStore.findByField store module field a =
            RecordStore.findByField store module field b) ∧
        ∀ a b : Json, a.looselyEqual b = false → ∀ as bs,
          RecordStore.findByField store module field a = .ok as →
            RecordStore.findByField store module field b = .ok bs → as.Disjoint bs :=
  ⟨Json.looselyEqual_equivalence, fun _ _ _ =>
    ⟨fun _ _ => RecordStore.mem_of_findByField, fun _ _ => RecordStore.findByField_congr,
      fun _ _ h _ _ => RecordStore.disjoint_findByField h⟩⟩

namespace Sample

def tag : Record :=
  ⟨⟨"tag", by decide +kernel⟩, ⟨"tags", by decide +kernel⟩, .object [("no", .ofInt 0)], 0, 0⟩

def tags : MemoryStore := ⟨[tag]⟩

def floatZero : Json := .number (.float .zero)

end Sample

/-- A text that spells zero finds what the float finds, since both are loosely equal to the integer,
and null finds nothing of it. -/
theorem searches_respect_loose_equality_on_sample :
    (Json.string " 0 ").looselyEqual Sample.floatZero = true ∧
      ∃ found,
        RecordStore.findByField Sample.tags Sample.tag.module "no" (.string " 0 ") = .ok found ∧
        RecordStore.findByField Sample.tags Sample.tag.module "no" Sample.floatZero = .ok found ∧
        Sample.tag ∈ found ∧
        ∀ others, RecordStore.findByField Sample.tags Sample.tag.module "no" .null = .ok others →
          found.Disjoint others := by
  have htext : (Json.string " 0 ").looselyEqual (.ofInt 0) = true := by decide +kernel
  have hfloat : (Json.ofInt 0).looselyEqual Sample.floatZero = true := by decide +kernel
  have hnull : (Json.string " 0 ").looselyEqual .null = false := by decide +kernel
  obtain ⟨hequivalence, hsearch⟩ := searches_respect_loose_equality
  obtain ⟨hfinds, hsame, hdisjoint⟩ := hsearch Sample.tags Sample.tag.module "no"
  have hequal := hequivalence.trans htext hfloat
  have hfound : RecordStore.findByField Sample.tags Sample.tag.module "no" (.string " 0 ") =
      .ok (Sample.tags.list Sample.tag.module |>.filter fun r =>
        (r.get? "no").any fun v => v.looselyEqual (.string " 0 ")) := rfl
  refine ⟨hequal, _, hfound, (hsame _ _ hequal).symm.trans hfound, ?_, fun others hothers =>
    hdisjoint _ _ hnull _ _ hfound hothers⟩
  obtain ⟨all, hall, hmem⟩ := hfinds _ _ hfound
  cases hall
  exact (hmem Sample.tag).mpr ⟨List.mem_singleton_self _, .ofInt 0, rfl, hequivalence.symm htext⟩

end RecordRules
