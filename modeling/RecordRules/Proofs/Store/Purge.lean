/-
Stores that clear out a module.

A purge takes out all that is held of a module, whether it reads or not, and nothing that is held of
another one.  Only putting in a record of the module brings something back: what a run does needs a
record that is there, and so does a replacement of data.
-/
import RecordRules.Proofs.Assoc
import RecordRules.Proofs.Store.Modular

namespace RecordRules

open ModularStore (holdings)

/-- A store that counts and purges the records of each module apart, and writes a whole record to
its own module only. -/
class PurgingStore (σ : Type) [RecordStore σ] [ModularStore σ] : Prop where
  count_eq (s : σ) (module : ModuleId) :
    RecordStore.count s module = (holdings s module).length
  purge_eq (s : σ) (module : ModuleId) :
    (RecordStore.purge s module).1 = (holdings s module).length
  holdings_purge (s : σ) (module other : ModuleId) :
    holdings (RecordStore.purge s module).2 other =
      if other = module then [] else holdings s other
  holdings_insert_of_ne {s t : σ} {r : Record} {other : ModuleId} :
    RecordStore.insert s r = .ok t → other ≠ r.module → holdings t other = holdings s other
  holdings_replaceData_of_ne {s t : σ} {module other : ModuleId} {id : RecordId} {data : Json}
      {now : Int} {new : Record} :
    RecordStore.replaceData s module id data now = .ok (new, t) → other ≠ module →
      holdings t other = holdings s other

section

variable {σ : Type} [RecordStore σ] [ModularStore σ] {s : σ} {module : ModuleId}

theorem ModularStore.get_of_holdings_nil (h : holdings s module = []) (id : RecordId) :
    RecordStore.get s module id = .ok none := by
  rw [ModularStore.get_eq, h]
  rfl

theorem ModularStore.list_of_holdings_nil (h : holdings s module = []) :
    RecordStore.list s module = .ok [] := by
  rw [ModularStore.list_eq, h]
  rfl

theorem PurgingStore.holdings_purge_of_ne [PurgingStore σ] (s : σ) {module other : ModuleId}
    (h : other ≠ module) :
    holdings (RecordStore.purge s module).2 other = holdings s other := by
  rw [PurgingStore.holdings_purge, if_neg h]

/-- Nothing is left under the key that was filtered out, and all is left under other keys. -/
theorem filter_key_filter_ne {α κ : Type} [DecidableEq κ] (key : α → κ) (l : List α) (a b : κ) :
    ((l.filter fun x => key x ≠ a).filter fun x => key x = b) =
      if b = a then [] else l.filter fun x => key x = b := by
  rw [List.filter_filter]
  split
  · next heq =>
    refine List.filter_eq_nil_iff.mpr fun x _ hx => ?_
    simp [heq] at hx
  · next hne =>
    refine List.filter_congr fun x _ => ?_
    by_cases hx : key x = b
    · simp [hx, hne]
    · simp [hx]

end

/-! ## Records as they are -/

namespace MemoryStore

theorem list_insert_of_ne {s t : MemoryStore} {r : Record} (h : RecordStore.insert s r = .ok t)
    {other : ModuleId} (hne : other ≠ r.module) : t.list other = s.list other := by
  rw [(insert_ok h).2]
  refine filter_insertBefore_of_neg ?_ s.records
  exact decide_eq_false hne.symm

theorem list_purge (s : MemoryStore) (module other : ModuleId) :
    (s.purge module).2.list other = if other = module then [] else s.list other :=
  filter_key_filter_ne Record.module s.records module other

instance : PurgingStore MemoryStore where
  count_eq _ _ := (List.length_map _).symm
  purge_eq _ _ := (List.length_map _).symm
  holdings_purge s module other := by
    show ((s.purge module).2.list other).map holding = _
    rw [list_purge]
    split <;> rfl
  holdings_insert_of_ne h hne := congrArg (List.map holding) (list_insert_of_ne h hne)
  holdings_replaceData_of_ne h hne := by
    obtain ⟨r, hr, rfl, rfl⟩ := replaceData_ok h
    have hmodule : r.module = _ := (key_of_find? hr).1
    exact congrArg (List.map holding) (list_replace_of_ne _ (hmodule ▸ hne))

end MemoryStore

/-! ## Rows of text -/

namespace TableStore

theorem rowsOf_insert_of_ne {s t : TableStore} {r : Record} (h : RecordStore.insert s r = .ok t)
    {other : ModuleId} (hne : other ≠ r.module) : t.rowsOf other = s.rowsOf other := by
  rw [(insert_ok h).2]
  refine filter_insertBefore_of_neg ?_ s.rows
  exact beq_eq_false_iff_ne.mpr fun heq => hne (Ident.ext_text heq).symm

theorem rowsOf_purge (s : TableStore) (module other : ModuleId) :
    (s.purge module).2.rowsOf other = if other = module then [] else s.rowsOf other := by
  unfold rowsOf purge
  simp only [bne, beq_eq_decide, ← decide_not]
  refine (filter_key_filter_ne Row.module s.rows module.text other.text).trans ?_
  refine if_congr ⟨Ident.ext_text, ?_⟩ rfl rfl
  rintro rfl
  rfl

instance : PurgingStore TableStore where
  count_eq _ _ := (List.length_map _).symm
  purge_eq _ _ := (List.length_map _).symm
  holdings_purge s module other := by
    show ((s.purge module).2.rowsOf other).map Row.holding = _
    rw [rowsOf_purge]
    split <;> rfl
  holdings_insert_of_ne h hne := congrArg (List.map Row.holding) (rowsOf_insert_of_ne h hne)
  holdings_replaceData_of_ne h hne := by
    obtain ⟨r, hr, rfl, rfl⟩ := replaceData_ok h
    have hmodule : r.module = _ := (key_of_get hr).1
    exact congrArg (List.map Row.holding) (rowsOf_replace_of_ne _ (hmodule ▸ hne))

end TableStore
end RecordRules
