/-
The slots of a graph and the edits that filled them.

An edit of a graph is made in place, and a row of edits leads from the empty graph to another one,
the edits that fail included.  A module was born with the edit that took it in last.  However a
graph has come about, its index leads to the slots of the modules that were born and not removed
since, and the modules are listed in the order of their births.
-/
import Mathlib.Data.List.Forall2
import Mathlib.Data.List.Induction
import RecordRules.Proofs.Registry.InPlace
import RecordRules.Proofs.Registry.Leads
import RecordRules.Proofs.Registry.Snapshot

namespace RecordRules

theorem exists_split_of_forall₂ {α β : Type} {R : α → β → Prop} {before after : List α} {x : α}
    {l : List β} (h : List.Forall₂ R (before ++ x :: after) l) :
    ∃ l₁ y l₂, l = l₁ ++ y :: l₂ ∧ List.Forall₂ R before l₁ ∧ List.Forall₂ R after l₂ := by
  induction before generalizing l with
  | nil =>
    cases h with
    | cons _ hafter => exact ⟨[], _, _, rfl, .nil, hafter⟩
  | cons a rest ih =>
    cases h with
    | cons ha hrest =>
      obtain ⟨l₁, y, l₂, rfl, hbefore, hafter⟩ := ih hrest
      exact ⟨_ :: l₁, y, l₂, rfl, .cons ha hbefore, hafter⟩

namespace ModuleGraph

/-! ## Edits of a graph -/

inductive Edit where
  | insert (m : Module)
  | create (id : ModuleId) (name : String) (now : Int)
  | rename (id : ModuleId) (name : String) (now : Int)
  | setRelationships (id : ModuleId) (relationships : List Relationship) (now : Int)
  | remove (id : ModuleId)

namespace Edit

/-- An edit as it is made in place. -/
def inPlace : Edit → InPlace ModuleGraph Unit
  | insert m => InPlace.Graph.insert m
  | create id name now => discard (InPlace.Graph.create id name now)
  | rename id name now => discard (InPlace.Graph.rename id name now)
  | setRelationships id relationships now =>
    discard (InPlace.Graph.setRelationships id relationships now)
  | remove id => discard (InPlace.Graph.remove id)

/-- The graph after an edit, or why the edit is refused. -/
def perform (g : ModuleGraph) : Edit → Except RegistryError ModuleGraph
  | insert m => g.insert m
  | create id name now => (g.create id name now).map (·.2)
  | rename id name now => (g.rename id name now).map (·.2)
  | setRelationships id relationships now => (g.setRelationships id relationships now).map (·.2)
  | remove id => (g.remove id).map (·.2)

/-- The module that an edit takes in. -/
def takesIn : Edit → Option ModuleId
  | insert m => some m.id
  | create id _ _ => some id
  | _ => none

/-- The module that an edit removes. -/
def takesOut : Edit → Option ModuleId
  | remove id => some id
  | _ => none

def Succeeds (e : Edit) (g : ModuleGraph) : Prop := ∃ g', e.inPlace g = .ok () g'

end Edit

/-- The graph that a row of edits leaves, whichever of them fail. -/
def edited (g : ModuleGraph) (es : List Edit) : ModuleGraph :=
  es.foldl (fun g e => e.inPlace.leaves g) g

def after (es : List Edit) : ModuleGraph := edited .empty es

/-- The edit at a place of a row took in a module, and none after it has removed the module. -/
def BornAt (es : List Edit) (n : Nat) (id : ModuleId) : Prop :=
  (∃ e, es[n]? = some e ∧ e.takesIn = some id ∧ e.Succeeds (after (es.take n))) ∧
  ∀ k e, n < k → es[k]? = some e → e.takesOut = some id → ¬e.Succeeds (after (es.take k))

/-- What a graph stores agrees with itself and with the edits that have led to the graph. -/
structure TrueTo (g : ModuleGraph) (es : List Edit) : Prop where
  /-- The index knows the modules that were born and are not removed. -/
  live : ∀ id, g.contains id = true ↔ ∃ n, BornAt es n id
  /-- The index leads to slots that are filled, never to an empty one. -/
  found : ∀ id i, List.lookup id g.index = some i →
    ∃ s, g.slots[i]? = some (some s) ∧ s.module.id = id
  /-- The index leads to each slot that is filled, from the identifier of its module only. -/
  indexed : ∀ i s, g.slots[i]? = some (some s) → List.lookup s.module.id g.index = some i
  apart : ∀ id id' i, List.lookup id g.index = some i → List.lookup id' g.index = some i → id = id'
  outgoing : ∀ s, some s ∈ g.slots → s.outgoing = s.module.relationships
  base : ∀ m ∈ g.list, ∀ r ∈ m.relationships, r.base = m.id
  count : g.relationshipCount = (g.list.flatMap fun m => m.relationships).length
  /-- The relationships of a module can be taken from the count. -/
  countable : ∀ m ∈ g.list, m.relationships.length ≤ g.relationshipCount
  order : ∃ births : List Nat, births.Pairwise (· < ·) ∧
    List.Forall₂ (fun m n => BornAt es n m.id) g.list births

variable {g g' : ModuleGraph} {e : Edit} {es : List Edit} {id : ModuleId} {n : Nat}

/-! ## One edit -/

open InPlace in
theorem Edit.inPlace_eq (h : g.Indexed) (e : Edit) :
    e.inPlace g = wholly g ((e.perform g).map fun g => ((), g)) := by
  have hdiscard {α : Type} {x : InPlace ModuleGraph α}
      {y : Except RegistryError (α × ModuleGraph)} (hx : x g = wholly g y) :
      discard x g = wholly g ((y.map (·.2)).map fun g => ((), g)) := by
    cases y with
    | error e => exact bind_of_error hx _
    | ok answer => exact bind_of_ok hx _
  cases e with
  | insert m => exact Graph.insert_eq m g
  | create id name now => exact hdiscard (Graph.create_eq name)
  | rename id name now => exact hdiscard (Graph.rename_eq name)
  | setRelationships id relationships now =>
    exact hdiscard (Graph.setRelationships_eq relationships)
  | remove id => exact hdiscard (Graph.remove_eq h)

/-- An edit succeeds and leaves what it makes, or it fails and leaves everything as it is. -/
theorem Edit.cases (h : g.Indexed) (e : Edit) :
    (∃ g', e.perform g = .ok g' ∧ e.Succeeds g ∧ e.inPlace.leaves g = g') ∨
      (∃ error, e.perform g = .error error) ∧ ¬e.Succeeds g ∧ e.inPlace.leaves g = g := by
  have heq := Edit.inPlace_eq h e
  unfold Succeeds InPlace.leaves
  rw [heq]
  cases e.perform g with
  | error error => exact Or.inr ⟨⟨error, rfl⟩, fun ⟨_, hok⟩ => (nomatch hok), rfl⟩
  | ok g' => exact Or.inl ⟨g', rfl, ⟨g', rfl⟩, rfl⟩

theorem Indexed.perform (h : g.Indexed) (hperform : e.perform g = .ok g') : g'.Indexed := by
  cases e with
  | insert m => exact h.insert hperform
  | create id name now =>
    obtain ⟨⟨m, _⟩, hcreate, rfl⟩ := map_ok hperform
    exact h.create hcreate
  | rename id name now =>
    obtain ⟨⟨m, _⟩, hrename, rfl⟩ := map_ok hperform
    exact h.rename hrename
  | setRelationships id relationships now =>
    obtain ⟨⟨m, _⟩, hset, rfl⟩ := map_ok hperform
    exact h.setRelationships hset
  | remove id =>
    obtain ⟨⟨m, _⟩, hremove, rfl⟩ := map_ok hperform
    exact h.remove hremove

theorem Indexed.leaves (h : g.Indexed) (e : Edit) : (e.inPlace.leaves g).Indexed := by
  rcases Edit.cases h e with ⟨g', hperform, _, hleaves⟩ | ⟨_, _, hleaves⟩
  · rw [hleaves]
    exact h.perform hperform
  · rw [hleaves]
    exact h

theorem Indexed.edited (h : g.Indexed) (es : List Edit) : (edited g es).Indexed := by
  induction es generalizing g with
  | nil => exact h
  | cons e rest ih => exact ih (h.leaves e)

theorem indexed_after (es : List Edit) : (after es).Indexed := indexed_empty.edited es

/-! ## Identifiers in order -/

def ids (g : ModuleGraph) : List ModuleId := g.list.map (·.id)

theorem mem_ids_iff (h : g.Indexed) : id ∈ g.ids ↔ g.contains id = true :=
  List.mem_map.trans (contains_iff h).symm

/-- Filling the slot of a module anew for the same module moves no identifier. -/
theorem Indexed.ids_replace (h : g.Indexed) {s s' : Slot} (hs : g.slot? id = some s)
    (hid : s'.module.id = s.module.id) (count : Nat) :
    ids { g with slots := g.setSlot id (some s'), relationshipCount := count } = g.ids := by
  obtain ⟨before, after, hold, hlist⟩ := h.list_setSlot hs
  rw [ids, ids, hlist (some s'), hold]
  simp [hid]

/-- A module that is taken in comes last, one that is removed leaves its place, and what else is
done moves none. -/
inductive Edit.Moves (e : Edit) : List ModuleId → List ModuleId → Prop where
  | takesIn {ids : List ModuleId} {id : ModuleId} (hin : e.takesIn = some id)
      (hout : e.takesOut = none) : Moves e ids (ids ++ [id])
  | takesOut {before after : List ModuleId} {id : ModuleId} (hin : e.takesIn = none)
      (hout : e.takesOut = some id) : Moves e (before ++ id :: after) (before ++ after)
  | keeps {ids : List ModuleId} (hin : e.takesIn = none) (hout : e.takesOut = none) :
      Moves e ids ids

namespace Edit.Moves

variable {before after : List ModuleId}

theorem mem_of_takesIn (h : e.Moves before after) (hin : e.takesIn = some id) : id ∈ after := by
  cases h with
  | takesIn hin' =>
    cases hin.symm.trans hin'
    exact List.mem_append_right _ (List.mem_singleton_self id)
  | takesOut hin' => cases hin.symm.trans hin'
  | keeps hin' => cases hin.symm.trans hin'

theorem mem_of_mem (h : e.Moves before after) (hid : id ∈ before) (hout : e.takesOut ≠ some id) :
    id ∈ after := by
  cases h with
  | takesIn => exact List.mem_append_left _ hid
  | takesOut _ hout' =>
    rcases List.mem_append.mp hid with hid | hid
    · exact List.mem_append_left _ hid
    · rcases List.mem_cons.mp hid with rfl | hid
      · exact absurd hout' hout
      · exact List.mem_append_right _ hid
  | keeps => exact hid

end Edit.Moves

theorem Indexed.moves (h : g.Indexed) (hperform : e.perform g = .ok g') :
    e.Moves g.ids g'.ids := by
  cases e with
  | insert m =>
    rw [ids, ids, list_insert hperform, List.map_append]
    exact .takesIn rfl rfl
  | create id name now =>
    obtain ⟨⟨m, _⟩, hcreate, rfl⟩ := map_ok hperform
    obtain ⟨clean, rfl, hinsert⟩ := create_ok hcreate
    rw [ids, ids, list_insert hinsert, List.map_append]
    exact .takesIn rfl rfl
  | rename id name now =>
    obtain ⟨⟨m, _⟩, hrename, rfl⟩ := map_ok hperform
    obtain ⟨s, clean, hs, rfl, rfl⟩ := rename_ok hrename
    dsimp only
    rw [h.ids_replace hs]
    · exact .keeps rfl rfl
    · rfl
  | setRelationships id relationships now =>
    obtain ⟨⟨m, _⟩, hset, rfl⟩ := map_ok hperform
    obtain ⟨_, s, hs, rfl, rfl⟩ := setRelationships_ok hset
    dsimp only
    rw [h.ids_replace hs]
    · exact .keeps rfl rfl
    · rfl
  | remove id =>
    obtain ⟨⟨m, _⟩, hremove, rfl⟩ := map_ok hperform
    obtain ⟨before, after, hold, hlist⟩ := h.list_remove hremove
    obtain ⟨s, hs, rfl, _⟩ := remove_ok hremove
    obtain ⟨_, hid⟩ := (slot?_eq_some_iff h).mp hs
    rw [ids, ids, hold, hlist, List.map_append, List.map_append, List.map_cons]
    exact .takesOut rfl (congrArg some hid.symm)

/-! ## Births -/

theorem edited_append (g : ModuleGraph) (es es' : List Edit) :
    edited g (es ++ es') = edited (edited g es) es' :=
  List.foldl_append

theorem after_concat (es : List Edit) (e : Edit) :
    after (es ++ [e]) = e.inPlace.leaves (after es) :=
  edited_append .empty es [e]

theorem BornAt.lt_length (h : BornAt es n id) : n < es.length := by
  obtain ⟨⟨e, he, _⟩, _⟩ := h
  exact (List.getElem?_eq_some_iff.mp he).1

/-- A birth lasts until the module is removed. -/
theorem BornAt.goesOn (h : BornAt es n id) (hkept : e.takesOut = some id → ¬e.Succeeds (after es)) :
    BornAt (es ++ [e]) n id := by
  have hlt := h.lt_length
  obtain ⟨⟨birth, hbirth, hin, hdone⟩, hsince⟩ := h
  refine ⟨⟨birth, getElem?_concat_of_some hbirth e, hin, ?_⟩, fun k e' hk he' hout => ?_⟩
  · rw [List.take_append_of_le_length (Nat.le_of_lt hlt)]
    exact hdone
  · rcases getElem?_concat_cases he' with ⟨hold, htake⟩ | ⟨_, rfl, htake⟩
    · rw [htake]
      exact hsince k e' hk hold hout
    · rw [htake]
      exact hkept hout

/-- A birth was there before the last edit, which has not ended it, or it is the last edit. -/
theorem BornAt.cases (h : BornAt (es ++ [e]) n id) :
    BornAt es n id ∧ (e.takesOut = some id → ¬e.Succeeds (after es)) ∨
      e.takesIn = some id ∧ e.Succeeds (after es) := by
  obtain ⟨⟨birth, hbirth, hin, hdone⟩, hsince⟩ := h
  rcases getElem?_concat_cases hbirth with ⟨hold, htake⟩ | ⟨_, rfl, htake⟩
  · have hlt := (List.getElem?_eq_some_iff.mp hold).1
    rw [htake] at hdone
    refine Or.inl ⟨⟨⟨birth, hold, hin, hdone⟩, fun k e' hk he' hout => ?_⟩, fun hout => ?_⟩
    · have hnot := hsince k e' hk (getElem?_concat_of_some he' e) hout
      rw [List.take_append_of_le_length (Nat.le_of_lt (List.getElem?_eq_some_iff.mp he').1)] at hnot
      exact hnot
    · have hnot := hsince es.length e hlt List.getElem?_concat_length hout
      rw [List.take_left] at hnot
      exact hnot
  · rw [htake] at hdone
    exact Or.inr ⟨hin, hdone⟩

theorem bornAt_length (hin : e.takesIn = some id) (hdone : e.Succeeds (after es)) :
    BornAt (es ++ [e]) es.length id := by
  refine ⟨⟨e, List.getElem?_concat_length, hin, ?_⟩, fun k e' hk he' => ?_⟩
  · rw [List.take_left]
    exact hdone
  · have hlt := (List.getElem?_eq_some_iff.mp he').1
    rw [List.length_append, List.length_singleton] at hlt
    omega

/-- A module that was born and not removed is there. -/
theorem mem_ids_of_bornAt (h : BornAt es n id) : id ∈ (after es).ids := by
  induction es using List.reverseRecOn generalizing n with
  | nil => exact absurd h.lt_length (Nat.not_lt_zero n)
  | append_singleton es e ih =>
    rw [after_concat]
    rcases Edit.cases (indexed_after es) e with ⟨g', hperform, hdone, hleaves⟩ |
      ⟨_, hfails, hleaves⟩
    · rw [hleaves]
      have hmoves := (indexed_after es).moves hperform
      rcases h.cases with ⟨hborn, hkept⟩ | ⟨hin, _⟩
      · exact hmoves.mem_of_mem (ih hborn) fun hout => hkept hout hdone
      · exact hmoves.mem_of_takesIn hin
    · rw [hleaves]
      rcases h.cases with ⟨hborn, _⟩ | ⟨_, hdone⟩
      · exact ih hborn
      · exact absurd hdone hfails

/-- Modules that stand in the order of their births. -/
def Births (es : List Edit) : List ModuleId → List Nat → Prop :=
  List.Forall₂ fun id n => BornAt es n id

theorem Births.lt_length {ids : List ModuleId} {births : List Nat} (h : Births es ids births) :
    ∀ n ∈ births, n < es.length := by
  induction h with
  | nil => exact List.forall_mem_nil _
  | cons hborn _ ih => exact List.forall_mem_cons.mpr ⟨hborn.lt_length, ih⟩

theorem Births.exists_of_mem {ids : List ModuleId} {births : List Nat} (h : Births es ids births)
    (hid : id ∈ ids) : ∃ n, BornAt es n id := by
  induction h with
  | nil => cases hid
  | cons hborn _ ih =>
    rcases List.mem_cons.mp hid with rfl | hid
    · exact ⟨_, hborn⟩
    · exact ih hid

theorem Births.goOn {ids : List ModuleId} {births : List Nat} (h : Births es ids births)
    (hkept : ∀ id ∈ ids, e.takesOut = some id → ¬e.Succeeds (after es)) :
    Births (es ++ [e]) ids births := by
  induction h with
  | nil => exact .nil
  | cons hborn _ ih =>
    obtain ⟨hfirst, hrest⟩ := List.forall_mem_cons.mp hkept
    exact .cons (hborn.goesOn hfirst) (ih hrest)

/-- An edit that moves modules moves their births along. -/
theorem Births.moves {ids ids' : List ModuleId} {births : List Nat} (h : Births es ids births)
    (hsorted : births.Pairwise (· < ·)) (hnodup : ids.Nodup) (hmoves : e.Moves ids ids')
    (hdone : e.Succeeds (after es)) :
    ∃ births', births'.Pairwise (· < ·) ∧ Births (es ++ [e]) ids' births' := by
  cases hmoves with
  | @takesIn _ id hin hout =>
    have hold : Births (es ++ [e]) ids births := h.goOn fun id' _ hout' => by simp [hout] at hout'
    have hnew : Births (es ++ [e]) [id] [es.length] := .cons (bornAt_length hin hdone) .nil
    refine ⟨births ++ [es.length], List.pairwise_append.mpr ⟨hsorted, List.pairwise_singleton _ _,
      fun n hn k hk => ?_⟩, List.rel_append hold hnew⟩
    rw [List.mem_singleton.mp hk]
    exact h.lt_length n hn
  | @takesOut before after id hin hout =>
    obtain ⟨births₁, n, births₂, rfl, hbefore, hafter⟩ := exists_split_of_forall₂ h
    have hnot : id ∉ before ++ after := (List.nodup_middle.mp hnodup).notMem
    have hother {other : ModuleId} (hmem : other ∈ before ++ after)
        (hout' : e.takesOut = some other) : False := by
      cases hout.symm.trans hout'
      exact hnot hmem
    refine ⟨births₁ ++ births₂, hsorted.sublist ?_, List.rel_append ?_ ?_⟩
    · exact (List.sublist_cons_self n births₂).append_left births₁
    · exact Births.goOn hbefore fun other hmem hout' =>
        (hother (List.mem_append_left _ hmem) hout').elim
    · exact Births.goOn hafter fun other hmem hout' =>
        (hother (List.mem_append_right _ hmem) hout').elim
  | keeps hin hout =>
    exact ⟨births, hsorted, h.goOn fun id _ hout' => by simp [hout] at hout'⟩

/-- The modules stand in the order of their births. -/
theorem exists_births (es : List Edit) :
    ∃ births : List Nat, births.Pairwise (· < ·) ∧ Births es (after es).ids births := by
  induction es using List.reverseRecOn with
  | nil => exact ⟨[], .nil, .nil⟩
  | append_singleton es e ih =>
    obtain ⟨births, hsorted, hborn⟩ := ih
    have hindexed := indexed_after es
    rw [after_concat]
    rcases Edit.cases hindexed e with ⟨g', hperform, hdone, hleaves⟩ | ⟨_, hfails, hleaves⟩
    · rw [hleaves]
      exact hborn.moves hsorted hindexed.nodup_ids (hindexed.moves hperform) hdone
    · rw [hleaves]
      exact ⟨births, hsorted, hborn.goOn fun _ _ _ => hfails⟩

/-! ## The whole graph -/

theorem Indexed.trueTo (h : g.Indexed) (hlive : ∀ id, g.contains id = true ↔ ∃ n, BornAt es n id)
    (horder : ∃ births : List Nat, births.Pairwise (· < ·) ∧ Births es g.ids births) :
    g.TrueTo es where
  live := hlive
  found id i := (h.index id i).mp
  indexed i s hs := (h.index _ i).mpr ⟨s, hs, rfl⟩
  apart id id' i hid hid' := by
    obtain ⟨s, hs, rfl⟩ := (h.index id i).mp hid
    obtain ⟨s', hs', rfl⟩ := (h.index id' i).mp hid'
    cases hs.symm.trans hs'
    rfl
  outgoing := h.outgoing
  base := h.base
  count := h.count
  countable m hm := h.length_le_count hm
  order := by
    obtain ⟨births, hsorted, hborn⟩ := horder
    exact ⟨births, hsorted, List.forall₂_map_left_iff.mp hborn⟩

theorem trueTo_after (es : List Edit) : (after es).TrueTo es := by
  have hindexed := indexed_after es
  obtain ⟨births, hsorted, hborn⟩ := exists_births es
  refine hindexed.trueTo (fun id => ?_) ⟨births, hsorted, hborn⟩
  rw [← mem_ids_iff hindexed]
  exact ⟨hborn.exists_of_mem, fun ⟨n, hborn⟩ => mem_ids_of_bornAt hborn⟩

/-- Taking in the modules of a snapshot is a row of edits. -/
theorem edited_insert {modules : List Module} (h : g.Indexed)
    (hfold : modules.foldlM ModuleGraph.insert g = .ok g') :
    edited g (modules.map .insert) = g' := by
  induction modules generalizing g with
  | nil =>
    cases hfold
    rfl
  | cons m rest ih =>
    rw [List.foldlM_cons] at hfold
    obtain ⟨next, hinsert, hfold⟩ := bind_ok hfold
    have hleaves : (Edit.insert m).inPlace.leaves g = next := by
      rcases Edit.cases h (.insert m) with ⟨g', hperform, _, hleaves⟩ | ⟨⟨_, hrefused⟩, _⟩
      · cases hinsert.symm.trans hperform
        exact hleaves
      · cases hinsert.symm.trans hrefused
    show edited ((Edit.insert m).inPlace.leaves g) (rest.map .insert) = g'
    rw [hleaves]
    exact ih (h.insert hinsert) hfold

theorem graph_ofSnapshot {s : Snapshot} {r : Registry} (h : Registry.ofSnapshot s = .ok r) :
    r.graph = after (s.modules.map .insert) := by
  unfold Registry.ofSnapshot at h
  obtain ⟨catalog, _, h⟩ := bind_ok h
  obtain ⟨graph, hgraph, h⟩ := bind_ok h
  rw [Registry.graph_addFields h]
  exact (edited_insert indexed_empty hgraph).symm

end ModuleGraph

/-- A graph that edits have made, from nothing or from a snapshot, agrees with the edits and with
itself, whichever of them failed. -/
theorem graph_is_true_to_its_edits (es : List ModuleGraph.Edit) :
    (ModuleGraph.after es).TrueTo es ∧
      ∀ s r, Registry.ofSnapshot s = .ok r →
        (ModuleGraph.edited r.graph es).TrueTo (s.modules.map .insert ++ es) := by
  refine ⟨ModuleGraph.trueTo_after es, fun s r hr => ?_⟩
  rw [ModuleGraph.graph_ofSnapshot hr, ModuleGraph.after, ← ModuleGraph.edited_append]
  exact ModuleGraph.trueTo_after _

namespace Sample

/-- Two modules, the second of which leads to the first. -/
def warehouse : Snapshot :=
  { dataTypes := []
    modules := [⟨goods, "Goods", [], 1, 1⟩,
      ⟨returns, "Returns", [.between returns goods], 2, 2⟩]
    fields := [] }

/-- The goods are removed and created again, and again, which fails. -/
def recreation : List ModuleGraph.Edit :=
  [.remove goods, .create goods "Goods" 3, .create goods "Goods" 4]

end Sample

/-- Goods that are created again come after the returns. -/
theorem graph_is_true_to_its_edits_on_sample :
    ∃ r, Registry.ofSnapshot Sample.warehouse = .ok r ∧
      (ModuleGraph.edited r.graph Sample.recreation).ids = [Sample.returns, Sample.goods] ∧
      (ModuleGraph.edited r.graph Sample.recreation).TrueTo
        (Sample.warehouse.modules.map .insert ++ Sample.recreation) :=
  ⟨_, rfl, rfl, (graph_is_true_to_its_edits Sample.recreation).2 Sample.warehouse _ rfl⟩

end RecordRules
