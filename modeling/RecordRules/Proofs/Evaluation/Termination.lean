/-
The evaluation of a root event ends.

Keys are never queued twice, and every key but that of the root is one of a record that the run
found in the store, updated or deleted.  A run adds no record, so there are only so many keys, and
each round of the evaluation visits another one.
-/
import RecordRules.Proofs.Evaluation.Steps
import RecordRules.Proofs.Store.Memory

namespace RecordRules

open RecordStore

section

variable {σ : Type} [RecordStore σ]

/-- Evaluating waiting events until there are none, in a number of rounds. -/
inductive Drains (s : Setting) (rootMode : Mode) : Run σ → Nat → Run σ → Prop where
  | done {run : Run σ} (queue : run.queue = []) : Drains s rootMode run 0 run
  | round {run final : Run σ} {t : Trigger} {rest : List Trigger} {rounds : Nat}
      (queue : run.queue = t :: rest)
      (more : Drains s rootMode (next s rootMode t rest run) rounds final) :
      Drains s rootMode run (rounds + 1) final

/-! ## Keys -/

/-- A key that an event of a run can have unless it is the root: that of a record which is there at
the start, in a module of the registry. -/
def EventKey.Possible (registry : Registry) (store : σ) (k : EventKey) : Prop :=
  registry.hasModule k.1 = true ∧ Holds store (k.1, k.2.1) ∧ k.2.2 ≠ .create

/-- What holds at every point of a run: no key comes twice, all of them are accounted for, and the
records are among those of the start. -/
structure Run.Orderly (registry : Registry) (store : σ) (root : EventKey) (run : Run σ) : Prop where
  nodup : run.keys.Nodup
  visited : run.evaluated.map Trigger.key = run.visited
  possible : ∀ k ∈ run.keys, k = root ∨ k.Possible registry store
  held : ∀ k, Holds run.store k → Holds store k

namespace Run

variable {registry : Registry} {store : σ} {root : EventKey} {run run' : Run σ}

theorem Orderly.of_idles (h : run.Orderly registry store root) (hidle : run.Idles run') :
    run'.Orderly registry store root := by
  have hkeys : run'.keys = run.keys := by rw [keys, keys, hidle.visited, hidle.queue]
  refine ⟨?_, ?_, ?_, ?_⟩
  · rw [hkeys]
    exact h.nodup
  · rw [evaluated_congr hidle.history, hidle.visited]
    exact h.visited
  · rw [hkeys]
    exact h.possible
  · rw [hidle.store]
    exact h.held

theorem Orderly.take (h : run.Orderly registry store root) {t : Trigger} {rest : List Trigger}
    (hqueue : run.queue = t :: rest) : (run.take t rest).Orderly registry store root := by
  have hkeys := keys_take hqueue
  refine ⟨?_, ?_, ?_, h.held⟩
  · rw [hkeys]
    exact h.nodup
  · rw [evaluated_take, List.map_append, h.visited]
    rfl
  · rw [hkeys]
    exact h.possible

theorem Orderly.of_write [LawfulRecordStore σ] {s : Setting} {c : Scope}
    (h : run.Orderly s.registry store root) (home : s.registry.hasModule c.target = true)
    (hwrite : Write s c run run') : run'.Orderly s.registry store root := by
  obtain ⟨store', writes, happening, u, o, rfl, he⟩ := hwrite.effect
  have hu : u.key.Possible s.registry store := by
    obtain ⟨r, hr⟩ := he.there
    refine ⟨?_, h.held _ (.of_get hr), he.causes.event_ne_create⟩
    show s.registry.hasModule u.module = true
    rw [he.module]
    exact home
  have hvisited : (run.wrote s store' writes happening u o).evaluated.map Trigger.key =
      (run.wrote s store' writes happening u o).visited := by
    rw [wrote_visited, ← h.visited, evaluated_wrote s run store' writes he.causes o]
  have hrecords : ∀ k, Holds (run.wrote s store' writes happening u o).store k → Holds store k := by
    rw [wrote_store]
    exact fun k hk => h.held k (he.held hk)
  rcases keys_wrote s run store' writes happening u o with hkeys | ⟨hnew, hkeys⟩
  · refine ⟨?_, hvisited, ?_, hrecords⟩
    · rw [hkeys]
      exact h.nodup
    · rw [hkeys]
      exact h.possible
  · refine ⟨?_, hvisited, ?_, hrecords⟩
    · rw [hkeys]
      exact List.nodup_append.mpr ⟨h.nodup, List.nodup_singleton _, by
        intro a ha b hb hab
        rw [List.mem_singleton] at hb
        exact hnew (hb ▸ hab ▸ ha)⟩
    · rw [hkeys]
      intro k hk
      rcases List.mem_append.mp hk with hk | hk
      · exact h.possible k hk
      · rw [List.mem_singleton.mp hk]
        exact Or.inr hu

theorem Orderly.step [LawfulRecordStore σ] {s : Setting} {rootMode : Mode}
    (h : run.Orderly s.registry store root) (hstep : RunStep s rootMode run run') :
    run'.Orderly s.registry store root := by
  rcases hstep.cases with hidle | ⟨t, rest, hqueue, rfl⟩ | ⟨t, c, _, _, _, home, hwrite⟩
  · exact h.of_idles hidle
  · exact h.take hqueue
  · exact h.of_write home hwrite

theorem Orderly.reaches [LawfulRecordStore σ] {s : Setting} {rootMode : Mode}
    (h : run.Orderly s.registry store root) (hreach : Reaches s rootMode run run') :
    run'.Orderly s.registry store root := by
  induction hreach with
  | refl => exact h
  | tail _ hstep ih => exact ih.step hstep

theorem orderly_root (registry : Registry) (store : σ) (module : ModuleId) (event : Event)
    (record : Record) (outcomes : List Outcome) :
    (Run.root store module event record outcomes).Orderly registry store
      (module, record.id, event) := by
  refine ⟨?_, rfl, ?_, fun k hk => hk⟩
  · exact List.nodup_singleton _
  · intro k hk
    exact Or.inl (List.mem_singleton.mp hk)

end Run

/-! ## Counting keys -/

section

variable (registry : Registry) (store : σ) (root : EventKey)

/-- The places of records in modules of a registry. -/
def homes : Set (ModuleId × RecordId) := {k | registry.hasModule k.1 = true ∧ Holds store k}

/-- The root apart, there are at most two keys for each record in a module of the registry. -/
theorem possible_subset :
    {k : EventKey | k = root ∨ k.Possible registry store} ⊆
      insert root ((fun p => (p.1, p.2, Event.update)) '' homes registry store ∪
        (fun p => (p.1, p.2, Event.delete)) '' homes registry store) := by
  rintro ⟨module, id, event⟩ (rfl | ⟨hmodule, hheld, hevent⟩)
  · exact Set.mem_insert _ _
  · right
    have hhome : (module, id) ∈ homes registry store := ⟨hmodule, hheld⟩
    cases event with
    | create => exact absurd rfl hevent
    | update => exact Or.inl ⟨(module, id), hhome, rfl⟩
    | delete => exact Or.inr ⟨(module, id), hhome, rfl⟩

variable [LawfulRecordStore σ]

theorem finite_homes : (homes registry store).Finite :=
  (finite_holds store).subset fun _ hk => hk.2

theorem ncard_homes_le_size : (homes registry store).ncard ≤ size store :=
  Set.ncard_le_ncard (fun _ hk => hk.2) (finite_holds store)

/-- The records in listed modules are no more than the store counts for them, one module after
another. -/
theorem ncard_listed_le (index : Assoc ModuleId Nat) :
    {k | (∃ e ∈ index, e.1 = k.1) ∧ Holds store k}.ncard ≤
      index.foldr (fun e n => RecordStore.count store e.1 + n) 0 := by
  induction index with
  | nil => simp
  | cons e rest ih =>
    obtain ⟨hfinite, hcount⟩ := finite_and_ncard_module_le store e.1
    have hsplit : {k | (∃ e' ∈ e :: rest, e'.1 = k.1) ∧ Holds store k} ⊆
        {k | k.1 = e.1 ∧ Holds store k} ∪ {k | (∃ e' ∈ rest, e'.1 = k.1) ∧ Holds store k} := by
      rintro k ⟨⟨e', he', hkey⟩, hk⟩
      rcases List.mem_cons.mp he' with rfl | he'
      · exact Or.inl ⟨hkey.symm, hk⟩
      · exact Or.inr ⟨⟨e', he', hkey⟩, hk⟩
    have hunion := hfinite.union
      ((finite_holds store).subset fun k (hk : (∃ e' ∈ rest, e'.1 = k.1) ∧ Holds store k) => hk.2)
    rw [List.foldr_cons]
    calc _
      _ ≤ _ := Set.ncard_le_ncard hsplit hunion
      _ ≤ _ := Set.ncard_union_le _ _
      _ ≤ _ := Nat.add_le_add hcount ih

theorem ncard_homes_le_count : (homes registry store).ncard ≤ recordCount registry store := by
  refine le_trans (Set.ncard_le_ncard ?_ ?_) (ncard_listed_le store registry.graph.index)
  · rintro k ⟨hmodule, hk⟩
    obtain ⟨e, he, hkey⟩ := List.lookup_isSome_iff.mp hmodule
    exact ⟨⟨e, he, (eq_of_beq hkey).symm⟩, hk⟩
  · exact (finite_holds store).subset fun _ hk => hk.2

theorem finite_possible : {k : EventKey | k = root ∨ k.Possible registry store}.Finite := by
  refine Set.Finite.subset ?_ (possible_subset registry store root)
  exact (((finite_homes registry store).image _).union
    ((finite_homes registry store).image _)).insert root

theorem ncard_possible_le :
    {k : EventKey | k = root ∨ k.Possible registry store}.ncard ≤
      1 + 2 * (homes registry store).ncard := by
  have hhomes := finite_homes registry store
  have hupdate := Set.ncard_image_le (f := fun p => (p.1, p.2, Event.update)) hhomes
  have hdelete := Set.ncard_image_le (f := fun p => (p.1, p.2, Event.delete)) hhomes
  have hboth := Set.ncard_union_le ((fun p => (p.1, p.2, Event.update)) '' homes registry store)
    ((fun p => (p.1, p.2, Event.delete)) '' homes registry store)
  have hall := Set.ncard_le_ncard (possible_subset registry store root)
    (((hhomes.image _).union (hhomes.image _)).insert root)
  have hroot := Set.ncard_insert_le root
    ((fun p => (p.1, p.2, Event.update)) '' homes registry store ∪
      (fun p => (p.1, p.2, Event.delete)) '' homes registry store)
  omega

end

namespace Run

variable [LawfulRecordStore σ] {registry : Registry} {store : σ} {root : EventKey} {run : Run σ}

theorem Orderly.length_keys_le (h : run.Orderly registry store root) :
    run.keys.length ≤ 1 + 2 * (homes registry store).ncard :=
  le_trans (length_le_ncard_of_nodup h.nodup (finite_possible registry store root) h.possible)
    (ncard_possible_le registry store root)

theorem Orderly.length_keys_le_maxEvents (h : run.Orderly registry store root) :
    run.keys.length ≤ maxEvents registry store := by
  have hkeys := h.length_keys_le
  have hcount := ncard_homes_le_count registry store
  unfold maxEvents
  omega

end Run

/-! ## The evaluation ends -/

/-- With a round left for each key that is still to come, no event is left waiting. -/
theorem drain_drains [LawfulRecordStore σ] (s : Setting) (rootMode : Mode) {store : σ}
    {root : EventKey} (rounds : Nat) (run : Run σ) (h : run.Orderly s.registry store root)
    (hrounds : maxEvents s.registry store ≤ run.evaluated.length + rounds) :
    ∃ n, (drain s rootMode rounds run).evaluated.length = run.evaluated.length + n ∧
      Drains s rootMode run n (drain s rootMode rounds run) := by
  induction rounds generalizing run with
  | zero =>
    have hkeys := h.length_keys_le_maxEvents
    have hvisited := congrArg List.length h.visited
    rw [Run.keys, List.length_append, List.length_map] at hkeys
    rw [List.length_map] at hvisited
    have hempty : run.queue = [] := by
      refine List.length_eq_zero_iff.mp ?_
      omega
    exact ⟨0, rfl, .done hempty⟩
  | succ rounds ih =>
    unfold drain
    split
    · next hempty => exact ⟨0, rfl, .done hempty⟩
    · next t rest hqueue =>
      have hround : Reaches s rootMode run (next s rootMode t rest run) := next_reaches hqueue
      have hnext := h.reaches hround
      have hlength : (next s rootMode t rest run).evaluated.length = run.evaluated.length + 1 := by
        rw [evaluated_next, List.length_append]
        rfl
      obtain ⟨n, hn, hdrains⟩ := ih _ hnext (by omega)
      exact ⟨n + 1, by omega, .round hqueue hdrains⟩

theorem Drains.queue {s : Setting} {rootMode : Mode} {run final : Run σ} {rounds : Nat}
    (h : Drains s rootMode run rounds final) : final.queue = [] := by
  induction h with
  | done hqueue => exact hqueue
  | round _ _ ih => exact ih

/-- A run drains in one way only. -/
theorem Drains.unique {s : Setting} {rootMode : Mode} {run final final' : Run σ}
    {rounds rounds' : Nat} (h : Drains s rootMode run rounds final)
    (h' : Drains s rootMode run rounds' final') : final' = final := by
  induction h generalizing rounds' with
  | done hempty =>
    cases h' with
    | done => rfl
    | round hqueue => cases hempty.symm.trans hqueue
  | round hqueue _ ih =>
    cases h' with
    | done hempty => cases hempty.symm.trans hqueue
    | round hqueue' hmore =>
      cases hqueue.symm.trans hqueue'
      exact ih hmore

section

variable [LawfulRecordStore σ] (registry : Registry) (config : Config) (clock : Clock) (store : σ)
  (module : ModuleId) (event : Event) (record : Record) (prechecked : Option (List Outcome))

theorem evaluation_drains :
    Drains (.ofRoot registry config clock) (.ofRoot prechecked)
      (Run.root store module event record (prechecked.getD []))
      (evaluation registry config clock store module event record prechecked).evaluated.length
      (evaluation registry config clock store module event record prechecked) := by
  obtain ⟨n, hn, hdrains⟩ := drain_drains (.ofRoot registry config clock) (.ofRoot prechecked)
    (maxEvents registry store)
    (Run.root store module event record (prechecked.getD []))
    (Run.orderly_root registry store module event record _) (Nat.le_add_left _ _)
  have hzero : (Run.root store module event record (prechecked.getD [])).evaluated.length = 0 := rfl
  rw [hzero, Nat.zero_add] at hn
  unfold evaluation
  rw [hn]
  exact hdrains

theorem evaluation_queue :
    (evaluation registry config clock store module event record prechecked).queue = [] :=
  (evaluation_drains registry config clock store module event record prechecked).queue

theorem evaluation_orderly :
    (evaluation registry config clock store module event record prechecked).Orderly registry store
      (module, record.id, event) :=
  (Run.orderly_root registry store module event record _).reaches
    (s := .ofRoot registry config clock)
    (evaluation_reaches registry config clock store module event record prechecked)

theorem evaluation_keys_nodup :
    ((evaluation registry config clock store module event record prechecked).evaluated.map
      Trigger.key).Nodup := by
  have h := evaluation_orderly registry config clock store module event record prechecked
  rw [h.visited]
  exact (List.nodup_append.mp h.nodup).1

end

/-- The evaluation of a root event goes on until no event waits, and no key is evaluated twice.  At
every point of it the keys in the queue are distinct and have not been visited, and no record has
been added.  So it evaluates at most one event more than twice the number of records. -/
theorem evaluation_ends [LawfulRecordStore σ] (registry : Registry) (config : Config)
    (clock : Clock) (store : σ) (module : ModuleId) (event : Event) (record : Record)
    (prechecked : Option (List Outcome)) :
    let s := Setting.ofRoot registry config clock
    let mode := Mode.ofRoot prechecked
    let start := Run.root store module event record (prechecked.getD [])
    let final := evaluation registry config clock store module event record prechecked
    Drains s mode start final.evaluated.length final ∧
      Reaches s mode start final ∧
      (∀ point, Reaches s mode start point →
        (point.queue.map Trigger.key).Nodup ∧
        (∀ t ∈ point.queue, t.key ∉ point.visited) ∧
        point.evaluated.map Trigger.key = point.visited ∧
        ∀ k, Holds point.store k → Holds store k) ∧
      (final.evaluated.map Trigger.key).Nodup ∧
      final.evaluated.length ≤ 1 + 2 * size store := by
  intro s mode start final
  have hstart : start.Orderly registry store (module, record.id, event) :=
    Run.orderly_root registry store module event record _
  refine ⟨evaluation_drains registry config clock store module event record prechecked,
    evaluation_reaches registry config clock store module event record prechecked, ?_,
    evaluation_keys_nodup registry config clock store module event record prechecked, ?_⟩
  · intro point hpoint
    have h : point.Orderly registry store (module, record.id, event) :=
      hstart.reaches (s := s) hpoint
    obtain ⟨_, hqueue, hapart⟩ := List.nodup_append.mp h.nodup
    refine ⟨hqueue, ?_, h.visited, h.held⟩
    intro t ht hvisited
    exact hapart _ hvisited _ (List.mem_map_of_mem ht) rfl
  · have hfinal : final.Orderly registry store (module, record.id, event) :=
      evaluation_orderly registry config clock store module event record prechecked
    have hkeys := hfinal.length_keys_le
    have hsize := ncard_homes_le_size registry store
    have hvisited := congrArg List.length hfinal.visited
    rw [Run.keys, List.length_append] at hkeys
    rw [List.length_map] at hvisited
    omega

end

/-! ## A schema with a cycle -/

namespace Sample

def orders : ModuleId := ⟨"orders", by decide +kernel⟩

def stock : ModuleId := ⟨"stock", by decide +kernel⟩

def one : RecordId := ⟨"1", by decide +kernel⟩

def two : RecordId := ⟨"2", by decide +kernel⟩

/-- A field of stock, of a data type that is not in the catalog. -/
def sold : Field :=
  { id := ⟨"sold", by decide +kernel⟩, name := "sold", module := stock
    dataType := ⟨"flag", by decide +kernel⟩, isLabel := false, subfields := none
    createdAt := 0, updatedAt := 0 }

def sale : Relationship :=
  { id := none, base := orders, target := stock, binding := .record one
    rules := { RuleLists.empty with onCreate :=
      [{ Rule.ofAction .set with target := some "$stock-$sold", value := some (.bool true) }] } }

/-- A record of stock goes away when it changes. -/
def clearance : Relationship :=
  { id := none, base := stock, target := stock, binding := .source
    rules := { RuleLists.empty with onUpdate := [Rule.ofAction .cascadeDelete] } }

def registry : Registry :=
  { catalog := .empty
    graph :=
      { slots := [some ⟨⟨orders, "Orders", [sale], 0, 0⟩, [sale]⟩,
          some ⟨⟨stock, "Stock", [clearance], 0, 0⟩, [clearance]⟩]
        index := [(orders, 0), (stock, 1)]
        relationshipCount := 2 }
    fields := { byModule := [(stock, [sold])], owners := [(sold.id, stock)] }
    generation := 0 }

def order : Record := ⟨one, orders, .object [], 0, 0⟩

def item : Record := ⟨one, stock, .object [], 0, 0⟩

def other : Record := ⟨two, stock, .object [("sold", .bool false)], 0, 0⟩

def run : Run MemoryStore :=
  evaluation registry .standard (.steady 5 0) ⟨[item, other]⟩ orders .create order none

end Sample

/-- The new order, the change that it makes to a record and the deletion of that record are
evaluated. -/
theorem evaluation_ends_on_sample :
    LawfulRecordStore MemoryStore ∧ Sample.run.evaluated.length = 3 ∧
      Drains (.ofRoot Sample.registry .standard (.steady 5 0)) .everything
        (Run.root ⟨[Sample.item, Sample.other]⟩ Sample.orders .create Sample.order [])
        3 Sample.run := by
  have hlength : Sample.run.evaluated.length = 3 := by decide +kernel
  have hends := evaluation_ends Sample.registry .standard (.steady 5 0)
    (⟨[Sample.item, Sample.other]⟩ : MemoryStore) Sample.orders .create Sample.order none
  refine ⟨inferInstance, hlength, ?_⟩
  rw [← hlength]
  exact hends.1

end RecordRules
