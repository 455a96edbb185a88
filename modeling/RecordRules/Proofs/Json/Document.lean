/-
Documents that are read as they were written.

What a document gives under a name is looked up among its parts as they were listed, whether or not
they are there.  A reader then sees the tree of that value, so reading back a document is a matter
of its parts.
-/
import RecordRules.Json.Document
import RecordRules.Proofs.Json.Normal
import RecordRules.Proofs.Json.RoundTrip

namespace RecordRules
namespace Json

/-! ## Parts under a name -/

/-- The value under a name after one more part. -/
def give (key : String) (before : Option Json) : Option (String × Json) → Option Json
  | some (k, v) => if k = key then some v else before
  | none => before

/-- What a document with certain parts gives under a name. -/
def given (key : String) (parts : List (Option (String × Json))) : Option Json :=
  parts.foldl (give key) none

@[simp] theorem give_part (key : String) (before : Option Json) (k : String) (v : Json) :
    give key before (part k v) = if k = key then some v else before := rfl

@[simp] theorem give_optionalPart (key : String) (before : Option Json) (k : String)
    (v : Option Json) :
    give key before (optionalPart k v) = if k = key then v.or before else before := by
  cases v with
  | none => simp [optionalPart, give]
  | some v => rfl

/-- The value of a part that is left out when there are no items. -/
def listed (items : List Json) : Option Json := if items.isEmpty then none else some (.array items)

@[simp] theorem give_listPart (key : String) (before : Option Json) (k : String)
    (items : List Json) :
    give key before (listPart k items) = if k = key then (listed items).or before else before := by
  have hpart : listPart k items = optionalPart k (listed items) := by
    unfold listPart listed
    split <;> rfl
  rw [hpart, give_optionalPart]

theorem lookup_sortMembers (key : String) (members : List (String × Json)) :
    (sortMembers members).lookup key =
      members.foldl (fun before m => if m.1 = key then some m.2 else before) none := by
  suffices h : ∀ (sorted : List (String × Json)),
      (members.foldl (fun sorted m => insertMember m.1 m.2 sorted) sorted).lookup key =
        members.foldl (fun before m => if m.1 = key then some m.2 else before)
          (sorted.lookup key) from h []
  induction members with
  | nil => exact fun sorted => rfl
  | cons m rest ih =>
    intro sorted
    rw [List.foldl_cons, List.foldl_cons, ih]
    congr 1
    by_cases hkey : m.1 = key
    · rw [if_pos hkey, ← hkey]
      exact lookup_insertMember_self _ _ _
    · rw [if_neg hkey]
      exact lookup_insertMember_of_ne (Ne.symm hkey) _ _

theorem lookup_parts (key : String) (parts : List (Option (String × Json))) :
    (sortMembers (parts.filterMap id)).lookup key = given key parts := by
  rw [lookup_sortMembers, given]
  generalize (none : Option Json) = before
  induction parts generalizing before with
  | nil => rfl
  | cons p rest ih =>
    cases p with
    | none => exact ih before
    | some m => exact ih _

/-! ## Members of a tree -/

theorem memberTrees_eq_map (members : List (String × Json)) :
    memberTrees members = members.map fun m => (m.1, m.2.tree) := by
  induction members with
  | nil => rfl
  | cons m rest ih =>
    obtain ⟨k, v⟩ := m
    rw [memberTrees, ih]
    rfl

theorem itemTrees_eq_map (items : List Json) : itemTrees items = items.map tree := by
  induction items with
  | nil => rfl
  | cons v rest ih =>
    rw [itemTrees, ih]
    rfl

/-- Among members in order, those of one name are the one that is looked up. -/
theorem filter_key_of_ordered {members : List (String × Json)} (h : Ordered members)
    (key : String) :
    (members.filter fun m => m.1 = key) = ((members.lookup key).map fun v => (key, v)).toList := by
  induction members with
  | nil => rfl
  | cons m rest ih =>
    obtain ⟨k, v⟩ := m
    obtain ⟨hfirst, hrest⟩ := List.pairwise_cons.mp h
    by_cases hk : k = key
    · subst hk
      have hnone : (rest.filter fun m => m.1 = k) = [] := by
        refine List.filter_eq_nil_iff.mpr fun m hm heq => ?_
        have heq : m.1 = k := of_decide_eq_true heq
        exact String.lt_irrefl k (heq ▸ hfirst m hm)
      rw [List.filter_cons_of_pos (by simp), hnone, List.lookup_cons_self]
      rfl
    · have hne : (key == k) = false := beq_false_of_ne (Ne.symm hk)
      rw [List.filter_cons_of_neg (by simpa using hk), ih hrest, List.lookup_cons, hne]

/-- A document whose parts stand in the order of their names is written in this order. -/
theorem tree_document {parts : List (Option (String × Json))}
    (h : ((parts.filterMap id).map Prod.fst).Pairwise (· < ·)) :
    (document parts).tree = .object (memberTrees (parts.filterMap id)) := by
  rw [document, ofMembers, (ordered_iff_pairwise_keys.mpr h).sortMembers, tree]

/-- The sole member of a written document under several spellings of a name, of which it uses the
first. -/
theorem soleMember?_parts {name : String} {others : List String}
    {parts : List (Option (String × Json))} (h : ∀ other ∈ others, given other parts = none) :
    soleMember? (name :: others) (memberTrees (sortMembers (parts.filterMap id))) =
      some ((given name parts).map tree) := by
  have hordered := ordered_sortMembers (parts.filterMap id)
  have hlookup := fun key => lookup_parts key parts
  generalize sortMembers (parts.filterMap id) = members at hordered hlookup
  have hothers : ∀ m ∈ members, m.1 ∉ others := by
    intro m hm hother
    have hnone := h m.1 hother
    rw [← hlookup, List.lookup_eq_none_iff] at hnone
    simpa using hnone m hm
  have hfilter : (members.filter fun m => (name :: others).contains m.1) =
      members.filter fun m => m.1 = name := by
    refine List.filter_congr fun m hm => ?_
    have hnot := hothers m hm
    simp [hnot]
  unfold soleMember?
  rw [memberTrees_eq_map, List.filter_map]
  have hcomp : (fun m : String × Tree => (name :: others).contains m.1) ∘
      (fun m : String × Json => (m.1, m.2.tree)) =
        fun m : String × Json => (name :: others).contains m.1 := rfl
  rw [hcomp, hfilter, filter_key_of_ordered hordered, hlookup]
  cases given name parts <;> rfl

/-- The parts of a written document, under names of which it uses the first spelling. -/
theorem parts?_document {names : List (List String)} {parts : List (Option (String × Json))}
    (h : ∀ spellings ∈ names, spellings ≠ [] ∧
      ∀ other ∈ spellings.tail, given other parts = none) :
    parts? names (document parts).tree =
      some (names.map fun spellings => (given (spellings.headD "") parts).map tree) := by
  rw [document, ofMembers, tree]
  unfold parts?
  dsimp only
  induction names with
  | nil => rfl
  | cons spellings rest ih =>
    obtain ⟨⟨hne, hothers⟩, hrest⟩ := List.forall_mem_cons.mp h
    cases spellings with
    | nil => exact absurd rfl hne
    | cons name others =>
      have hothers : ∀ other ∈ others, given other parts = none := hothers
      rw [List.mapM_cons, ih hrest, soleMember?_parts hothers]
      rfl

/-! ## Readers on trees of values -/

@[simp] theorem string_tree (s : String) : Reader.string (Json.string s).tree = some s := rfl

@[simp] theorem bool_tree (b : Bool) : Reader.bool (Json.bool b).tree = some b := rfl

section

variable {α : Type} {read : Reader α} {write : α → Json}

@[simp] theorem required_some (t : Tree) : required read (some t) = read t := rfl

@[simp] theorem defaulted_some (missing : α) (t : Tree) :
    defaulted missing read (some t) = read t := rfl

/-- A part that may be missing is read back, if what is written is never null. -/
theorem optional_tree {x : Option α} (h : ∀ a ∈ x, read (write a).tree = some a)
    (hnull : ∀ a ∈ x, write a ≠ .null) :
    optional read (x.map (tree ∘ write)) = some x := by
  cases x with
  | none => rfl
  | some a =>
    have hread := h a rfl
    have hnot := hnull a rfl
    show optional read (some (write a).tree) = some (some a)
    cases hw : write a with
    | null => exact absurd hw hnot
    | _ =>
      rw [hw] at hread
      simp only [tree, optional] at hread ⊢
      rw [hread]
      rfl

@[simp] theorem optional_string_tree (x : Option String) :
    optional Reader.string (x.map (tree ∘ Json.string)) = some x :=
  optional_tree (fun s _ => string_tree s) fun _ _ => Json.noConfusion

/-- A list is read item by item, each as what it is read as. -/
theorem list_tree_map {f : α → α} {xs : List α} (h : ∀ a ∈ xs, read (write a).tree = some (f a)) :
    Reader.list read (Json.array (xs.map write)).tree = some (xs.map f) := by
  rw [tree, itemTrees_eq_map]
  unfold Reader.list
  dsimp only
  induction xs with
  | nil => rfl
  | cons a rest ih =>
    obtain ⟨ha, hrest⟩ := List.forall_mem_cons.mp h
    rw [List.map_cons, List.map_cons, List.mapM_cons, ha, ih hrest]
    rfl

theorem list_tree {xs : List α} (h : ∀ a ∈ xs, read (write a).tree = some a) :
    Reader.list read (Json.array (xs.map write)).tree = some xs := by
  rw [list_tree_map (f := id) h, List.map_id]

/-- A list that is left out when it is empty is read back as empty. -/
theorem defaulted_list_tree_map {f : α → α} {xs : List α}
    (h : ∀ a ∈ xs, read (write a).tree = some (f a)) :
    defaulted [] (Reader.list read) ((listed (xs.map write)).map tree) = some (xs.map f) := by
  cases xs with
  | nil => rfl
  | cons a rest => exact list_tree_map h

theorem defaulted_list_tree {xs : List α} (h : ∀ a ∈ xs, read (write a).tree = some a) :
    defaulted [] (Reader.list read) ((listed (xs.map write)).map tree) = some xs := by
  rw [defaulted_list_tree_map (f := id) h, List.map_id]

end

/-- The integers of signed 64-bit words. -/
def Word (n : Int) : Prop := -9223372036854775808 ≤ n ∧ n < 9223372036854775808

theorem word_of_int {t : Tree} {n : Int} (h : Reader.int t = some n) : Word n := by
  unfold Reader.int at h
  split at h
  · next m integral =>
    split at h
    · cases h
      exact ⟨integral.1, by assumption⟩
    · cases h
  · cases h

theorem int_tree {n : Int} (h : Word n) : Reader.int (ofInt n).tree = some n := by
  have hintegral : Integral n := ⟨h.1, by have := h.2; omega⟩
  rw [ofInt, Number.ofInt?, dif_pos hintegral]
  exact if_pos h.2

@[simp] theorem optional_finite_tree (x : Option Binary64.Finite) :
    optional Reader.finite (x.map (tree ∘ fun x => Json.number (.float x))) = some x :=
  optional_tree (fun _ _ => rfl) fun _ _ => Json.noConfusion

@[simp] theorem list_string_tree (xs : List String) :
    Reader.list Reader.string (Json.array (xs.map .string)).tree = some xs :=
  list_tree fun s _ => string_tree s

@[simp] theorem optional_strings_tree (x : Option (List String)) :
    optional (Reader.list Reader.string) (x.map (tree ∘ fun xs => Json.array (xs.map .string))) =
      some x :=
  optional_tree (fun xs _ => list_string_tree xs) fun _ _ => Json.noConfusion

theorem document_ne_null (parts : List (Option (String × Json))) : document parts ≠ .null :=
  Json.noConfusion

theorem any_tree {v : Json} (h : v.IsNormal) : Reader.any v.tree = some v := by
  unfold Reader.any
  rw [value?_tree]
  exact congrArg some h

/-- A value that is not null may be a part that can be missing. -/
theorem optional_any_tree {x : Option Json} (h : ∀ v ∈ x, v ≠ .null ∧ v.IsNormal) :
    optional Reader.any (x.map tree) = some x := by
  have hread := optional_tree (α := Json) (x := x) (fun v hv => any_tree (h v hv).2)
    fun v hv => (h v hv).1
  exact hread

/-! ## Values that were read -/

mutual

/-- A tree that stands for a value is the tree of the value. -/
theorem eq_tree_of_value? : ∀ (t : Tree) {v : Json}, t.value? = some v → t = v.tree
  | .unreadable, _, h => by cases h
  | .null, _, h | .bool _, _, h | .number _, _, h | .string _, _, h => by
    cases h
    rfl
  | .array items, _, h => by
    rw [Tree.value?, Option.map_eq_some_iff] at h
    obtain ⟨vs, hvs, rfl⟩ := h
    rw [tree, eq_itemTrees_of_itemValues? items hvs]
  | .object members, _, h => by
    rw [Tree.value?, Option.map_eq_some_iff] at h
    obtain ⟨vs, hvs, rfl⟩ := h
    rw [tree, eq_memberTrees_of_memberValues? members hvs]

theorem eq_itemTrees_of_itemValues? : ∀ (items : List Tree) {vs : List Json},
    Tree.itemValues? items = some vs → items = itemTrees vs
  | [], _, h => by
    cases h
    rfl
  | t :: rest, _, h => by
    simp only [Tree.itemValues?, Option.bind_eq_bind, Option.bind_eq_some_iff] at h
    obtain ⟨v, hv, vs, hvs, heq⟩ := h
    cases heq
    rw [itemTrees, ← eq_tree_of_value? t hv, ← eq_itemTrees_of_itemValues? rest hvs]

theorem eq_memberTrees_of_memberValues? : ∀ (members : List (String × Tree))
    {vs : List (String × Json)}, Tree.memberValues? members = some vs → members = memberTrees vs
  | [], _, h => by
    cases h
    rfl
  | (k, t) :: rest, _, h => by
    simp only [Tree.memberValues?, Option.bind_eq_bind, Option.bind_eq_some_iff] at h
    obtain ⟨v, hv, vs, hvs, heq⟩ := h
    cases heq
    rw [memberTrees, ← eq_tree_of_value? t hv, ← eq_memberTrees_of_memberValues? rest hvs]

end

/-- A value that survives is seen in its text as it is. -/
theorem parse?_tree_of_survives {v : Json} (h : v.Survives) : Tree.parse? v.text = some v.tree := by
  rw [parse?_tree_text, eq_tree_of_value? _ (value?_seen v h.nesting h.numbers)]

theorem isNormal_of_any {t : Tree} {v : Json} (h : Reader.any t = some v) : v.IsNormal := by
  obtain ⟨w, _, rfl⟩ := Option.map_eq_some_iff.mp h
  exact isNormal_normal w

theorem of_mapM {α β : Type} {f : α → Option β} {xs : List α} {ys : List β} {P : β → Prop}
    (h : xs.mapM f = some ys) (hf : ∀ x y, f x = some y → P y) : ∀ y ∈ ys, P y := by
  induction xs generalizing ys with
  | nil =>
    cases h
    exact List.forall_mem_nil _
  | cons x rest ih =>
    rw [List.mapM_cons] at h
    simp only [Option.bind_eq_bind, Option.bind_eq_some_iff, Option.pure_def] at h
    obtain ⟨y, hy, ys', hys, heq⟩ := h
    cases heq
    exact List.forall_mem_cons.mpr ⟨hf x y hy, ih hys⟩

/-- What holds of every item that is read holds of those of a list. -/
theorem of_list {α : Type} {read : Reader α} {t : Tree} {xs : List α} {P : α → Prop}
    (h : Reader.list read t = some xs) (hread : ∀ t x, read t = some x → P x) :
    ∀ x ∈ xs, P x := by
  unfold Reader.list at h
  split at h
  · exact of_mapM h hread
  · cases h

theorem of_defaulted {α : Type} {read : Reader α} {missing : α} {part : Option Tree} {x : α}
    {P : α → Prop} (h : defaulted missing read part = some x) (hmissing : P missing)
    (hread : ∀ t x, read t = some x → P x) : P x := by
  cases part with
  | none =>
    cases h
    exact hmissing
  | some t => exact hread t x h

theorem of_defaulted_list {α : Type} {read : Reader α} {part : Option Tree} {xs : List α}
    {P : α → Prop} (h : defaulted [] (Reader.list read) part = some xs)
    (hread : ∀ t x, read t = some x → P x) : ∀ x ∈ xs, P x :=
  of_defaulted (P := fun xs => ∀ x ∈ xs, P x) h (List.forall_mem_nil _)
    fun _ _ hlist => of_list hlist hread

theorem of_optional {α : Type} {read : Reader α} {part : Option Tree} {x : Option α}
    {P : α → Prop} (h : optional read part = some x) (hread : ∀ t a, read t = some a → P a) :
    ∀ a ∈ x, P a := by
  rintro a rfl
  unfold optional at h
  split at h
  · cases h
  · cases h
  · next t _ =>
    obtain ⟨b, hb, heq⟩ := Option.map_eq_some_iff.mp h
    cases heq
    exact hread t a hb

theorem word_of_defaulted {part : Option Tree} {n : Int}
    (h : defaulted 0 Reader.int part = some n) : Word n :=
  of_defaulted h ⟨by decide, by decide⟩ fun _ _ hint => word_of_int hint

/-- A null is read as a part that is missing, so what is there is none. -/
theorem of_optional_any {part : Option Tree} {x : Option Json}
    (h : optional Reader.any part = some x) : ∀ v ∈ x, v ≠ .null ∧ v.IsNormal := by
  rintro v rfl
  unfold optional at h
  split at h
  · cases h
  · cases h
  · next t hnull =>
    obtain ⟨w, hw, heq⟩ := Option.map_eq_some_iff.mp h
    cases heq
    refine ⟨?_, isNormal_of_any hw⟩
    rintro rfl
    obtain ⟨u, hu, hnormal⟩ := Option.map_eq_some_iff.mp hw
    cases u with
    | null => exact hnull (eq_tree_of_value? t hu)
    | _ => cases hnormal

end Json
end RecordRules
