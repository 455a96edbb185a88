/-
Reading what was written.

The text of a value is read as the same value with the members of its objects sorted, unless its
containers stand too deep in one another or one of its numbers is not read as itself.  Nothing else
can be lost: `Json.Survives` says of a value that neither is so, and the texts of values in normal
form read back exactly then.
-/
import RecordRules.Proofs.Binary64.Integers
import RecordRules.Proofs.Json.Normal
import RecordRules.Proofs.Json.Words

namespace RecordRules
namespace Json

/-! ## The words of a value -/

/-- Words that are written and are no numbers. -/
def Token.IsSolid : Token → Prop
  | number _ | overflow | loneSurrogate => False
  | _ => True

theorem Token.Legible.cons {t : Token} {rest : List Token} (ht : t.IsSolid) (h : Legible rest) :
    Legible (t :: rest) := by
  refine ⟨?_, ?_, h⟩
  · cases t <;> first | exact ht.elim | trivial
  · rintro n rfl
    exact ht.elim

theorem Token.noMore_cons {t : Token} {c : Char} (rest : List Token) (hspell : t.spell = [c])
    (hc : c.isDigit = false ∧ c ≠ '.' ∧ c ≠ 'e' ∧ c ≠ 'E') :
    NoMore ((t :: rest).flatMap spell) := by
  intro d hd
  rw [List.flatMap_cons, hspell, List.cons_append, List.head?_cons, Option.mem_some_iff] at hd
  exact hd ▸ hc

open Token in
mutual

theorem legible_tokens : ∀ (v : Json) {rest : List Token}, NoMore (rest.flatMap spell) →
    Legible rest → Legible (v.tokens ++ rest)
  | null, _, _, h => .cons trivial h
  | bool _, _, _, h => .cons trivial h
  | string _, _, _, h => .cons trivial h
  | number _, _, hmore, h => ⟨trivial, fun _ _ => hmore, h⟩
  | array [], _, _, h => .cons trivial (.cons trivial h : Legible (closeArray :: _))
  | array (v :: items), _, _, h => by
    rw [tokens, List.cons_append, List.append_assoc]
    obtain ⟨hmore, hitems⟩ := legible_itemTokens items h
    exact .cons trivial (legible_tokens v hmore hitems)
  | object [], _, _, h => .cons trivial (.cons trivial h : Legible (closeObject :: _))
  | object ((k, v) :: members), _, _, h => by
    rw [tokens, List.cons_append, List.cons_append, List.cons_append, List.append_assoc]
    obtain ⟨hmore, hmembers⟩ := legible_memberTokens members h
    exact .cons trivial (.cons trivial (.cons trivial (legible_tokens v hmore hmembers)))

theorem legible_itemTokens : ∀ (items : List Json) {rest : List Token}, Legible rest →
    NoMore ((itemTokens items ++ rest).flatMap spell) ∧ Legible (itemTokens items ++ rest)
  | [], rest, h => ⟨noMore_cons rest rfl (by decide), .cons trivial h⟩
  | v :: items, _, h => by
    rw [itemTokens, List.cons_append, List.append_assoc]
    obtain ⟨hmore, hitems⟩ := legible_itemTokens items h
    exact ⟨noMore_cons _ rfl (by decide), .cons trivial (legible_tokens v hmore hitems)⟩

theorem legible_memberTokens : ∀ (members : List (String × Json)) {rest : List Token},
    Legible rest →
      NoMore ((memberTokens members ++ rest).flatMap spell) ∧
        Legible (memberTokens members ++ rest)
  | [], rest, h => ⟨noMore_cons rest rfl (by decide), .cons trivial h⟩
  | (k, v) :: members, _, h => by
    rw [memberTokens, List.cons_append, List.cons_append, List.cons_append, List.append_assoc]
    obtain ⟨hmore, hmembers⟩ := legible_memberTokens members h
    exact ⟨noMore_cons _ rfl (by decide),
      .cons trivial (.cons trivial (.cons trivial (legible_tokens v hmore hmembers)))⟩

end

/-! ## What a reader sees -/

/-- What is seen where a number is written. -/
def Number.seen (n : Number) : Tree :=
  match n.reread with
  | .number m => .number m
  | _ => .unreadable

mutual

/-- What is seen where a value is written, with room for a number of containers in one another. -/
def seen : (room : Nat) → Json → Tree
  | _, null => .null
  | _, bool b => .bool b
  | _, number n => n.seen
  | _, string s => .string s
  | 0, array _ => .unreadable
  | room + 1, array items => .array (seenItems room items)
  | 0, object _ => .unreadable
  | room + 1, object members => .object (seenMembers room members)

def seenItems (room : Nat) : List Json → List Tree
  | [] => []
  | v :: rest => seen room v :: seenItems room rest

def seenMembers (room : Nat) : List (String × Json) → List (String × Tree)
  | [] => []
  | (k, v) :: rest => (k, seen room v) :: seenMembers room rest

end

theorem seen_array (room : Nat) (items : List Json) :
    seen room (array items) =
      if room = 0 then .unreadable else .array (seenItems (room - 1) items) := by
  cases room <;> rfl

theorem seen_object (room : Nat) (members : List (String × Json)) :
    seen room (object members) =
      if room = 0 then .unreadable else .object (seenMembers (room - 1) members) := by
  cases room <;> rfl

/-- A number reads as a number or goes beyond the finite ones. -/
theorem Number.reread_cases (n : Number) :
    (∃ m, n.reread = .number m ∧ n.seen = .number m) ∨
      (n.reread = .overflow ∧ n.seen = .unreadable) := by
  unfold seen reread Literal.token
  split
  · next m _ => exact Or.inl ⟨m, rfl, rfl⟩
  · exact Or.inr ⟨rfl, rfl⟩

namespace Cursor

/-- The room that is left within open containers. -/
def roomIn (stack : List Frame) : Nat := maxNesting - stack.length

theorem roomIn_cons (frame : Frame) (stack : List Frame) :
    roomIn (frame :: stack) = roomIn stack - 1 := by
  unfold roomIn
  rw [List.length_cons]
  omega

theorem close_eq (container : Tree) (stack : List Frame) :
    close container stack = done (if roomIn stack = 0 then .unreadable else container) stack := by
  have hempty : (stack.drop (maxNesting - 1)).isEmpty = true ↔ roomIn stack ≠ 0 := by
    rw [List.isEmpty_iff, List.drop_eq_nil_iff]
    unfold roomIn maxNesting
    omega
  unfold close
  by_cases hroom : roomIn stack = 0
  · rw [if_pos hroom, if_neg fun h => hempty.mp h hroom]
  · rw [if_neg hroom, if_pos (hempty.mpr hroom)]

/-- Reads words as they stand in a text that was written. -/
def read (ts : List Token) (c : Cursor) : Option Cursor := (ts.map Token.reread).foldlM step c

theorem read_cons (t : Token) (ts : List Token) (c : Cursor) :
    read (t :: ts) c = (step c t.reread).bind (read ts) := rfl

/-- No value begins with the end of an array. -/
theorem read_firstItem (v : Json) (ts : List Token) (stack : List Frame) :
    read (v.tokens ++ ts) (firstItem (.array [] :: stack)) =
      read (v.tokens ++ ts) (value (.array [] :: stack)) := by
  cases v with
  | number n =>
    simp only [tokens, List.cons_append, read_cons, Token.reread]
    rcases n.reread_cases with ⟨m, hread, _⟩ | ⟨hread, _⟩
    · rw [hread]; rfl
    · rw [hread]; rfl
  | array items => cases items <;> rfl
  | object members => cases members <;> rfl
  | _ => rfl

theorem ofMembers_map_some (members : List (String × Tree)) :
    Tree.ofMembers (members.map fun m => (some m.1, m.2)) = .object members := by
  have hall : (members.map fun m => ((some m.1, m.2) : Option String × Tree)).mapM
      (fun m => m.1.map fun key => (key, m.2)) = some members := by
    induction members with
    | nil => rfl
    | cons m rest ih => simp [ih]
  unfold Tree.ofMembers
  rw [hall]

mutual

/-- Behind a value the reader holds what it sees of it. -/
theorem read_tokens : ∀ (v : Json) (ts : List Token) (stack : List Frame),
    read (v.tokens ++ ts) (value stack) = read ts (done (v.seen (roomIn stack)) stack)
  | null, ts, stack => by rw [seen]; rfl
  | bool b, ts, stack => by rw [seen]; rfl
  | string s, ts, stack => by rw [seen]; rfl
  | number n, ts, stack => by
    simp only [tokens, List.cons_append, List.nil_append, read_cons, Token.reread, seen]
    rcases n.reread_cases with ⟨m, hread, hseen⟩ | ⟨hread, hseen⟩
    · rw [hread, hseen]; rfl
    · rw [hread, hseen]; rfl
  | array [], ts, stack => by
    rw [seen_array, seenItems, ← close_eq]
    rfl
  | array (v :: items), ts, stack => by
    rw [tokens, List.cons_append, List.append_assoc, read_cons]
    show read (v.tokens ++ (itemTokens items ++ ts)) (firstItem (.array [] :: stack)) = _
    rw [read_firstItem, read_tokens v, read_itemTokens items, roomIn_cons, close_eq, seen_array]
    rfl
  | object [], ts, stack => by
    rw [seen_object, seenMembers, ← close_eq]
    rfl
  | object ((k, v) :: members), ts, stack => by
    rw [tokens, List.cons_append, List.cons_append, List.cons_append, List.append_assoc]
    show read (v.tokens ++ (memberTokens members ++ ts)) (value (.object [] (some k) :: stack)) = _
    rw [read_tokens v, read_memberTokens members, roomIn_cons, close_eq, seen_object]
    have hmembers := ofMembers_map_some (seenMembers (roomIn stack - 1) ((k, v) :: members))
    rw [← hmembers]
    rfl

theorem read_itemTokens : ∀ (items : List Json) (ts : List Token) (t : Tree) (before : List Tree)
    (stack : List Frame),
    read (itemTokens items ++ ts) (done t (.array before :: stack)) =
      read ts (close (.array ((t :: before).reverse ++ seenItems (roomIn stack - 1) items)) stack)
  | [], ts, t, before, stack => by
    rw [seenItems, List.append_nil]
    rfl
  | v :: items, ts, t, before, stack => by
    rw [itemTokens, List.cons_append, List.append_assoc]
    show read (v.tokens ++ (itemTokens items ++ ts)) (value (.array (t :: before) :: stack)) = _
    rw [read_tokens v, read_itemTokens items, roomIn_cons, seenItems, List.reverse_cons,
      List.append_assoc]
    rfl

theorem read_memberTokens : ∀ (members : List (String × Json)) (ts : List Token) (t : Tree)
    (before : List (Option String × Tree)) (k : String) (stack : List Frame),
    read (memberTokens members ++ ts) (done t (.object before (some k) :: stack)) =
      read ts (close (.ofMembers (((some k, t) :: before).reverse ++
        (seenMembers (roomIn stack - 1) members).map fun m => (some m.1, m.2))) stack)
  | [], ts, t, before, k, stack => by
    rw [seenMembers, List.map_nil, List.append_nil]
    rfl
  | (l, v) :: members, ts, t, before, k, stack => by
    rw [memberTokens, List.cons_append, List.cons_append, List.cons_append, List.append_assoc]
    show read (v.tokens ++ (memberTokens members ++ ts))
      (value (.object ((some k, t) :: before) (some l) :: stack)) = _
    rw [read_tokens v, read_memberTokens members, roomIn_cons, seenMembers, List.reverse_cons,
      List.append_assoc]
    rfl

end

end Cursor

/-! ## Reading what was written -/

/-- A text that was written is read as what is seen of its value. -/
theorem parse?_tree_text (v : Json) : Tree.parse? v.text = some (v.seen maxNesting) := by
  have hlegible : Token.Legible (v.tokens ++ []) := legible_tokens v Token.NoMore.nil trivial
  have hread := Cursor.read_tokens v [] []
  rw [List.append_nil] at hlegible hread
  have htokens : Tree.ofTokens? (v.tokens.map Token.reread) = some (v.seen maxNesting) := by
    unfold Tree.ofTokens?
    have hrun : (v.tokens.map Token.reread).foldlM Cursor.step (Cursor.value []) =
        some (.done (v.seen maxNesting) []) := hread
    rw [hrun]
  unfold Tree.parse? text
  rw [String.toList_ofList, Token.scan?_spelled hlegible]
  exact htokens

theorem parse?_text (v : Json) : parse? v.text = ((v.seen maxNesting).value?).map normal := by
  unfold parse?
  rw [parse?_tree_text]
  rfl

/-! ## Numbers -/

namespace Number

/-- The text of a number is read as an equal number. -/
def ReadsBack (n : Number) : Prop := ∃ m, parse? (number n).text = some (number m) ∧ (m == n) = true

theorem parse?_text_number (n : Number) : parse? (number n).text = n.seen.value? := by
  rw [parse?_text, Json.seen]
  rcases n.reread_cases with ⟨m, _, hseen⟩ | ⟨_, hseen⟩
  · rw [hseen]; rfl
  · rw [hseen]; rfl

theorem parse?_text_number_iff {n m : Number} :
    parse? (number n).text = some (number m) ↔ n.seen = .number m := by
  rw [parse?_text_number]
  rcases n.reread_cases with ⟨k, _, hseen⟩ | ⟨_, hseen⟩
  · rw [hseen]
    simp [Tree.value?]
  · rw [hseen]
    simp [Tree.value?]

theorem seen_integer {n : Int} (h : Integral n) : (integer n h).seen = .number (integer n h) := by
  unfold seen
  rw [reread_integer h]

/-! A zero is written with a point, so that it is read as a float again, and with its sign. -/

theorem literal_float_zero {x : Binary64.Finite} (h : x.units = 0) :
    (float x).literal = ⟨x.negative, ['0'], some ['0'], none⟩ := by
  have hshort : x.shortest .toEven = ⟨0, 0⟩ := by
    unfold Binary64.Finite.shortest Binary64.shortestUnits
    rw [if_pos h]
  show Literal.ofFloat x = _
  unfold Literal.ofFloat
  rw [hshort, if_pos (Or.inl h)]
  rfl

theorem numberOf?_float_zero (negative : Bool) :
    Token.numberOf? negative ['0'] (some ['0']) none =
      some (float ⟨negative, 0, ⟨0, rfl⟩, Binary64.limit_pos⟩) := by
  cases negative <;> decide +kernel

theorem seen_float_zero {x : Binary64.Finite} (h : x.units = 0) :
    (float x).seen = .number (float x) := by
  obtain ⟨negative, units, _, _⟩ := x
  cases h
  unfold seen reread Literal.token
  rw [literal_float_zero rfl, show Literal.exponentValue? ⟨negative, ['0'], some ['0'], none⟩ = none
    from rfl, numberOf?_float_zero]

/-- A number that is read as an equal one is read as itself. -/
theorem seen_of_readsBack {n : Number} (h : n.ReadsBack) : n.seen = .number n := by
  cases n with
  | integer n hn => exact seen_integer hn
  | float x =>
    by_cases hx : x.units = 0
    · exact seen_float_zero hx
    · obtain ⟨m, hread, hsame⟩ := h
      cases m with
      | integer k _ => cases hsame
      | float y =>
        have hvalue : y.toInt = x.toInt :=
          LawfulBEq.eq_of_beq (show (y.toInt == x.toInt) = true from hsame)
        rw [← parse?_text_number_iff, hread, Binary64.Finite.eq_of_toInt_eq hx hvalue]

theorem readsBack_iff {n : Number} : n.ReadsBack ↔ n.seen = .number n := by
  refine ⟨seen_of_readsBack, fun h => ⟨n, parse?_text_number_iff.mpr h, ?_⟩⟩
  cases n with
  | integer n _ => exact beq_self_eq_true n
  | float x => exact beq_self_eq_true x.toInt

theorem readsBack_integer {n : Int} (h : Integral n) : (integer n h).ReadsBack :=
  readsBack_iff.mpr (seen_integer h)

end Number

/-! ## Values that survive -/

mutual

/-- The number of containers in one another. -/
def nesting : Json → Nat
  | array items => nestingItems items + 1
  | object members => nestingMembers members + 1
  | _ => 0

def nestingItems : List Json → Nat
  | [] => 0
  | v :: rest => max (nesting v) (nestingItems rest)

def nestingMembers : List (String × Json) → Nat
  | [] => 0
  | (_, v) :: rest => max (nesting v) (nestingMembers rest)

end

mutual

/-- The numbers in a value. -/
def numbers : Json → List Number
  | number n => [n]
  | array items => numbersItems items
  | object members => numbersMembers members
  | _ => []

def numbersItems : List Json → List Number
  | [] => []
  | v :: rest => numbers v ++ numbersItems rest

def numbersMembers : List (String × Json) → List Number
  | [] => []
  | (_, v) :: rest => numbers v ++ numbersMembers rest

end

/-- The value is within the reach of a reader, and each of its numbers reads back. -/
structure Survives (v : Json) : Prop where
  nesting : v.nesting ≤ maxNesting
  numbers : ∀ n ∈ v.numbers, n.ReadsBack

mutual

theorem value?_seen : ∀ (v : Json) {room : Nat}, v.nesting ≤ room → (∀ n ∈ v.numbers, n.ReadsBack) →
    (v.seen room).value? = some v
  | null, _, _, _ | bool _, _, _, _ | string _, _, _, _ => by rw [seen]; rfl
  | number n, _, _, hnumbers => by
    rw [seen, Number.seen_of_readsBack (hnumbers n List.mem_cons_self)]
    rfl
  | array items, room, hroom, hnumbers => by
    have hroom : nestingItems items + 1 ≤ room := hroom
    rw [seen_array, if_neg (by omega), Tree.value?,
      itemValues?_seenItems items (by omega) hnumbers]
    rfl
  | object members, room, hroom, hnumbers => by
    have hroom : nestingMembers members + 1 ≤ room := hroom
    rw [seen_object, if_neg (by omega), Tree.value?,
      memberValues?_seenMembers members (by omega) hnumbers]
    rfl

theorem itemValues?_seenItems : ∀ (items : List Json) {room : Nat}, nestingItems items ≤ room →
    (∀ n ∈ numbersItems items, n.ReadsBack) → Tree.itemValues? (seenItems room items) = some items
  | [], _, _, _ => rfl
  | v :: rest, _, hroom, hnumbers => by
    obtain ⟨hv, hrest⟩ := Nat.max_le.mp hroom
    rw [seenItems, Tree.itemValues?,
      value?_seen v hv fun n hn => hnumbers n (List.mem_append_left _ hn),
      itemValues?_seenItems rest hrest fun n hn => hnumbers n (List.mem_append_right _ hn)]
    rfl

theorem memberValues?_seenMembers : ∀ (members : List (String × Json)) {room : Nat},
    nestingMembers members ≤ room → (∀ n ∈ numbersMembers members, n.ReadsBack) →
      Tree.memberValues? (seenMembers room members) = some members
  | [], _, _, _ => rfl
  | (k, v) :: rest, _, hroom, hnumbers => by
    obtain ⟨hv, hrest⟩ := Nat.max_le.mp hroom
    rw [seenMembers, Tree.memberValues?,
      value?_seen v hv fun n hn => hnumbers n (List.mem_append_left _ hn),
      memberValues?_seenMembers rest hrest fun n hn => hnumbers n (List.mem_append_right _ hn)]
    rfl

end

/-- A value that survives is read again from its text, in normal form. -/
theorem parse?_text_of_survives {v : Json} (h : v.Survives) : parse? v.text = some v.normal := by
  rw [parse?_text, value?_seen v h.nesting h.numbers]
  rfl

/-! ## Values that do not survive -/

mutual

theorem nesting_le_of_value? : ∀ (v : Json) {room : Nat} {w : Json}, (v.seen room).value? = some w →
    v.nesting ≤ room
  | null, _, _, _ | bool _, _, _, _ | string _, _, _, _ | number _, _, _, _ => Nat.zero_le _
  | array items, room, w, h => by
    rw [seen_array] at h
    split at h
    · cases h
    · rw [Tree.value?, Option.map_eq_some_iff] at h
      obtain ⟨ws, hws, _⟩ := h
      have := nestingItems_le_of_itemValues? items hws
      show nestingItems items + 1 ≤ room
      omega
  | object members, room, w, h => by
    rw [seen_object] at h
    split at h
    · cases h
    · rw [Tree.value?, Option.map_eq_some_iff] at h
      obtain ⟨ws, hws, _⟩ := h
      have := nestingMembers_le_of_memberValues? members hws
      show nestingMembers members + 1 ≤ room
      omega

theorem nestingItems_le_of_itemValues? : ∀ (items : List Json) {room : Nat} {ws : List Json},
    Tree.itemValues? (seenItems room items) = some ws → nestingItems items ≤ room
  | [], _, _, _ => Nat.zero_le _
  | v :: rest, _, _, h => by
    simp only [seenItems, Tree.itemValues?, Option.bind_eq_bind, Option.bind_eq_some_iff] at h
    obtain ⟨w, hw, ws, hws, _⟩ := h
    exact Nat.max_le.mpr ⟨nesting_le_of_value? v hw, nestingItems_le_of_itemValues? rest hws⟩

theorem nestingMembers_le_of_memberValues? : ∀ (members : List (String × Json)) {room : Nat}
    {ws : List (String × Json)}, Tree.memberValues? (seenMembers room members) = some ws →
      nestingMembers members ≤ room
  | [], _, _, _ => Nat.zero_le _
  | (k, v) :: rest, _, _, h => by
    simp only [seenMembers, Tree.memberValues?, Option.bind_eq_bind, Option.bind_eq_some_iff] at h
    obtain ⟨w, hw, ws, hws, _⟩ := h
    exact Nat.max_le.mpr ⟨nesting_le_of_value? v hw, nestingMembers_le_of_memberValues? rest hws⟩

end

mutual

theorem readsBack_of_value? : ∀ (v : Json) {room : Nat}, (v.seen room).value? = some v →
    ∀ n ∈ v.numbers, n.ReadsBack
  | null, _, _, _, hn | bool _, _, _, _, hn | string _, _, _, _, hn => (List.not_mem_nil hn).elim
  | number m, room, h, n, hn => by
    obtain rfl := List.mem_singleton.mp hn
    refine Number.readsBack_iff.mpr (Number.parse?_text_number_iff.mp ?_)
    rw [Number.parse?_text_number]
    rwa [seen] at h
  | array items, room, h, n, hn => by
    rw [seen_array] at h
    split at h
    · cases h
    · rw [Tree.value?, Option.map_eq_some_iff] at h
      obtain ⟨ws, hws, heq⟩ := h
      cases heq
      exact readsBack_of_itemValues? items hws n hn
  | object members, room, h, n, hn => by
    rw [seen_object] at h
    split at h
    · cases h
    · rw [Tree.value?, Option.map_eq_some_iff] at h
      obtain ⟨ws, hws, heq⟩ := h
      cases heq
      exact readsBack_of_memberValues? members hws n hn

theorem readsBack_of_itemValues? : ∀ (items : List Json) {room : Nat},
    Tree.itemValues? (seenItems room items) = some items → ∀ n ∈ numbersItems items, n.ReadsBack
  | [], _, _, _, hn => (List.not_mem_nil hn).elim
  | v :: rest, _, h, n, hn => by
    simp only [seenItems, Tree.itemValues?, Option.bind_eq_bind, Option.bind_eq_some_iff] at h
    obtain ⟨w, hw, ws, hws, heq⟩ := h
    cases heq
    rcases List.mem_append.mp hn with hn | hn
    · exact readsBack_of_value? v hw n hn
    · exact readsBack_of_itemValues? rest hws n hn

theorem readsBack_of_memberValues? : ∀ (members : List (String × Json)) {room : Nat},
    Tree.memberValues? (seenMembers room members) = some members →
      ∀ n ∈ numbersMembers members, n.ReadsBack
  | [], _, _, _, hn => (List.not_mem_nil hn).elim
  | (k, v) :: rest, _, h, n, hn => by
    simp only [seenMembers, Tree.memberValues?, Option.bind_eq_bind, Option.bind_eq_some_iff] at h
    obtain ⟨w, hw, ws, hws, heq⟩ := h
    cases heq
    rcases List.mem_append.mp hn with hn | hn
    · exact readsBack_of_value? v hw n hn
    · exact readsBack_of_memberValues? rest hws n hn

end

mutual

/-- What is read of a value in normal form is in normal form, since no key changes. -/
theorem isNormal_of_value? : ∀ (v : Json) {room : Nat} {w : Json}, (v.seen room).value? = some w →
    v.IsNormal → w.IsNormal
  | null, _, _, h, _ | bool _, _, _, h, _ | string _, _, _, h, _ => by
    rw [seen, Tree.value?] at h
    cases h
    rfl
  | number n, _, _, h, _ => by
    rw [seen] at h
    rcases n.reread_cases with ⟨m, _, hseen⟩ | ⟨_, hseen⟩
    · rw [hseen, Tree.value?] at h
      cases h
      rfl
    · rw [hseen] at h
      cases h
  | array items, room, w, h, hnormal => by
    rw [seen_array] at h
    split at h
    · cases h
    · rw [Tree.value?, Option.map_eq_some_iff] at h
      obtain ⟨ws, hws, rfl⟩ := h
      exact isNormal_array_iff.mpr
        (isNormal_of_itemValues? items hws (isNormal_array_iff.mp hnormal))
  | object members, room, w, h, hnormal => by
    rw [seen_object] at h
    split at h
    · cases h
    · rw [Tree.value?, Option.map_eq_some_iff] at h
      obtain ⟨ws, hws, rfl⟩ := h
      obtain ⟨hordered, hvalues⟩ := isNormal_object_iff.mp hnormal
      obtain ⟨hkeys, hws⟩ := isNormal_of_memberValues? members hws hvalues
      exact isNormal_object_iff.mpr ⟨hordered.of_keys hkeys, hws⟩

theorem isNormal_of_itemValues? : ∀ (items : List Json) {room : Nat} {ws : List Json},
    Tree.itemValues? (seenItems room items) = some ws → (∀ v ∈ items, v.IsNormal) →
      ∀ w ∈ ws, w.IsNormal
  | [], _, _, h, _, w, hw => by
    cases h
    cases hw
  | v :: rest, _, _, h, hnormal, w', hw' => by
    simp only [seenItems, Tree.itemValues?, Option.bind_eq_bind, Option.bind_eq_some_iff] at h
    obtain ⟨w, hw, ws, hws, heq⟩ := h
    cases heq
    obtain ⟨hv, hrest⟩ := List.forall_mem_cons.mp hnormal
    rcases List.mem_cons.mp hw' with rfl | hw'
    · exact isNormal_of_value? v hw hv
    · exact isNormal_of_itemValues? rest hws hrest w' hw'

theorem isNormal_of_memberValues? : ∀ (members : List (String × Json)) {room : Nat}
    {ws : List (String × Json)}, Tree.memberValues? (seenMembers room members) = some ws →
      (∀ m ∈ members, m.2.IsNormal) →
        ws.map Prod.fst = members.map Prod.fst ∧ ∀ m ∈ ws, m.2.IsNormal
  | [], _, _, h, _ => by
    cases h
    exact ⟨rfl, nofun⟩
  | (k, v) :: rest, _, _, h, hnormal => by
    simp only [seenMembers, Tree.memberValues?, Option.bind_eq_bind, Option.bind_eq_some_iff] at h
    obtain ⟨w, hw, ws, hws, heq⟩ := h
    cases heq
    obtain ⟨hv, hrest⟩ := List.forall_mem_cons.mp hnormal
    obtain ⟨hkeys, hws⟩ := isNormal_of_memberValues? rest hws hrest
    exact ⟨congrArg (k :: ·) hkeys, List.forall_mem_cons.mpr ⟨isNormal_of_value? v hw hv, hws⟩⟩

end

/-- What is read is in normal form. -/
theorem isNormal_of_parse? {text : String} {v : Json} (h : parse? text = some v) : v.IsNormal := by
  obtain ⟨w, _, rfl⟩ := Option.map_eq_some_iff.mp h
  exact isNormal_normal w

/-- A value is read again from its text if and only if it is in normal form and survives. -/
theorem parse?_text_eq_some_iff {v : Json} : parse? v.text = some v ↔ v.IsNormal ∧ v.Survives := by
  constructor
  · intro h
    have hnormal := isNormal_of_parse? h
    rw [parse?_text, Option.map_eq_some_iff] at h
    obtain ⟨w, hw, heq⟩ := h
    rw [isNormal_of_value? v hw hnormal] at heq
    rw [heq] at hw
    exact ⟨hnormal, nesting_le_of_value? v hw, readsBack_of_value? v hw⟩
  · rintro ⟨hnormal, h⟩
    rw [parse?_text_of_survives h, hnormal]

/-- What lies too deep in one another is not read, whatever it is. -/
theorem nesting_le_of_parse? {v w : Json} (h : parse? v.text = some w) :
    v.nesting ≤ maxNesting := by
  rw [parse?_text, Option.map_eq_some_iff] at h
  obtain ⟨w', hw, _⟩ := h
  exact nesting_le_of_value? v hw

end Json
end RecordRules
