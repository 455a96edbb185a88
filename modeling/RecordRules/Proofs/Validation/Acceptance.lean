/-
What a check of data accepts.

A check goes through fields, elements and subfields in turn, fills in defaults on its way and goes
on after a complaint.  What it accepts and what it leaves of the data can be said without it: data
are accepted if they have what their fields ask for, and the data that come back are the same but
for the defaults.
-/
import Mathlib.Data.List.Forall2
import RecordRules.Proofs.Validation.Defaults

namespace RecordRules

open Json

/-! ## What is asked of values -/

/-- The value is one of a kind.  A text may spell a number. -/
inductive Json.HasKind : Kind → Json → Prop where
  | string (s : String) : HasKind .string (.string s)
  | number {v : Json} {x : Binary64.Finite} (reads : v.number? = some x) : HasKind .number v
  | boolean (b : Bool) : HasKind .boolean (.bool b)
  | date {s : String} {m : Moment} (reads : Moment.parse? s = some m) : HasKind .date (.string s)
  | array (items : List Json) : HasKind .array (.array items)
  | object (members : List (String × Json)) : HasKind .object (.object members)

/-- A text has a match of a pattern.  What is no pattern matches nothing. -/
def Pattern.Matches (pattern s : String) : Prop :=
  ∃ p, Pattern.parse pattern = .ok p ∧ p.occursIn s = true

/-- The value is within the limits: those of numbers if its kind is number, those of texts if it is
text. -/
structure Constraints.Admits (c : Constraints) (kind : Kind) (v : Json) : Prop where
  min : ∀ x m, kind = .number → v.number? = some x → c.min = some m → m ≤ x
  max : ∀ x m, kind = .number → v.number? = some x → c.max = some m → x ≤ m
  pattern : ∀ s p, kind = .string → v = .string s → c.pattern = some p → Pattern.Matches p s
  allowed : ∀ s texts, kind = .string → v = .string s → c.allowed = some texts → s ∈ texts

/-- What stands in an element under the name of a subfield suits the subfield. -/
inductive Subfield.Accepts (kindOf : KindOf) (s : Subfield) : Option Json → Prop where
  | lacking {v? : Option Json} (missing : v? = none ∨ v? = some .null)
      (excused : s.default ≠ none ∨ s.required = false) : Accepts kindOf s v?
  | untyped {v : Json} (present : v ≠ .null) (unknown : kindOf s.dataType = none) :
      Accepts kindOf s (some v)
  | typed {v : Json} {kind : Kind} (present : v ≠ .null) (known : kindOf s.dataType = some kind)
      (hasKind : v.HasKind kind) (within : ∀ c, s.constraints = some c → c.Admits kind v) :
      Accepts kindOf s (some v)

/-- An element is an object that suits all subfields. -/
structure Json.FitsAll (kindOf : KindOf) (subfields : List Subfield) (element : Json) : Prop where
  object : element.isObject = true
  subfields : ∀ s ∈ subfields, s.Accepts kindOf (element.get? s.name)

/-- The data are an object.  What stands there for a field of a known kind is null or of that kind,
and if the field has subfields, every element fits them. -/
structure Json.Conforms (kindOf : KindOf) (fields : List Field) (data : Json) : Prop where
  object : data.isObject = true
  kinds : ∀ f ∈ fields, ∀ v kind, data.get? f.name = some v → kindOf f.dataType = some kind →
    v = .null ∨ v.HasKind kind
  elements : ∀ f ∈ fields, ∀ subfields items, kindOf f.dataType = some .array →
    f.subfields = some subfields → data.get? f.name = some (.array items) →
      ∀ element ∈ items, element.FitsAll kindOf subfields

/-! ## What comes back -/

/-- An element after defaults have gone into it where it had no value, and nothing else. -/
structure Json.Completes (subfields : List Subfield) (element element' : Json) : Prop where
  fills : ∀ s ∈ subfields, ∀ d, s.FillsIn d element → element'.get? s.name = some d
  keeps : ∀ key, (∀ s ∈ subfields, ∀ d, s.FillsIn d element → s.name ≠ key) →
    element'.get? key = element.get? key
  object : element'.isObject = element.isObject
  others : element.isObject = false → element' = element

/-- Data after the elements of array fields have been completed, and nothing else. -/
structure Json.FilledIn (kindOf : KindOf) (fields : List Field) (data data' : Json) : Prop where
  elements : ∀ f ∈ fields, ∀ subfields items, kindOf f.dataType = some .array →
    f.subfields = some subfields → data.get? f.name = some (.array items) →
      ∃ items', data'.get? f.name = some (.array items') ∧
        List.Forall₂ (Json.Completes subfields) items items'
  keeps : ∀ key, (∀ f ∈ fields, ∀ subfields items, kindOf f.dataType = some .array →
    f.subfields = some subfields → data.get? f.name = some (.array items) → f.name ≠ key) →
      data'.get? key = data.get? key
  object : data'.isObject = data.isObject
  others : data.isObject = false → data' = data

/-! ## Acceptance -/

theorem ofJson_ok_iff {kind : Kind} {v : Json} :
    (∃ value, Value.ofJson kind v = .ok value) ↔ v = .null ∨ v.HasKind kind := by
  constructor
  · rintro ⟨value, h⟩
    unfold Value.ofJson at h
    split at h
    · exact Or.inl rfl
    · exact Or.inr (.string _)
    · split at h
      · next hx => exact Or.inr (.number hx)
      · cases h
    · exact Or.inr (.boolean _)
    · split at h
      · next hm => exact Or.inr (.date hm)
      · cases h
    · exact Or.inr (.array _)
    · exact Or.inr (.object _)
    · cases h
  · rintro (rfl | h)
    · exact ⟨.null, by cases kind <;> rfl⟩
    · cases h with
      | string s => exact ⟨_, rfl⟩
      | @number v x reads =>
        refine ⟨.number x, ?_⟩
        cases v with
        | null => cases reads
        | _ =>
          unfold Value.ofJson
          dsimp only
          rw [reads]
      | boolean b => exact ⟨_, rfl⟩
      | @date s m reads =>
        refine ⟨.date m, ?_⟩
        unfold Value.ofJson
        dsimp only
        rw [reads]
      | array items => exact ⟨_, rfl⟩
      | object members => exact ⟨_, rfl⟩

/-! ### Constraints -/

namespace Constraints

variable {c : Constraints}

theorem complaints_number_eq_nil_iff {x : Binary64.Finite} :
    c.complaints (.number x) = [] ↔
      (∀ m, c.min = some m → m ≤ x) ∧ ∀ m, c.max = some m → x ≤ m := by
  have hle (a b : Binary64.Finite) : ¬decide (a < b) = true ↔ b ≤ a :=
    (not_congr decide_eq_true_iff).trans Int.not_lt
  unfold complaints
  rw [List.append_eq_nil_iff, Option.toList_eq_nil_iff, Option.toList_eq_nil_iff,
    Option.map_eq_none_iff, Option.map_eq_none_iff, Option.filter_eq_none_iff,
    Option.filter_eq_none_iff]
  simp only [hle]

theorem patternComplaint_eq_none_iff {pattern s : String} :
    complaints.patternComplaint pattern s = none ↔ Pattern.Matches pattern s := by
  unfold complaints.patternComplaint Pattern.Matches
  cases Pattern.parse pattern with
  | error e => simp
  | ok p => simp

theorem complaints_string_eq_nil_iff {s : String} :
    c.complaints (.string s) = [] ↔
      (∀ p, c.pattern = some p → Pattern.Matches p s) ∧
        ∀ texts, c.allowed = some texts → s ∈ texts := by
  unfold complaints
  rw [List.append_eq_nil_iff, Option.toList_eq_nil_iff, Option.toList_eq_nil_iff,
    Option.map_eq_none_iff, Option.filter_eq_none_iff, Option.bind_eq_none_iff]
  simp only [patternComplaint_eq_none_iff, Bool.not_eq_true, Bool.not_eq_false',
    List.contains_iff_mem]

/-- What is complained of are the limits that a value is not within. -/
theorem complaints_eq_nil_iff {kind : Kind} {v : Json} {value : Value} (hv : v ≠ .null)
    (h : Value.ofJson kind v = .ok value) : c.complaints value = [] ↔ c.Admits kind v := by
  have hfree (hnumber : kind ≠ .number) (hstring : kind ≠ .string) : c.Admits kind v :=
    ⟨fun _ _ hk => absurd hk hnumber, fun _ _ hk => absurd hk hnumber,
      fun _ _ hk => absurd hk hstring, fun _ _ hk => absurd hk hstring⟩
  unfold Value.ofJson at h
  split at h
  · exact absurd rfl hv
  · cases h
    rw [complaints_string_eq_nil_iff]
    constructor
    · rintro ⟨hpattern, hallowed⟩
      refine ⟨fun _ _ hk => (nomatch hk), fun _ _ hk => (nomatch hk), fun s p _ hs hp => ?_,
        fun s texts _ hs ht => ?_⟩
      · cases hs
        exact hpattern p hp
      · cases hs
        exact hallowed texts ht
    · intro h
      exact ⟨fun p hp => h.pattern _ p rfl rfl hp, fun texts ht => h.allowed _ texts rfl rfl ht⟩
  · split at h
    · next x hx =>
      cases h
      rw [complaints_number_eq_nil_iff]
      constructor
      · rintro ⟨hmin, hmax⟩
        refine ⟨fun y m _ hy hm => ?_, fun y m _ hy hm => ?_, fun _ _ hk => (nomatch hk),
          fun _ _ hk => (nomatch hk)⟩
        · rw [hx] at hy
          cases hy
          exact hmin m hm
        · rw [hx] at hy
          cases hy
          exact hmax m hm
      · intro h
        exact ⟨fun m hm => h.min x m rfl hx hm, fun m hm => h.max x m rfl hx hm⟩
    · cases h
  · cases h
    exact iff_of_true rfl (hfree nofun nofun)
  · split at h
    · cases h
      exact iff_of_true rfl (hfree nofun nofun)
    · cases h
  · cases h
    exact iff_of_true rfl (hfree nofun nofun)
  · cases h
    exact iff_of_true rfl (hfree nofun nofun)
  · cases h

end Constraints

/-! ### Elements -/

theorem Subfield.present_eq_none_iff {v? : Option Json} :
    present v? = none ↔ v? = none ∨ v? = some .null := by
  cases v? with
  | none => simp [present]
  | some v => cases v <;> simp [present, Json.isNull, Option.filter_some]

theorem Subfield.present_eq_some_iff {v? : Option Json} {v : Json} :
    present v? = some v ↔ v? = some v ∧ v ≠ .null := by
  unfold Subfield.present
  rw [Option.filter_eq_some_iff]
  refine and_congr_right fun _ => ?_
  cases v <;> simp [Json.isNull]

section

variable {kindOf : KindOf} {fields : List Field} {subfields : List Subfield} {s : Subfield}

theorem Subfield.faults_eq_nil_iff {v : Json} (hv : v ≠ .null) :
    s.faults kindOf v = [] ↔ s.Accepts kindOf (some v) := by
  unfold faults
  cases hkind : kindOf s.dataType with
  | none => exact iff_of_true rfl (.untyped hv hkind)
  | some kind =>
    have hinv (h : s.Accepts kindOf (some v)) : v.HasKind kind ∧
        ∀ c, s.constraints = some c → c.Admits kind v := by
      cases h with
      | lacking missing =>
        rcases missing with hnone | hnull
        · cases hnone
        · exact absurd (Option.some.inj hnull) hv
      | untyped _ unknown =>
        rw [hkind] at unknown
        cases unknown
      | typed _ known hasKind within =>
        rw [hkind] at known
        cases known
        exact ⟨hasKind, within⟩
    dsimp only
    cases hvalue : Value.ofJson kind v with
    | error e =>
      refine iff_of_false nofun fun h => ?_
      obtain ⟨value, hok⟩ := ofJson_ok_iff.mpr (Or.inr (hinv h).1)
      rw [hvalue] at hok
      cases hok
    | ok value =>
      have hhas : v.HasKind kind := (ofJson_ok_iff.mp ⟨value, hvalue⟩).resolve_left hv
      dsimp only
      constructor
      · intro h
        refine .typed hv hkind hhas fun c hc => ?_
        rw [hc] at h
        exact (Constraints.complaints_eq_nil_iff hv hvalue).mp h
      · intro h
        cases hc : s.constraints with
        | none => rfl
        | some c => exact (Constraints.complaints_eq_nil_iff hv hvalue).mpr ((hinv h).2 c hc)

theorem Subfield.complaints_eq_nil_iff {v? : Option Json} :
    s.complaints kindOf v? = [] ↔ s.Accepts kindOf v? := by
  unfold complaints
  cases hpresent : present v? with
  | none =>
    have hmissing := present_eq_none_iff.mp hpresent
    have hexcused : (if s.default.isNone && s.required then [Complaint.missing] else []) = [] ↔
        s.default ≠ none ∨ s.required = false := by
      cases s.default <;> cases s.required <;> simp
    dsimp only
    rw [hexcused]
    constructor
    · exact .lacking hmissing
    · intro h
      cases h with
      | lacking _ excused => exact excused
      | untyped present | typed present =>
        rcases hmissing with hnone | hnull
        · cases hnone
        · exact absurd (Option.some.inj hnull) present
  | some v =>
    obtain ⟨rfl, hv⟩ := present_eq_some_iff.mp hpresent
    exact faults_eq_nil_iff hv

theorem checkElement_eq_nil_iff (hnames : (subfields.map Subfield.name).Nodup) (field : String)
    (index : Nat) {element : Json} :
    (checkElement kindOf field subfields index element).2 = [] ↔
      element.FitsAll kindOf subfields := by
  cases element with
  | object members =>
    rw [checkElement_object]
    dsimp only
    rw [Inspection.runAll_remarks (Subfield.nodup_inspections hnames kindOf field index),
      List.flatMap_eq_nil_iff]
    constructor
    · intro h
      refine ⟨rfl, fun s hs => Subfield.complaints_eq_nil_iff.mp ?_⟩
      exact List.map_eq_nil_iff.mp (h _ (List.mem_map_of_mem hs))
    · intro h i hi
      obtain ⟨s, hs, rfl⟩ := List.mem_map.mp hi
      exact List.map_eq_nil_iff.mpr (Subfield.complaints_eq_nil_iff.mpr (h.subfields s hs))
  | _ => exact iff_of_false nofun fun h => Bool.false_ne_true h.object

theorem checkElements_eq_nil_iff (hnames : (subfields.map Subfield.name).Nodup) (field : String)
    {items : List Json} :
    (checkElements kindOf field subfields 0 items).2 = [] ↔
      ∀ element ∈ items, element.FitsAll kindOf subfields := by
  rw [List.eq_nil_iff_forall_not_mem]
  constructor
  · intro h element helement
    obtain ⟨index, hindex⟩ := List.mem_iff_getElem?.mp helement
    refine (checkElement_eq_nil_iff hnames field index).mp ?_
    exact List.eq_nil_iff_forall_not_mem.mpr fun v hv =>
      h v (mem_checkElements.mpr ⟨index, element, hindex, hv⟩)
  · intro h v hv
    obtain ⟨index, element, hindex, hv⟩ := mem_checkElements.mp hv
    have hfits := h element (List.mem_of_getElem? hindex)
    rw [(checkElement_eq_nil_iff hnames field index).mpr hfits] at hv
    exact List.not_mem_nil hv

/-! ### Records -/

theorem Field.mismatch_eq_nil_iff {f : Field} {v? : Option Json} :
    f.mismatch kindOf v? = [] ↔ ∀ v kind, v? = some v → kindOf f.dataType = some kind →
      v = .null ∨ v.HasKind kind := by
  unfold mismatch
  cases v? with
  | none => simp
  | some v =>
    cases kindOf f.dataType with
    | none => simp
    | some kind =>
      dsimp only
      cases hvalue : Value.ofJson kind v with
      | error e =>
        refine iff_of_false nofun fun h => ?_
        obtain ⟨value, hok⟩ := ofJson_ok_iff.mpr (h v kind rfl rfl)
        rw [hvalue] at hok
        cases hok
      | ok value =>
        refine iff_of_true rfl ?_
        rintro _ _ ⟨⟩ ⟨⟩
        exact ofJson_ok_iff.mp ⟨value, hvalue⟩

theorem Field.remarks_eq_nil_iff {f : Field}
    (hsubnames : ∀ subfields, f.subfields = some subfields →
      (subfields.map Subfield.name).Nodup) {v? : Option Json} :
    (f.inspection kindOf).remarks v? = [] ↔
      (∀ v kind, v? = some v → kindOf f.dataType = some kind → v = .null ∨ v.HasKind kind) ∧
        ∀ subfields items, kindOf f.dataType = some .array → f.subfields = some subfields →
          v? = some (.array items) → ∀ element ∈ items, element.FitsAll kindOf subfields := by
  unfold inspection
  dsimp only
  rw [List.append_eq_nil_iff, mismatch_eq_nil_iff]
  refine and_congr_right fun _ => ?_
  cases helements : f.elements? kindOf v? with
  | none =>
    refine iff_of_true rfl fun subfields items hkind hsubfields hitems => ?_
    rw [elements?_eq_some_iff.mpr ⟨hkind, hsubfields, hitems⟩] at helements
    cases helements
  | some found =>
    obtain ⟨subfields, items⟩ := found
    obtain ⟨hkind, hsubfields, rfl⟩ := elements?_eq_some_iff.mp helements
    show (checkElements kindOf f.name subfields 0 items).2 = [] ↔ _
    rw [checkElements_eq_nil_iff (hsubnames subfields hsubfields) f.name]
    constructor
    · rintro h _ _ _ hsubfields' ⟨⟩
      rw [hsubfields] at hsubfields'
      cases hsubfields'
      exact h
    · intro h
      exact h subfields items hkind hsubfields rfl

/-- Data without violations are those that conform to the fields. -/
theorem checkRecord_eq_nil_iff (hnames : Field.NamesApart fields) (data : Json) :
    (checkRecord kindOf fields data).2 = [] ↔ data.Conforms kindOf fields := by
  cases data with
  | object members =>
    rw [checkRecord_object]
    dsimp only
    rw [Inspection.runAll_remarks (hnames.nodup_inspections kindOf), List.flatMap_eq_nil_iff]
    constructor
    · intro h
      have hfield (f : Field) (hf : f ∈ fields) :=
        (Field.remarks_eq_nil_iff (hnames.subnames f hf)).mp (h _ (List.mem_map_of_mem hf))
      exact ⟨rfl, fun f hf => (hfield f hf).1, fun f hf => (hfield f hf).2⟩
    · intro h i hi
      obtain ⟨f, hf, rfl⟩ := List.mem_map.mp hi
      exact (Field.remarks_eq_nil_iff (hnames.subnames f hf)).mpr ⟨h.kinds f hf, h.elements f hf⟩
  | _ => exact iff_of_false nofun fun h => Bool.false_ne_true h.object

end

/-! ## What a check leaves -/

section

variable {kindOf : KindOf} {fields : List Field} {subfields : List Subfield}

theorem checkElement_completes (hnames : (subfields.map Subfield.name).Nodup) (field : String)
    (index : Nat) (element : Json) :
    element.Completes subfields (checkElement kindOf field subfields index element).1 := by
  cases element with
  | object members =>
    rw [checkElement_object]
    have hkeys := Subfield.nodup_inspections hnames kindOf field index
    have hfound {s : Subfield} (hs : s ∈ subfields) :
        (Inspection.runAll (subfields.map (Subfield.inspection kindOf field index))
          members).1.lookup s.name =
            (s.filling (members.lookup s.name)).or (members.lookup s.name) :=
      (Inspection.runAll_found hkeys members _ (List.mem_map_of_mem hs)).1
    refine ⟨fun s hs d hfills => ?_, fun key hkey => ?_, rfl, nofun⟩
    · have hmissing : Subfield.present (members.lookup s.name) = none := hfills.missing
      refine (hfound hs).trans ?_
      rw [Subfield.filling_eq_some_iff.mpr ⟨hmissing, hfills.default⟩, Option.some_or]
    · by_cases hname : ∃ s ∈ subfields, s.name = key
      · obtain ⟨s, hs, rfl⟩ := hname
        have hnone : s.filling (members.lookup s.name) = none := by
          refine Option.eq_none_iff_forall_ne_some.mpr fun d hd => ?_
          obtain ⟨hmissing, hdefault⟩ := Subfield.filling_eq_some_iff.mp hd
          exact hkey s hs d ⟨rfl, hmissing, hdefault⟩ rfl
        refine (hfound hs).trans ?_
        rw [hnone, Option.none_or]
        rfl
      · refine Inspection.lookup_runAll_of_ne (fun i hi heq => ?_) members
        obtain ⟨s, hs, rfl⟩ := List.mem_map.mp hi
        exact hname ⟨s, hs, heq.symm⟩
  | _ => exact ⟨fun s hs d hfills => (Bool.false_ne_true hfills.object).elim, fun _ _ => rfl, rfl,
      fun _ => rfl⟩

theorem checkElements_completes (hnames : (subfields.map Subfield.name).Nodup) (field : String)
    (start : Nat) (items : List Json) :
    List.Forall₂ (Json.Completes subfields) items
      (checkElements kindOf field subfields start items).1 := by
  induction items generalizing start with
  | nil => exact .nil
  | cons element rest ih =>
    exact .cons (checkElement_completes hnames field start element) (ih (start + 1))

/-- Whatever a check complains of, it leaves the data but for the defaults. -/
theorem checkRecord_filledIn (hnames : Field.NamesApart fields) (data : Json) :
    data.FilledIn kindOf fields (checkRecord kindOf fields data).1 := by
  cases data with
  | object members =>
    rw [checkRecord_object]
    have hkeys := hnames.nodup_inspections kindOf
    have hfound {f : Field} (hf : f ∈ fields) :
        (Inspection.runAll (fields.map (Field.inspection kindOf)) members).1.lookup f.name =
          (f.inspection kindOf).after (members.lookup f.name) :=
      (Inspection.runAll_found hkeys members _ (List.mem_map_of_mem hf)).1
    refine ⟨fun f hf subfields items hkind hsubfields hitems => ?_, fun key hkey => ?_, rfl, nofun⟩
    · have hitems : members.lookup f.name = some (.array items) := hitems
      have helements := Field.elements?_eq_some_iff.mpr ⟨hkind, hsubfields, hitems⟩
      exact ⟨_, (hfound hf).trans (Field.after_of_elements? helements),
        checkElements_completes (hnames.subnames f hf subfields hsubfields) f.name 0 items⟩
    · by_cases hname : ∃ f ∈ fields, f.name = key
      · obtain ⟨f, hf, rfl⟩ := hname
        have hnone : f.elements? kindOf (members.lookup f.name) = none := by
          refine Option.eq_none_iff_forall_ne_some.mpr fun found hfound => ?_
          obtain ⟨hkind, hsubfields, hitems⟩ := Field.elements?_eq_some_iff.mp hfound
          exact hkey f hf found.1 found.2 hkind hsubfields hitems rfl
        exact (hfound hf).trans (Field.after_of_elements?_eq_none hnone)
      · refine Inspection.lookup_runAll_of_ne (fun i hi heq => ?_) members
        obtain ⟨f, hf, rfl⟩ := List.mem_map.mp hi
        exact hname ⟨f, hf, heq.symm⟩
  | _ => exact ⟨fun f hf _ _ _ _ hitems => (nomatch hitems), fun _ _ => rfl, rfl, fun _ => rfl⟩

end

/-! ## Normal form -/

/-- All defaults of subfields are in normal form. -/
def Field.DefaultsNormal (fields : List Field) : Prop :=
  ∀ f ∈ fields, ∀ subfields, f.subfields = some subfields → ∀ s ∈ subfields, ∀ d,
    s.default = some d → d.IsNormal

theorem Inspection.isNormal_runAll {ν : Type} {inspections : List (Inspection ν)}
    {members : List (String × Json)}
    (hfill : ∀ i ∈ inspections, ∀ v? w, (∀ v, v? = some v → v.IsNormal) →
      i.filling v? = some w → w.IsNormal)
    (h : (Json.object members).IsNormal) :
    (Json.object (runAll inspections members).1).IsNormal := by
  induction inspections generalizing members with
  | nil => exact h
  | cons i rest ih =>
    obtain ⟨hi, hrest⟩ := List.forall_mem_cons.mp hfill
    have hput : (Json.object (i.put members)).IsNormal := by
      unfold put
      cases hfilling : i.filling (members.lookup i.name) with
      | none => exact h
      | some w => exact h.set (hi _ w (fun v hv => h.lookup hv) hfilling) i.name
    exact ih hrest hput

section

variable {kindOf : KindOf} {fields : List Field} {subfields : List Subfield}

theorem isNormal_checkElement
    (hdefaults : ∀ s ∈ subfields, ∀ d, s.default = some d → d.IsNormal) (field : String)
    (index : Nat) {element : Json} (h : element.IsNormal) :
    (checkElement kindOf field subfields index element).1.IsNormal := by
  cases element with
  | object members =>
    rw [checkElement_object]
    refine Inspection.isNormal_runAll (fun i hi v? w _ hw => ?_) h
    obtain ⟨s, hs, rfl⟩ := List.mem_map.mp hi
    exact hdefaults s hs w (Subfield.filling_eq_some_iff.mp hw).2
  | _ => exact h

theorem isNormal_checkElements
    (hdefaults : ∀ s ∈ subfields, ∀ d, s.default = some d → d.IsNormal) (field : String)
    (start : Nat) {items : List Json} (h : ∀ v ∈ items, v.IsNormal) :
    ∀ v ∈ (checkElements kindOf field subfields start items).1, v.IsNormal := by
  induction items generalizing start with
  | nil => exact nofun
  | cons element rest ih =>
    obtain ⟨helement, hrest⟩ := List.forall_mem_cons.mp h
    exact List.forall_mem_cons.mpr
      ⟨isNormal_checkElement hdefaults field start helement, ih (start + 1) hrest⟩

theorem isNormal_checkRecord (hdefaults : Field.DefaultsNormal fields) {data : Json}
    (h : data.IsNormal) : (checkRecord kindOf fields data).1.IsNormal := by
  cases data with
  | object members =>
    rw [checkRecord_object]
    refine Inspection.isNormal_runAll (fun i hi v? w hv hw => ?_) h
    obtain ⟨f, hf, rfl⟩ := List.mem_map.mp hi
    obtain ⟨⟨subfields, items⟩, hfound, rfl⟩ := Option.map_eq_some_iff.mp hw
    obtain ⟨_, hsubfields, rfl⟩ := Field.elements?_eq_some_iff.mp hfound
    exact isNormal_array_iff.mpr (isNormal_checkElements (hdefaults f hf subfields hsubfields)
      f.name 0 (isNormal_array_iff.mp (hv _ rfl)))
  | _ => exact h

/-! ### One result -/

theorem Json.Completes.unique {element a b : Json} (ha : element.Completes subfields a)
    (hb : element.Completes subfields b) (hnormal : a.IsNormal) (hnormal' : b.IsNormal) :
    a = b := by
  cases hobject : element.isObject with
  | false => rw [ha.others hobject, hb.others hobject]
  | true =>
    refine hnormal.ext hnormal' (ha.object.trans hobject) (hb.object.trans hobject) fun key => ?_
    by_cases hfills : ∃ s ∈ subfields, ∃ d, s.FillsIn d element ∧ s.name = key
    · obtain ⟨s, hs, d, hd, rfl⟩ := hfills
      rw [ha.fills s hs d hd, hb.fills s hs d hd]
    · have hnone : ∀ s ∈ subfields, ∀ d, s.FillsIn d element → s.name ≠ key :=
        fun s hs d hd hname => hfills ⟨s, hs, d, hd, hname⟩
      rw [ha.keeps key hnone, hb.keeps key hnone]

theorem Json.Completes.unique_items {items as bs : List Json}
    (ha : List.Forall₂ (Json.Completes subfields) items as)
    (hb : List.Forall₂ (Json.Completes subfields) items bs) (hnormal : ∀ v ∈ as, v.IsNormal)
    (hnormal' : ∀ v ∈ bs, v.IsNormal) : as = bs := by
  induction ha generalizing bs with
  | nil =>
    cases hb
    rfl
  | cons hfirst _ ih =>
    cases hb with
    | cons hfirst' hrest' =>
      obtain ⟨hv, hvs⟩ := List.forall_mem_cons.mp hnormal
      obtain ⟨hv', hvs'⟩ := List.forall_mem_cons.mp hnormal'
      rw [hfirst.unique hfirst' hv hv', ih hrest' hvs hvs']

/-- There is one result in normal form that the data can be filled in to. -/
theorem Json.FilledIn.unique {data a b : Json} (ha : data.FilledIn kindOf fields a)
    (hb : data.FilledIn kindOf fields b) (hnormal : a.IsNormal) (hnormal' : b.IsNormal) :
    a = b := by
  cases hobject : data.isObject with
  | false => rw [ha.others hobject, hb.others hobject]
  | true =>
    refine hnormal.ext hnormal' (ha.object.trans hobject) (hb.object.trans hobject) fun key => ?_
    by_cases harray : ∃ f ∈ fields, ∃ subfields items, kindOf f.dataType = some .array ∧
        f.subfields = some subfields ∧ data.get? f.name = some (.array items) ∧ f.name = key
    · obtain ⟨f, hf, subfields, items, hkind, hsubfields, hitems, rfl⟩ := harray
      obtain ⟨as, has, hcompletes⟩ := ha.elements f hf subfields items hkind hsubfields hitems
      obtain ⟨bs, hbs, hcompletes'⟩ := hb.elements f hf subfields items hkind hsubfields hitems
      rw [has, hbs, Json.Completes.unique_items hcompletes hcompletes'
        (isNormal_array_iff.mp (hnormal.get? has))
        (isNormal_array_iff.mp (hnormal'.get? hbs))]
    · have hnone : ∀ f ∈ fields, ∀ subfields items, kindOf f.dataType = some .array →
          f.subfields = some subfields → data.get? f.name = some (.array items) → f.name ≠ key :=
        fun f hf subfields items hkind hsubfields hitems hname =>
          harray ⟨f, hf, subfields, items, hkind, hsubfields, hitems, hname⟩
      rw [ha.keeps key hnone, hb.keeps key hnone]

end

/-- A check accepts the data that conform to the fields, and no others.  Whatever it says, the data
that come back are the given ones with the defaults of subfields filled in where an element has no
value.  For data in normal form that says all of them, since they are in normal form again.  A
second check leaves them as they are. -/
theorem check_meets_specification (kindOf : KindOf) {fields : List Field}
    (hnames : Field.NamesApart fields) (data : Json) :
    ((checkRecord kindOf fields data).2 = [] ↔ data.Conforms kindOf fields) ∧
      data.FilledIn kindOf fields (checkRecord kindOf fields data).1 ∧
      (data.IsNormal → Field.DefaultsNormal fields →
        (checkRecord kindOf fields data).1.IsNormal ∧
        ∀ result, result.IsNormal → data.FilledIn kindOf fields result →
          result = (checkRecord kindOf fields data).1) ∧
      (checkRecord kindOf fields (checkRecord kindOf fields data).1).1 =
        (checkRecord kindOf fields data).1 := by
  have hfilled : data.FilledIn kindOf fields (checkRecord kindOf fields data).1 :=
    checkRecord_filledIn hnames data
  refine ⟨checkRecord_eq_nil_iff hnames data, hfilled, fun hnormal hdefaults => ?_,
    (checkRecord_again kindOf hnames data).1⟩
  have hresult : (checkRecord kindOf fields data).1.IsNormal :=
    isNormal_checkRecord hdefaults hnormal
  exact ⟨hresult, fun result h hresult' => hresult'.unique hfilled h hresult⟩

namespace Sample

def text : DataTypeId := ⟨"text", by decide +kernel⟩

def list : DataTypeId := ⟨"list", by decide +kernel⟩

def textsAndLists : KindOf := fun id => [(text, Kind.string), (list, Kind.array)].lookup id

/-- What an amount is counted in: pieces, unless weight is said. -/
def unit : Subfield :=
  { Subfield.ofName "unit" text with
    default := some (.string "pc")
    constraints := some ⟨none, none, none, some ["pc", "kg"]⟩ }

def amounts : Field :=
  { id := ⟨"amounts", by decide +kernel⟩, name := "amounts",
    module := ⟨"parcels", by decide +kernel⟩,
    dataType := list, isLabel := false, createdAt := 4, updatedAt := 4, subfields := some [unit] }

theorem amounts_namesApart : Field.NamesApart [amounts] where
  names := List.pairwise_singleton _ _
  subnames := by
    intro f hf subfields hsubfields
    cases List.mem_singleton.mp hf
    cases hsubfields
    exact List.pairwise_singleton _ _

/-- The data of a parcel of amounts in some units. -/
def amountsIn (units : List (List (String × Json))) : Json :=
  .object [("amounts", .array (units.map .object))]

end Sample

/-- Amounts that do not say their unit are accepted and come back in pieces.  Amounts in liters are
refused. -/
theorem check_meets_specification_on_sample :
    Field.NamesApart [Sample.amounts] ∧
      (Sample.amountsIn [[], [("unit", .null)]]).Conforms Sample.textsAndLists [Sample.amounts] ∧
      (Sample.amountsIn [[], [("unit", .null)]]).FilledIn Sample.textsAndLists [Sample.amounts]
        (Sample.amountsIn [[("unit", .string "pc")], [("unit", .string "pc")]]) ∧
      ¬(Sample.amountsIn [[("unit", .string "l")]]).Conforms Sample.textsAndLists
        [Sample.amounts] := by
  have haccepted : checkRecord Sample.textsAndLists [Sample.amounts]
      (Sample.amountsIn [[], [("unit", .null)]]) =
        (Sample.amountsIn [[("unit", .string "pc")], [("unit", .string "pc")]], []) := by rfl
  have hrefused : checkRecord Sample.textsAndLists [Sample.amounts]
      (Sample.amountsIn [[("unit", .string "l")]]) =
        (Sample.amountsIn [[("unit", .string "l")]],
          [⟨.subfield "amounts" 0 "unit", .notAllowed ["pc", "kg"]⟩]) := by rfl
  obtain ⟨hconforms, hfilled, -⟩ := check_meets_specification Sample.textsAndLists
    Sample.amounts_namesApart (Sample.amountsIn [[], [("unit", .null)]])
  obtain ⟨hconforms', -⟩ := check_meets_specification Sample.textsAndLists
    Sample.amounts_namesApart (Sample.amountsIn [[("unit", .string "l")]])
  rw [haccepted] at hconforms hfilled
  rw [hrefused] at hconforms'
  exact ⟨Sample.amounts_namesApart, hconforms.mp rfl, hfilled, fun h => nomatch hconforms'.mpr h⟩

end RecordRules
