/-
Data that are checked again.

The first check fills in defaults and looks at what was there; the second one finds the defaults and
looks at them like at any other value.  So it changes nothing, and it complains of what the first
one complained of and of the defaults that do not fit their own subfields.
-/
import RecordRules.Proofs.Validation.Inspection
import RecordRules.Validation

namespace RecordRules

open Json

/-! ## Subfields -/

namespace Subfield

/-- The complaints about a value of a subfield: whether it is of the kind of the subfield, and
within its constraints. -/
def faults (kindOf : KindOf) (s : Subfield) (v : Json) : List Complaint :=
  match kindOf s.dataType with
  | none => []
  | some kind =>
    match Value.ofJson kind v with
    | .error e => [.badValue e]
    | .ok value => (s.constraints.map fun c => c.complaints value).getD []

/-- The value that stands there, unless it is null. -/
def present (v? : Option Json) : Option Json := v?.filter fun v => !v.isNull

/-- What a check of a subfield complains of, given what stands there. -/
def complaints (kindOf : KindOf) (s : Subfield) (v? : Option Json) : List Complaint :=
  match present v? with
  | none => if s.default.isNone && s.required then [.missing] else []
  | some raw => s.faults kindOf raw

/-- The default, if there is no value. -/
def filling (s : Subfield) (v? : Option Json) : Option Json :=
  match present v? with
  | none => s.default
  | some _ => none

def inspection (kindOf : KindOf) (field : String) (index : Nat) (s : Subfield) :
    Inspection Violation where
  name := s.name
  filling := s.filling
  remarks v? := (s.complaints kindOf v?).map (⟨.subfield field index s.name, ·⟩)

variable {kindOf : KindOf} {s : Subfield} {field : String} {index : Nat}

theorem check_eq (kindOf : KindOf) (field : String) (index : Nat) (s : Subfield)
    (members : List (String × Json)) :
    s.check kindOf members = ((s.inspection kindOf field index).put members,
      s.complaints kindOf (members.lookup s.name)) := by
  unfold check Inspection.put inspection complaints filling present faults
  dsimp only
  cases (members.lookup s.name).filter fun v => !v.isNull with
  | none =>
    cases s.default with
    | none => rfl
    | some d => rfl
  | some raw =>
    dsimp only
    cases kindOf s.dataType with
    | none => rfl
    | some kind =>
      dsimp only
      cases Value.ofJson kind raw with
      | error e => rfl
      | ok value => rfl

/-- Null is a value of every kind, within all constraints. -/
theorem faults_null : s.faults kindOf .null = [] := by
  unfold faults
  cases kindOf s.dataType with
  | none => rfl
  | some kind => cases kind <;> cases s.constraints <;> rfl

theorem present_null : present (some .null) = none := rfl

/-- A default that was filled in is looked at like any other value. -/
theorem complaints_default {d : Json} (h : s.default = some d) :
    s.complaints kindOf (some d) = s.faults kindOf d := by
  cases d with
  | null =>
    rw [faults_null, complaints, present_null, h]
    rfl
  | _ => rfl

theorem filling_eq_some_iff {v? : Option Json} {d : Json} :
    s.filling v? = some d ↔ present v? = none ∧ s.default = some d := by
  unfold filling
  cases present v? with
  | none => exact (and_iff_right rfl).symm
  | some raw => exact ⟨nofun, nofun⟩

theorem settles_inspection : (s.inspection kindOf field index).Settles := by
  intro v? d (h : s.filling ((s.filling v?).or v?) = some d)
  show s.filling v? = some d
  obtain ⟨hpresent, hdefault⟩ := filling_eq_some_iff.mp h
  cases hfilling : s.filling v? with
  | none =>
    rw [hfilling] at h
    exact absurd (hfilling.symm.trans h) nofun
  | some d' =>
    obtain ⟨_, hdefault'⟩ := filling_eq_some_iff.mp hfilling
    rw [← hdefault', hdefault]

/-- An inspection of what one has left remarks on the same again, and on a default it has put in. -/
theorem mem_remarks_after {v? : Option Json} {v : Violation} :
    v ∈ (s.inspection kindOf field index).remarks ((s.inspection kindOf field index).after v?) ↔
      v ∈ (s.inspection kindOf field index).remarks v? ∨
        ∃ d, s.filling v? = some d ∧ ∃ c ∈ s.faults kindOf d,
          v = ⟨.subfield field index s.name, c⟩ := by
  have hremarks : ∀ v?, v ∈ (s.inspection kindOf field index).remarks v? ↔
      ∃ c ∈ s.complaints kindOf v?, v = ⟨.subfield field index s.name, c⟩ := by
    intro v?
    refine List.mem_map.trans (exists_congr fun c => and_congr_right fun _ => eq_comm)
  rw [hremarks, hremarks]
  have hafter : (s.inspection kindOf field index).after v? = (s.filling v?).or v? := rfl
  rw [hafter]
  cases hfilling : s.filling v? with
  | none => simp
  | some d =>
    obtain ⟨hpresent, hdefault⟩ := filling_eq_some_iff.mp hfilling
    have hsilent : s.complaints kindOf v? = [] := by
      unfold complaints
      rw [hpresent, hdefault]
      rfl
    rw [Option.some_or, complaints_default hdefault, hsilent]
    simp

end Subfield

/-! ## Elements -/

theorem checkMembers_eq (kindOf : KindOf) (field : String) (index : Nat) (subfields : List Subfield)
    (members : List (String × Json)) :
    checkMembers kindOf field index subfields members =
      Inspection.runAll (subfields.map (Subfield.inspection kindOf field index)) members := by
  induction subfields generalizing members with
  | nil => rfl
  | cons s rest ih =>
    unfold checkMembers
    rw [s.check_eq kindOf field index]
    dsimp only
    rw [ih]
    rfl

theorem checkElement_object (kindOf : KindOf) (field : String) (index : Nat)
    (subfields : List Subfield) (members : List (String × Json)) :
    checkElement kindOf field subfields index (.object members) =
      let looked :=
        Inspection.runAll (subfields.map (Subfield.inspection kindOf field index)) members
      (.object looked.1, looked.2) := by
  unfold checkElement
  dsimp only
  rw [checkMembers_eq]

theorem Subfield.nodup_inspections {subfields : List Subfield}
    (hnames : (subfields.map Subfield.name).Nodup) (kindOf : KindOf) (field : String)
    (index : Nat) :
    ((subfields.map (Subfield.inspection kindOf field index)).map Inspection.name).Nodup := by
  rw [List.map_map]
  exact hnames

/-- A default of a subfield goes into an element that has no value for it. -/
structure Subfield.FillsIn (s : Subfield) (d element : Json) : Prop where
  object : element.isObject = true
  missing : present (element.get? s.name) = none
  default : s.default = some d

section Again

variable {kindOf : KindOf} {field : String} {subfields : List Subfield} {v : Violation}

theorem checkElement_again (kindOf : KindOf) (field : String)
    (hnames : (subfields.map Subfield.name).Nodup) (index : Nat) (element : Json) :
    let first := checkElement kindOf field subfields index element
    let again := checkElement kindOf field subfields index first.1
    again.1 = first.1 ∧ ∀ v, v ∈ again.2 ↔ v ∈ first.2 ∨
      ∃ s ∈ subfields, ∃ d, s.FillsIn d element ∧
        ∃ c ∈ s.faults kindOf d, v = ⟨.subfield field index s.name, c⟩ := by
  have hnone {w : Json} (hw : w.isObject = false) {P : Subfield → Json → Prop} :
      ¬ ∃ s ∈ subfields, ∃ d, s.FillsIn d w ∧ P s d := by
    rintro ⟨s, _, d, hfills, _⟩
    exact absurd hfills.object (ne_true_of_eq_false hw)
  cases element with
  | object members =>
    have hkeys := Subfield.nodup_inspections hnames kindOf field index
    have hsettles : ∀ i ∈ subfields.map (Subfield.inspection kindOf field index), i.Settles :=
      List.forall_mem_map.mpr fun s _ => Subfield.settles_inspection
    dsimp only
    rw [checkElement_object, checkElement_object, Inspection.runAll_runAll hkeys hsettles members,
      Inspection.runAll_remarks hkeys members]
    refine ⟨rfl, fun v => ?_⟩
    rw [List.flatMap_map, List.flatMap_map, List.mem_flatMap, List.mem_flatMap, ← exists_or]
    refine exists_congr fun s => ?_
    rw [← and_or_left]
    refine and_congr_right fun hs => Subfield.mem_remarks_after.trans (or_congr_right ?_)
    refine exists_congr fun d => and_congr_left fun _ => ?_
    exact Subfield.filling_eq_some_iff.trans
      ⟨fun h => ⟨rfl, h.1, h.2⟩, fun h => ⟨h.missing, h.default⟩⟩
  | _ => exact ⟨rfl, fun v => (or_iff_left (hnone rfl)).symm⟩

theorem checkElements_eq (kindOf : KindOf) (field : String) (subfields : List Subfield)
    (start : Nat) (elements : List Json) :
    checkElements kindOf field subfields start elements =
      ((elements.zipIdx start).map fun e => (checkElement kindOf field subfields e.2 e.1).1,
        (elements.zipIdx start).flatMap fun e =>
          (checkElement kindOf field subfields e.2 e.1).2) := by
  induction elements generalizing start with
  | nil => rfl
  | cons element rest ih =>
    unfold checkElements
    rw [ih]
    rfl

theorem getElem?_checkElements {elements : List Json} {index : Nat} :
    (checkElements kindOf field subfields 0 elements).1[index]? =
      elements[index]?.map fun element =>
        (checkElement kindOf field subfields index element).1 := by
  rw [checkElements_eq, List.getElem?_map, List.getElem?_zipIdx, Option.map_map, Nat.zero_add]
  rfl

theorem mem_checkElements {elements : List Json} :
    v ∈ (checkElements kindOf field subfields 0 elements).2 ↔ ∃ index element,
      elements[index]? = some element ∧
        v ∈ (checkElement kindOf field subfields index element).2 := by
  rw [checkElements_eq, List.mem_flatMap]
  constructor
  · rintro ⟨⟨element, index⟩, hmem, hv⟩
    exact ⟨index, element, List.mk_mem_zipIdx_iff_getElem?.mp hmem, hv⟩
  · rintro ⟨index, element, hindex, hv⟩
    exact ⟨⟨element, index⟩, List.mk_mem_zipIdx_iff_getElem?.mpr hindex, hv⟩

theorem checkElements_again (kindOf : KindOf) (field : String)
    (hnames : (subfields.map Subfield.name).Nodup) (elements : List Json) :
    let first := checkElements kindOf field subfields 0 elements
    let again := checkElements kindOf field subfields 0 first.1
    again.1 = first.1 ∧ ∀ v, v ∈ again.2 ↔ v ∈ first.2 ∨
      ∃ index element, elements[index]? = some element ∧ ∃ s ∈ subfields, ∃ d,
        s.FillsIn d element ∧ ∃ c ∈ s.faults kindOf d, v = ⟨.subfield field index s.name, c⟩ := by
  dsimp only
  constructor
  · refine List.ext_getElem? fun index => ?_
    rw [getElem?_checkElements, getElem?_checkElements, Option.map_map]
    exact Option.map_congr fun element _ => (checkElement_again kindOf field hnames index element).1
  · intro v
    rw [mem_checkElements, mem_checkElements, ← exists_or]
    refine exists_congr fun index => ?_
    rw [getElem?_checkElements]
    cases elements[index]? with
    | none => simp
    | some element =>
      have hagain := (checkElement_again kindOf field hnames index element).2 v
      simpa using hagain

end Again

/-! ## Fields -/

namespace Field

/-- No name is given twice: not to fields, and not to subfields of one field. -/
structure NamesApart (fields : List Field) : Prop where
  names : (fields.map name).Nodup
  subnames : ∀ f ∈ fields, ∀ subfields, f.subfields = some subfields →
    (subfields.map Subfield.name).Nodup

/-- The elements that a check of a field goes through, with the subfields it looks for. -/
def elements? (kindOf : KindOf) (f : Field) (v? : Option Json) :
    Option (List Subfield × List Json) :=
  match kindOf f.dataType, f.subfields, v? with
  | some .array, some subfields, some (.array elements) => some (subfields, elements)
  | _, _, _ => none

/-- The complaint about a value that is not of the kind of the field. -/
def mismatch (kindOf : KindOf) (f : Field) (v? : Option Json) : List Violation :=
  match v?, kindOf f.dataType with
  | some raw, some kind =>
    match Value.ofJson kind raw with
    | .error e => [⟨.field f.name, .badValue e⟩]
    | .ok _ => []
  | _, _ => []

def inspection (kindOf : KindOf) (f : Field) : Inspection Violation where
  name := f.name
  filling v? := (f.elements? kindOf v?).map fun (subfields, elements) =>
    .array (checkElements kindOf f.name subfields 0 elements).1
  remarks v? := f.mismatch kindOf v? ++
    ((f.elements? kindOf v?).map fun (subfields, elements) =>
      (checkElements kindOf f.name subfields 0 elements).2).getD []

variable {kindOf : KindOf} {f : Field} {v? : Option Json}

theorem elements?_eq_some_iff {subfields : List Subfield} {elements : List Json} :
    f.elements? kindOf v? = some (subfields, elements) ↔ kindOf f.dataType = some .array ∧
      f.subfields = some subfields ∧ v? = some (.array elements) := by
  unfold elements?
  constructor
  · intro h
    split at h
    · next hkind hsubfields =>
      cases h
      exact ⟨hkind, hsubfields, rfl⟩
    · cases h
  · rintro ⟨hkind, hsubfields, rfl⟩
    rw [hkind, hsubfields]

/-- What has elements is an array, which is what the field asks for. -/
theorem mismatch_of_elements? {subfields : List Subfield} {elements : List Json}
    (h : f.elements? kindOf v? = some (subfields, elements)) : f.mismatch kindOf v? = [] := by
  obtain ⟨hkind, _, rfl⟩ := elements?_eq_some_iff.mp h
  unfold mismatch
  rw [hkind]
  rfl

theorem check_eq (kindOf : KindOf) (f : Field) (members : List (String × Json)) :
    f.check kindOf members = ((f.inspection kindOf).put members,
      (f.inspection kindOf).remarks (members.lookup f.name)) := by
  cases helements : f.elements? kindOf (members.lookup f.name) with
  | some found =>
    obtain ⟨subfields, elements⟩ := found
    obtain ⟨hkind, hsubfields, hraw⟩ := elements?_eq_some_iff.mp helements
    unfold Inspection.put inspection
    dsimp only
    rw [mismatch_of_elements? helements, helements]
    unfold check
    rw [hkind, hsubfields, hraw]
    rfl
  | none =>
    have hplain : f.check kindOf members =
        (members, f.mismatch kindOf (members.lookup f.name)) := by
      unfold check mismatch
      cases hraw : members.lookup f.name with
      | none => rfl
      | some raw =>
        cases hkind : kindOf f.dataType with
        | none => rfl
        | some kind =>
          dsimp only
          cases Value.ofJson kind raw with
          | error e => rfl
          | ok value =>
            dsimp only
            split
            · next hsubfields =>
              have hsome := elements?_eq_some_iff.mpr ⟨hkind, hsubfields, hraw⟩
              exact absurd (helements.symm.trans hsome) nofun
            · rfl
    rw [hplain]
    unfold Inspection.put inspection
    dsimp only
    rw [helements, Option.map_none, Option.map_none, Option.getD_none, List.append_nil]

/-! ### What an inspection has left -/

theorem filling_inspection : (f.inspection kindOf).filling v? =
    (f.elements? kindOf v?).map fun (subfields, elements) =>
      .array (checkElements kindOf f.name subfields 0 elements).1 := rfl

theorem after_of_elements? {subfields : List Subfield} {elements : List Json}
    (h : f.elements? kindOf v? = some (subfields, elements)) :
    (f.inspection kindOf).after v? =
      some (.array (checkElements kindOf f.name subfields 0 elements).1) := by
  unfold Inspection.after inspection
  dsimp only
  rw [h]
  rfl

theorem after_of_elements?_eq_none (h : f.elements? kindOf v? = none) :
    (f.inspection kindOf).after v? = v? := by
  unfold Inspection.after inspection
  dsimp only
  rw [h]
  rfl

/-- After an inspection the elements are those that it has put in. -/
theorem elements?_after {subfields : List Subfield} {elements : List Json}
    (h : f.elements? kindOf v? = some (subfields, elements)) :
    f.elements? kindOf ((f.inspection kindOf).after v?) =
      some (subfields, (checkElements kindOf f.name subfields 0 elements).1) := by
  obtain ⟨hkind, hsubfields, _⟩ := elements?_eq_some_iff.mp h
  exact elements?_eq_some_iff.mpr ⟨hkind, hsubfields, after_of_elements? h⟩

theorem settles_inspection (hsubnames : ∀ subfields, f.subfields = some subfields →
    (subfields.map Subfield.name).Nodup) : (f.inspection kindOf).Settles := by
  intro v? v h
  cases helements : f.elements? kindOf v? with
  | none =>
    rw [after_of_elements?_eq_none helements] at h
    exact h
  | some found =>
    obtain ⟨subfields, elements⟩ := found
    obtain ⟨_, hsubfields, _⟩ := elements?_eq_some_iff.mp helements
    have hagain := (checkElements_again kindOf f.name (hsubnames _ hsubfields) elements).1
    rw [filling_inspection, elements?_after helements] at h
    rw [filling_inspection, helements, ← h]
    exact congrArg (fun elements => some (Json.array elements)) hagain.symm

/-- A default of a subfield goes into an element of what a field has. -/
def FillsIn (kindOf : KindOf) (f : Field) (v? : Option Json) (index : Nat) (s : Subfield)
    (d : Json) : Prop :=
  ∃ subfields elements element, f.elements? kindOf v? = some (subfields, elements) ∧
    elements[index]? = some element ∧ s ∈ subfields ∧ s.FillsIn d element

theorem mem_remarks_after (hsubnames : ∀ subfields, f.subfields = some subfields →
    (subfields.map Subfield.name).Nodup) {v : Violation} :
    v ∈ (f.inspection kindOf).remarks ((f.inspection kindOf).after v?) ↔
      v ∈ (f.inspection kindOf).remarks v? ∨ ∃ index s d, f.FillsIn kindOf v? index s d ∧
        ∃ c ∈ s.faults kindOf d, v = ⟨.subfield f.name index s.name, c⟩ := by
  unfold FillsIn
  cases helements : f.elements? kindOf v? with
  | none =>
    rw [after_of_elements?_eq_none helements]
    simp
  | some found =>
    obtain ⟨subfields, elements⟩ := found
    obtain ⟨_, hsubfields, _⟩ := elements?_eq_some_iff.mp helements
    have hagain := (checkElements_again kindOf f.name (hsubnames _ hsubfields) elements).2 v
    have hremarks {v? : Option Json} {elements : List Json}
        (h : f.elements? kindOf v? = some (subfields, elements)) :
        (f.inspection kindOf).remarks v? =
          (checkElements kindOf f.name subfields 0 elements).2 := by
      unfold inspection
      dsimp only
      rw [mismatch_of_elements? h, h]
      rfl
    rw [hremarks (elements?_after helements), hremarks helements, hagain]
    refine or_congr_right ?_
    constructor
    · rintro ⟨index, element, hindex, s, hs, d, hfills, hcomplaint⟩
      exact ⟨index, s, d, ⟨subfields, elements, element, rfl, hindex, hs, hfills⟩, hcomplaint⟩
    · rintro ⟨index, s, d, ⟨_, _, element, heq, hindex, hs, hfills⟩, hcomplaint⟩
      cases heq
      exact ⟨index, element, hindex, s, hs, d, hfills, hcomplaint⟩

end Field

/-! ## Records -/

theorem checkFields_eq (kindOf : KindOf) (fields : List Field) (members : List (String × Json)) :
    checkFields kindOf fields members =
      Inspection.runAll (fields.map (Field.inspection kindOf)) members := by
  induction fields generalizing members with
  | nil => rfl
  | cons f rest ih =>
    unfold checkFields
    rw [f.check_eq]
    dsimp only
    rw [ih]
    rfl

theorem checkRecord_object (kindOf : KindOf) (fields : List Field)
    (members : List (String × Json)) :
    checkRecord kindOf fields (.object members) =
      let looked := Inspection.runAll (fields.map (Field.inspection kindOf)) members
      (.object looked.1, looked.2) := by
  unfold checkRecord
  dsimp only
  rw [checkFields_eq]

theorem Field.NamesApart.nodup_inspections {fields : List Field} (h : Field.NamesApart fields)
    (kindOf : KindOf) : ((fields.map (Field.inspection kindOf)).map Inspection.name).Nodup := by
  rw [List.map_map]
  exact h.names

/-- The violation is of a default that does not fit its own subfield and that a check of the data
fills in. -/
def Violation.OfDefault (kindOf : KindOf) (fields : List Field) (data : Json) (v : Violation) :
    Prop :=
  ∃ f ∈ fields, ∃ index s d, f.FillsIn kindOf (data.get? f.name) index s d ∧
    ∃ c ∈ s.faults kindOf d, v = ⟨.subfield f.name index s.name, c⟩

/-- Data that are checked again stay as the first check has left them.  The violations are the ones
of the first check and those of the defaults that it has filled in. -/
theorem checkRecord_again (kindOf : KindOf) {fields : List Field} (hnames : Field.NamesApart fields)
    (data : Json) :
    let first := checkRecord kindOf fields data
    let again := checkRecord kindOf fields first.1
    again.1 = first.1 ∧ ∀ v, v ∈ again.2 ↔ v ∈ first.2 ∨ v.OfDefault kindOf fields data := by
  have hkeys := hnames.nodup_inspections kindOf
  have hsettles : ∀ i ∈ fields.map (Field.inspection kindOf), i.Settles :=
    List.forall_mem_map.mpr fun f hf => Field.settles_inspection (hnames.subnames f hf)
  have hnone {v : Violation} {w : Json} (hw : ∀ key, w.get? key = none) :
      ¬ v.OfDefault kindOf fields w := by
    rintro ⟨f, _, index, s, d, ⟨_, _, _, helements, _⟩, _⟩
    obtain ⟨_, _, hraw⟩ := Field.elements?_eq_some_iff.mp helements
    rw [hw] at hraw
    cases hraw
  cases data with
  | object members =>
    dsimp only
    rw [checkRecord_object, checkRecord_object, Inspection.runAll_runAll hkeys hsettles members,
      Inspection.runAll_remarks hkeys members]
    refine ⟨rfl, fun v => ?_⟩
    unfold Violation.OfDefault
    rw [List.flatMap_map, List.flatMap_map, List.mem_flatMap, List.mem_flatMap, ← exists_or]
    refine exists_congr fun f => ?_
    rw [← and_or_left]
    exact and_congr_right fun hf => Field.mem_remarks_after (hnames.subnames f hf)
  | _ => exact ⟨rfl, fun v => (or_iff_left (hnone fun _ => rfl)).symm⟩

end RecordRules
