/-
Inspections of the members of an object.

A check of data goes through names, those of fields or of subfields, and inspects the member of
each.  An inspection may put something in under its name and may have remarks, both told from what
stands there.  Inspections of different names do not meet: each finds what was there at the start,
and what it puts in stays.
-/
import Mathlib.Data.List.Basic
import RecordRules.Proofs.Json.Normal

namespace RecordRules

open Json

/-- An inspection of the member of a name: what it puts in there, and what it remarks. -/
structure Inspection (ν : Type) where
  name : String
  filling : Option Json → Option Json
  remarks : Option Json → List ν

namespace Inspection

variable {ν : Type}

/-- The members after an inspection. -/
def put (i : Inspection ν) (members : List (String × Json)) : List (String × Json) :=
  match i.filling (members.lookup i.name) with
  | some v => insertMember i.name v members
  | none => members

/-- What stands under the name after the inspection. -/
def after (i : Inspection ν) (v? : Option Json) : Option Json := (i.filling v?).or v?

/-- The members after one inspection after another, with all remarks. -/
def runAll : List (Inspection ν) → List (String × Json) → List (String × Json) × List ν
  | [], members => (members, [])
  | i :: rest, members =>
    let (filled, later) := runAll rest (i.put members)
    (filled, i.remarks (members.lookup i.name) ++ later)

/-- An inspection that finds what it has put in puts in the same again, if anything. -/
def Settles (i : Inspection ν) : Prop :=
  ∀ v? v, i.filling (i.after v?) = some v → i.filling v? = some v

/-! ## Other names -/

theorem lookup_put_self (i : Inspection ν) (members : List (String × Json)) :
    (i.put members).lookup i.name = i.after (members.lookup i.name) := by
  unfold put after
  cases i.filling (members.lookup i.name) with
  | none => rfl
  | some v => exact lookup_insertMember_self i.name v members

theorem lookup_put_of_ne {i : Inspection ν} {name : String} (h : name ≠ i.name)
    (members : List (String × Json)) : (i.put members).lookup name = members.lookup name := by
  unfold put
  cases i.filling (members.lookup i.name) with
  | none => rfl
  | some v => exact lookup_insertMember_of_ne h v members

/-- A member that stands in its place stays there while something else is put in. -/
theorem insertMember_put {i : Inspection ν} {name : String} (h : name ≠ i.name) {v : Json}
    {members : List (String × Json)} (hplaced : insertMember name v members = members) :
    insertMember name v (i.put members) = i.put members := by
  unfold put
  cases i.filling (members.lookup i.name) with
  | none => exact hplaced
  | some w =>
    dsimp only
    rw [insertMember_comm h, hplaced]

theorem lookup_runAll_of_ne {inspections : List (Inspection ν)} {name : String}
    (h : ∀ i ∈ inspections, name ≠ i.name) (members : List (String × Json)) :
    (runAll inspections members).1.lookup name = members.lookup name := by
  induction inspections generalizing members with
  | nil => rfl
  | cons i rest ih =>
    obtain ⟨hi, hrest⟩ := List.forall_mem_cons.mp h
    exact (ih hrest (i.put members)).trans (lookup_put_of_ne hi members)

theorem insertMember_runAll {inspections : List (Inspection ν)} {name : String}
    (h : ∀ i ∈ inspections, name ≠ i.name) {v : Json} {members : List (String × Json)}
    (hplaced : insertMember name v members = members) :
    insertMember name v (runAll inspections members).1 = (runAll inspections members).1 := by
  induction inspections generalizing members with
  | nil => exact hplaced
  | cons i rest ih =>
    obtain ⟨hi, hrest⟩ := List.forall_mem_cons.mp h
    exact ih hrest (insertMember_put hi hplaced)

/-! ## All inspections -/

/-- What stands under a name in the end is what its inspection has left, and if that was put in, it
has its place. -/
theorem runAll_found {inspections : List (Inspection ν)}
    (hnames : (inspections.map Inspection.name).Nodup) (members : List (String × Json)) :
    ∀ i ∈ inspections,
      (runAll inspections members).1.lookup i.name = i.after (members.lookup i.name) ∧
        ∀ v, i.filling (members.lookup i.name) = some v →
          insertMember i.name v (runAll inspections members).1 =
            (runAll inspections members).1 := by
  induction inspections generalizing members with
  | nil => exact List.forall_mem_nil _
  | cons first rest ih =>
    rw [List.map_cons, List.nodup_cons] at hnames
    obtain ⟨hfirst, hrest⟩ := hnames
    have hne : ∀ i ∈ rest, first.name ≠ i.name := fun i hi heq =>
      hfirst (heq ▸ List.mem_map_of_mem hi)
    refine List.forall_mem_cons.mpr ⟨⟨?_, fun v hv => ?_⟩, fun i hi => ?_⟩
    · exact (lookup_runAll_of_ne hne _).trans (lookup_put_self first members)
    · refine insertMember_runAll hne ?_
      unfold put
      rw [hv]
      exact insertMember_insertMember first.name v v members
    · have hlater := ih hrest (first.put members) i hi
      rw [lookup_put_of_ne (hne i hi).symm] at hlater
      exact hlater

/-- Each inspection remarks on what was there at the start. -/
theorem runAll_remarks {inspections : List (Inspection ν)}
    (hnames : (inspections.map Inspection.name).Nodup) (members : List (String × Json)) :
    (runAll inspections members).2 =
      inspections.flatMap fun i => i.remarks (members.lookup i.name) := by
  induction inspections generalizing members with
  | nil => rfl
  | cons first rest ih =>
    rw [List.map_cons, List.nodup_cons] at hnames
    obtain ⟨hfirst, hrest⟩ := hnames
    have hlater := ih hrest (first.put members)
    rw [List.flatMap_cons]
    refine congrArg (first.remarks (members.lookup first.name) ++ ·) (hlater.trans ?_)
    refine List.flatMap_congr fun i hi => ?_
    have hne : i.name ≠ first.name := fun heq => hfirst (heq ▸ List.mem_map_of_mem hi)
    rw [lookup_put_of_ne hne]

theorem runAll_idle {inspections : List (Inspection ν)} {members : List (String × Json)}
    (h : ∀ i ∈ inspections, i.put members = members) :
    (runAll inspections members).1 = members := by
  induction inspections with
  | nil => rfl
  | cons first rest ih =>
    obtain ⟨hfirst, hrest⟩ := List.forall_mem_cons.mp h
    show (runAll rest (first.put members)).1 = members
    rw [hfirst]
    exact ih hrest

/-- Inspections that are run again change nothing, and each remarks on what it has left. -/
theorem runAll_runAll {inspections : List (Inspection ν)}
    (hnames : (inspections.map Inspection.name).Nodup) (hsettles : ∀ i ∈ inspections, i.Settles)
    (members : List (String × Json)) :
    runAll inspections (runAll inspections members).1 = ((runAll inspections members).1,
      inspections.flatMap fun i => i.remarks (i.after (members.lookup i.name))) := by
  have hfound := runAll_found hnames members
  refine Prod.ext (runAll_idle fun i hi => ?_) ?_
  · obtain ⟨hlookup, hplaced⟩ := hfound i hi
    unfold put
    rw [hlookup]
    cases hagain : i.filling (i.after (members.lookup i.name)) with
    | none => rfl
    | some v => exact hplaced v (hsettles i hi _ v hagain)
  · rw [runAll_remarks hnames]
    exact List.flatMap_congr fun i hi => by rw [(hfound i hi).1]

end Inspection
end RecordRules
