/-
Target addresses name one field each.

The text of an address is a dollar sign and two identifiers with the mark `-$` between them.  No
identifier has a dollar sign, so cutting a text at its marks gives back the identifiers that were
put together, hyphens at their ends included.  A text that reads as an address is therefore the text
of what is read, and nothing else can be read from it.
-/
import Mathlib.Data.List.Basic
import RecordRules.Address

namespace RecordRules

theorem Ident.dollar_not_mem {subject : Subject} (id : Ident subject) : '$' ∉ id.text.toList :=
  fun h => (id.wellformed.2 '$' h).1 rfl

namespace Target

/-! ## Texts between marks -/

theorem pieces_ne_nil (s : List Char) : pieces s ≠ [] := by
  fun_cases pieces s <;> exact List.cons_ne_nil _ _

/-- A character that no mark starts at belongs to the first piece. -/
theorem pieces_cons {c : Char} {rest : List Char} (h : rest.head? ≠ some '$') :
    pieces (c :: rest) = (pieces rest).modifyHead (c :: ·) := by
  have hmark : ∀ tail, c = '-' → rest = '$' :: tail → False := by
    rintro tail _ rfl
    exact h rfl
  obtain ⟨piece, others, hpieces⟩ := List.exists_cons_of_ne_nil (pieces_ne_nil rest)
  rw [pieces, hpieces, List.modifyHead_cons]
  exact hmark

/-- A text without dollar signs has no marks. -/
theorem pieces_eq_singleton {s : List Char} (h : '$' ∉ s) : pieces s = [s] := by
  induction s with
  | nil => rfl
  | cons c rest ih =>
    have hrest : '$' ∉ rest := fun hmem => h (List.mem_cons_of_mem c hmem)
    have hhead : rest.head? ≠ some '$' := fun heq => hrest (List.mem_of_mem_head? heq)
    rw [pieces_cons hhead, ih hrest, List.modifyHead_cons]

/-- The first mark behind a text without dollar signs is the one that stands there, also if the
text ends in a hyphen. -/
theorem pieces_append_mark {s : List Char} (h : '$' ∉ s) (rest : List Char) :
    pieces (s ++ '-' :: '$' :: rest) = s :: pieces rest := by
  induction s with
  | nil => rfl
  | cons c before ih =>
    have hbefore : '$' ∉ before := fun hmem => h (List.mem_cons_of_mem c hmem)
    have hhead : (before ++ '-' :: '$' :: rest).head? ≠ some '$' := by
      cases before with
      | nil => exact fun heq => absurd (Option.some.inj heq) (by decide)
      | cons d _ =>
        intro heq
        exact hbefore (Option.some.inj heq ▸ List.mem_cons_self)
    rw [List.cons_append, pieces_cons hhead, ih hbefore, List.modifyHead_cons]

/-- Nothing is lost between the marks. -/
theorem intercalate_pieces (s : List Char) : ['-', '$'].intercalate (pieces s) = s := by
  fun_induction pieces s with
  | case1 => rfl
  | case2 rest ih =>
    obtain ⟨piece, others, hpieces⟩ := List.exists_cons_of_ne_nil (pieces_ne_nil rest)
    rw [hpieces] at ih ⊢
    rw [List.intercalate_cons_cons, ih]
    rfl
  | case3 c rest _ hnil => exact absurd hnil (pieces_ne_nil rest)
  | case4 c rest _ piece others hpieces ih =>
    rw [hpieces] at ih
    cases others with
    | nil => simpa using ih
    | cons other others =>
      rw [List.intercalate_cons_cons] at ih ⊢
      rw [List.cons_append, List.cons_append, ih]

/-! ## Reading and writing -/

theorem toList_text (t : Target) :
    t.text.toList = '$' :: (t.module.text.toList ++ '-' :: '$' :: t.field.text.toList) := by
  unfold text
  simp [toString]

/-- The text of an address is read as the address. -/
theorem parse?_text (t : Target) : parse? t.text = some t := by
  have hpieces : pieces (t.module.text.toList ++ '-' :: '$' :: t.field.text.toList) =
      [t.module.text.toList, t.field.text.toList] := by
    rw [pieces_append_mark t.module.dollar_not_mem, pieces_eq_singleton t.field.dollar_not_mem]
  unfold parse?
  rw [toList_text]
  simp [hpieces, Ident.ofString?_text]

/-- Only the text of an address is read as the address. -/
theorem eq_text_of_parse? {s : String} {t : Target} (h : parse? s = some t) : s = t.text := by
  unfold parse? at h
  split at h
  · next body hbody =>
    split at h
    · next module field hpieces =>
      simp only [Option.bind_eq_bind, Option.bind_eq_some_iff, Option.pure_def,
        Option.some.injEq] at h
      obtain ⟨m, hm, f, hf, rfl⟩ := h
      have hjoined := intercalate_pieces body
      rw [hpieces] at hjoined
      apply String.toList_inj.mp
      rw [hbody, toList_text, Ident.text_of_ofString? hm, Ident.text_of_ofString? hf,
        String.toList_ofList, String.toList_ofList, ← hjoined]
      simp
    · cases h
  · cases h

theorem parse_eq_ok_iff {s : String} {t : Target} : parse s = .ok t ↔ s = t.text := by
  constructor
  · intro h
    unfold parse at h
    split at h
    · next t' hparse =>
      cases h
      exact eq_text_of_parse? hparse
    · cases h
  · rintro rfl
    unfold parse
    rw [parse?_text]

end Target

/-- A text reads as the address of a field of a module exactly if it is a dollar sign, the
identifier of the module, the mark and the identifier of the field.  Any other text is refused as it
stands, and two addresses that are written alike are one. -/
theorem target_addresses_are_unambiguous :
    (∀ (s : String) (module : ModuleId) (field : FieldId),
      Target.parse s = .ok ⟨module, field⟩ ↔ s = "$" ++ module.text ++ "-$" ++ field.text) ∧
    (∀ s : String, Target.parse s = .error (.malformed s) ↔ ∀ t : Target, s ≠ t.text) ∧
    (∀ (s : String) (t : Target), Target.parse s = .ok t ↔ t.text = s) ∧
    ∀ t t' : Target, t.text = t'.text ↔ t = t' := by
  refine ⟨fun s module field => ?_, fun s => ?_, fun s t => ?_, fun t t' => ?_⟩
  · exact Target.parse_eq_ok_iff
  · constructor
    · intro herror t htext
      rw [Target.parse_eq_ok_iff.mpr htext] at herror
      cases herror
    · intro hnone
      unfold Target.parse
      cases hparse : Target.parse? s with
      | none => rfl
      | some t => exact absurd (Target.eq_text_of_parse? hparse) (hnone t)
  · rw [Target.parse_eq_ok_iff, eq_comm]
  · refine ⟨fun htext => ?_, congrArg Target.text⟩
    have hread := Target.parse?_text t
    rw [htext, Target.parse?_text, Option.some.injEq] at hread
    exact hread.symm

/-- Hyphens beside the mark belong to the identifiers. -/
example : (Target.parse? "$a--$-b").map (fun t => (t.module.text, t.field.text)) =
    some ("a-", "-b") := by decide +kernel

end RecordRules
