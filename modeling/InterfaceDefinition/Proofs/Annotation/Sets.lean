import InterfaceDefinition.Proofs.Acceptance.Passing
import InterfaceDefinition.Proofs.Annotation.Params

/-!
# Valid sets of annotations

The check of a set goes through it with the annotations that may stand only once and were seen
before, and passes over those that are not supported or not valid. That it passes is a property of
the set alone (`AnnotationSet.value_check_iff`): all its annotations are supported and valid, and no
kind that may stand only once stands twice. A check that passes reports nothing
(`AnnotationSet.silent_check`).
-/

namespace InterfaceDefinition

/-- An annotation that passes is not reported for anything. -/
theorem Annotation.silent_check (a : Annotation) : a.check.Silent :=
  .and (.checkEach fun _ _ => .verdict) (.checkEach fun _ _ => .verdict)

namespace AnnotationSet

/-- The kinds of annotations that may stand only once, as often as they stand there. -/
def singleKinds (annotations : List Annotation) : List AnnotationKind :=
  (annotations.map (·.kind)).filter fun kind => !kind.schema.repeatable

/-- A set of annotations is valid for a node that supports the given ones. -/
structure ValidFor (supported : List AnnotationKind) (s : AnnotationSet) : Prop where
  kind_mem : ∀ a ∈ s.toList, a.kind ∈ supported
  isValid : ∀ a ∈ s.toList, a.IsValid
  nodup : (singleKinds s.toList).Nodup

/-- No annotation of a valid set is of a kind that the node does not support. -/
theorem ValidFor.has_eq_false {supported : List AnnotationKind} {s : AnnotationSet}
    (h : s.ValidFor supported) {kind : AnnotationKind} (hkind : kind ∉ supported) :
    s.has kind = false := by
  rw [has, get?, Option.isSome_eq_false_iff, Option.isNone_iff_eq_none, List.find?_eq_none]
  intro a ha heq
  exact hkind (beq_iff_eq.mp heq ▸ h.kind_mem a ha)

/-! ### One annotation of a node -/

section One

variable {owner : Location} {supported : List AnnotationKind} {seen : List Annotation}
  {a : Annotation}

theorem singleKinds_cons (a : Annotation) (rest : List Annotation) :
    singleKinds (a :: rest) =
      if a.kind.schema.repeatable then singleKinds rest else a.kind :: singleKinds rest := by
  rw [singleKinds, List.map_cons, List.filter_cons]
  cases a.kind.schema.repeatable <;> rfl

/-- An annotation passes if it is supported, valid, and repeats none that was seen. -/
theorem value_checkOne_iff :
    (checkOne owner supported seen a).value.1 = true ↔
      a.kind ∈ supported ∧ a.IsValid ∧
        (a.kind.schema.repeatable = false → a.kind ∉ seen.map (·.kind)) := by
  rw [checkOne, ← Annotation.value_check_iff]
  by_cases hsupported : a.kind ∈ supported
  · rw [if_neg (by simpa using hsupported), Reporting.bind_def]
    cases a.check.value with
    | false => simp
    | true =>
      cases a.kind.schema.repeatable with
      | true => simp [hsupported]
      | false =>
        -- what was seen is searched for the kind
        simp only [Bool.not_true, Bool.false_eq_true, if_false]
        split
        · next first hfirst =>
          have hkind : first.kind = a.kind := by simpa using List.find?_some hfirst
          have hmem : a.kind ∈ seen.map (·.kind) :=
            hkind ▸ List.mem_map_of_mem (List.mem_of_find?_eq_some hfirst)
          simp [hmem]
        · next hnone =>
          simpa [hsupported] using hnone
  · rw [if_pos (by simpa using hsupported)]
    simp [hsupported]

/-- An annotation that passes is seen from then on, unless it may be repeated, and nothing is
reported. -/
theorem checkOne_of_pass (h : (checkOne owner supported seen a).value.1 = true) :
    checkOne owner supported seen a =
      ⟨(true, if a.kind.schema.repeatable then seen else seen ++ [a]), []⟩ := by
  obtain ⟨hsupported, hvalid, hfresh⟩ := value_checkOne_iff.mp h
  have hcheck : a.check.value = true := Annotation.value_check_iff.mpr hvalid
  have hsilent : a.check.diagnostics = [] := a.silent_check hcheck
  rw [checkOne, if_neg (by simpa using hsupported), Reporting.bind_def, hcheck, hsilent]
  cases hrepeatable : a.kind.schema.repeatable with
  | true => rfl
  | false =>
    have hnone : seen.find? (·.kind == a.kind) = none := by
      have hnot := hfresh hrepeatable
      simpa [List.find?_eq_none] using hnot
    simp [hnone]

end One

/-! ### The annotations of a node -/

variable {owner : Location} {supported : List AnnotationKind}

theorem checkFrom_cons (seen : List Annotation) (a : Annotation) (rest : List Annotation) :
    checkFrom owner supported seen (a :: rest) =
      let one := checkOne owner supported seen a
      let others := checkFrom owner supported one.value.2 rest
      ⟨one.value.1 && others.value, one.diagnostics ++ others.diagnostics⟩ := by
  simp [checkFrom]

/-- Annotations pass after those that were seen if they are supported and valid, and no kind that
may stand only once stands twice or was seen. -/
theorem value_checkFrom_iff (seen annotations : List Annotation) :
    (checkFrom owner supported seen annotations).value = true ↔
      (∀ a ∈ annotations, a.kind ∈ supported ∧ a.IsValid) ∧ (singleKinds annotations).Nodup ∧
        ∀ kind ∈ singleKinds annotations, kind ∉ seen.map (·.kind) := by
  induction annotations generalizing seen with
  | nil => simp [checkFrom, singleKinds]
  | cons a rest ih =>
    rw [checkFrom_cons]
    dsimp only
    -- the rest is only of interest when the first passes, and then it is known what was seen
    have hothers : (checkOne owner supported seen a).value.1 = true →
        ((checkFrom owner supported (checkOne owner supported seen a).value.2 rest).value = true ↔
          (∀ a ∈ rest, a.kind ∈ supported ∧ a.IsValid) ∧ (singleKinds rest).Nodup ∧
            ∀ kind ∈ singleKinds rest,
              kind ∉ (if a.kind.schema.repeatable then seen else seen ++ [a]).map (·.kind)) := by
      intro hone
      rw [checkOne_of_pass hone, ih]
    rw [Bool.and_eq_true, and_congr_right hothers, value_checkOne_iff, List.forall_mem_cons,
      singleKinds_cons]
    cases a.kind.schema.repeatable with
    | true => simp [and_assoc]
    | false =>
      simp only [forall_const, Bool.false_eq_true, if_false, List.nodup_cons, List.forall_mem_cons,
        List.map_append, List.map_singleton, List.mem_append, List.mem_singleton, not_or,
        forall_and]
      constructor
      · rintro ⟨⟨hsupported, hvalid, hfresh⟩, hrest, hnodup, hseen, hne⟩
        exact ⟨⟨⟨hsupported, hvalid⟩, hrest⟩, ⟨fun hmem => hne _ hmem rfl, hnodup⟩, hfresh, hseen⟩
      · rintro ⟨⟨⟨hsupported, hvalid⟩, hrest⟩, ⟨hnot, hnodup⟩, hfresh, hseen⟩
        exact ⟨⟨hsupported, hvalid, hfresh⟩, hrest, hnodup, hseen,
          fun _ hmem heq => hnot (heq ▸ hmem)⟩

/-- **Valid sets**: the annotations of a node pass their check exactly when the set is valid for
what the node supports. -/
theorem value_check_iff {s : AnnotationSet} :
    (s.check owner supported).value = true ↔ s.ValidFor supported := by
  rw [check, value_checkFrom_iff]
  constructor
  · rintro ⟨hall, hnodup, -⟩
    exact ⟨fun a ha => (hall a ha).1, fun a ha => (hall a ha).2, hnodup⟩
  · intro h
    exact ⟨fun a ha => ⟨h.kind_mem a ha, h.isValid a ha⟩, h.nodup, by simp⟩

theorem silent_checkFrom (seen annotations : List Annotation) :
    (checkFrom owner supported seen annotations).Silent := by
  induction annotations generalizing seen with
  | nil => exact fun _ => rfl
  | cons a rest ih =>
    intro hvalue
    rw [checkFrom_cons] at hvalue ⊢
    obtain ⟨hone, hothers⟩ := Bool.and_eq_true_iff.mp hvalue
    have hrest := ih _ hothers
    rw [checkOne_of_pass hone] at hrest ⊢
    exact hrest

/-- The annotations of a node are not reported for anything when they pass: there is no advice about
them. -/
theorem silent_check (s : AnnotationSet) : (s.check owner supported).Silent :=
  silent_checkFrom [] s.toList

end AnnotationSet

end InterfaceDefinition
