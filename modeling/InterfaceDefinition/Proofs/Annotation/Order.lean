import InterfaceDefinition.Proofs.Annotation.Sets

/-!
# The order of annotations

Annotations are kept in the order they were written, the check of a set goes through them in that
order, and of several annotations of a kind the first is asked. Still the order does not matter: the
verdict is a property of the annotations without their order, the printed form is sorted, and the
annotations that are asked for by kind stand only once in a set that is valid
(`AnnotationSet.get?_eq_of_perm`). What is passed through to Java may stand more than once, and is
then given in the order of the annotations (`AnnotationSet.check_of_perm`).
-/

namespace InterfaceDefinition

namespace AnnotationSet

variable {s t : AnnotationSet}

/-! ### Kinds that stand once -/

/-- Whether kinds stand twice that may stand only once can be said kind by kind. -/
theorem nodup_singleKinds_iff {annotations : List Annotation} :
    (singleKinds annotations).Nodup ↔ ∀ kind : AnnotationKind, kind.schema.repeatable = false →
      (annotations.map (·.kind)).count kind ≤ 1 := by
  have hcount : ∀ kind : AnnotationKind, kind.schema.repeatable = false →
      (singleKinds annotations).count kind = (annotations.map (·.kind)).count kind :=
    fun kind hsingle => List.count_filter (by simp [hsingle])
  rw [List.nodup_iff_count]
  constructor
  · intro h kind hsingle
    rw [← hcount kind hsingle]
    exact h kind
  · intro h kind
    by_cases hmem : kind ∈ singleKinds annotations
    · have hsingle : kind.schema.repeatable = false := by
        simpa using (List.mem_filter.mp hmem).2
      rw [hcount kind hsingle]
      exact h kind hsingle
    · rw [List.count_eq_zero_of_not_mem hmem]
      exact Nat.zero_le 1

/-- The verdict on a set of annotations, said without their order. -/
theorem value_check_iff_count {owner : Location} {supported : List AnnotationKind} :
    (s.check owner supported).value = true ↔
      (∀ a ∈ s.toList, a.kind ∈ supported ∧ a.check.value = true) ∧
        ∀ kind : AnnotationKind, kind.schema.repeatable = false →
          (s.toList.map (·.kind)).count kind ≤ 1 := by
  rw [value_check_iff, ← nodup_singleKinds_iff]
  constructor
  · intro hs
    exact ⟨fun a ha => ⟨hs.kind_mem a ha, Annotation.value_check_iff.mpr (hs.isValid a ha)⟩,
      hs.nodup⟩
  · rintro ⟨hall, hnodup⟩
    exact ⟨fun a ha => (hall a ha).1, fun a ha => Annotation.value_check_iff.mp (hall a ha).2,
      hnodup⟩

/-- A list of at most one element has no other order. -/
theorem eq_of_perm_of_length_le_one {α : Type} {xs ys : List α} (h : xs.Perm ys)
    (hlength : xs.length ≤ 1) : xs = ys := by
  rcases xs with _ | ⟨x, _ | ⟨y, rest⟩⟩
  · exact h.nil_eq
  · exact List.singleton_perm.mp h
  · simp at hlength

/-- The one annotation of a kind is the same in any order. -/
theorem get?_eq_of_perm (h : s.toList.Perm t.toList) {kind : AnnotationKind}
    (honce : (s.toList.map (·.kind)).count kind ≤ 1) : s.get? kind = t.get? kind := by
  rw [List.count_eq_countP, List.countP_map, List.countP_eq_length_filter] at honce
  have hfilter := eq_of_perm_of_length_le_one (h.filter (·.kind == kind)) honce
  rw [get?, get?, ← List.head?_filter, ← List.head?_filter, hfilter]

/-- Whether there is an annotation of a kind does not depend on the order. -/
theorem has_eq_of_perm (h : s.toList.Perm t.toList) (kind : AnnotationKind) :
    s.has kind = t.has kind := by
  rw [Bool.eq_iff_iff, has, has, get?, get?, List.find?_isSome, List.find?_isSome]
  simp only [h.mem_iff]

/-! ### Printed forms -/

/-- Texts in alphabetical order are the same in whatever order they were. -/
theorem text_eq_of_perm (h : s.toList.Perm t.toList) : s.text = t.text := by
  have hle : ∀ texts : List String,
      (texts.mergeSort (· ≤ ·)).Pairwise fun a b => decide (a ≤ b) = true :=
    List.pairwise_mergeSort
      (fun a b c hab hbc => decide_eq_true
        (String.le_trans (of_decide_eq_true hab) (of_decide_eq_true hbc)))
      fun a b => by simpa using String.le_total a b
  have hperm : ((s.toList.map Annotation.text).mergeSort (· ≤ ·)).Perm
      ((t.toList.map Annotation.text).mergeSort (· ≤ ·)) :=
    (List.mergeSort_perm _ _).trans ((h.map _).trans (List.mergeSort_perm _ _).symm)
  rw [text, text, hperm.eq_of_pairwise ?_ (hle _) (hle _)]
  intro a b _ _ hab hba
  exact String.le_antisymm (of_decide_eq_true hab) (of_decide_eq_true hba)

/-! ### Answers -/

/-- Two sets of annotations ask for the same. -/
structure SameAnswers (s t : AnnotationSet) : Prop where
  has : ∀ kind, s.has kind = t.has kind
  isStableFor : ∀ backend, s.isStableFor backend = t.isStableFor backend
  derivesJava : ∀ method, s.derivesJava method = t.derivesJava method
  derivedRust : s.derivedRust = t.derivedRust
  descriptor? : s.descriptor? = t.descriptor?
  backingName? : s.backingName? = t.backingName?
  appUsage : s.get? .unsupportedAppUsage = t.get? .unsupportedAppUsage
  javaPassthrough : s.javaPassthrough.Perm t.javaPassthrough

/-- Where every kind that may stand only once does, all that is asked for one by one is the same in
any order. -/
theorem sameAnswers_of_perm (h : s.toList.Perm t.toList)
    (honce : ∀ kind : AnnotationKind, kind.schema.repeatable = false →
      (s.toList.map (·.kind)).count kind ≤ 1) : s.SameAnswers t := by
  have hget : ∀ kind : AnnotationKind, kind.schema.repeatable = false → s.get? kind = t.get? kind :=
    fun kind hsingle => get?_eq_of_perm h (honce kind hsingle)
  have hswitch : ∀ kind : AnnotationKind, kind.schema.repeatable = false →
      s.switch kind = t.switch kind := by
    intro kind hsingle
    funext param
    rw [switch, switch, hget kind hsingle]
  have hhas := has_eq_of_perm h
  constructor
  · exact hhas
  · intro backend
    rw [isStableFor, isStableFor, hhas]
  · intro method
    rw [derivesJava, derivesJava, hswitch .javaDerive rfl]
  · rw [derivedRust, derivedRust, hswitch .rustDerive rfl]
  · rw [descriptor?, descriptor?, hget .descriptor rfl]
  · rw [backingName?, backingName?, hget .backing rfl]
  · exact hget .unsupportedAppUsage rfl
  · exact (h.filter _).filterMap _

/-- **The order of annotations is irrelevant.** Annotations in another order are checked with the
same verdict and printed in the same way. The verdict is positive exactly when all annotations are
supported and valid and no kind that may stand only once stands twice, and then they ask for the
same in both orders, up to the order of what is passed through to Java. -/
theorem check_of_perm (h : s.toList.Perm t.toList) (owner : Location)
    (supported : List AnnotationKind) :
    (s.check owner supported).value = (t.check owner supported).value ∧ s.text = t.text ∧
    ((s.check owner supported).value = true ↔
      (∀ a ∈ s.toList, a.kind ∈ supported ∧ a.check.value = true) ∧
        ∀ kind : AnnotationKind, kind.schema.repeatable = false →
          (s.toList.map (·.kind)).count kind ≤ 1) ∧
    ((s.check owner supported).value = true → s.SameAnswers t) := by
  refine ⟨?_, text_eq_of_perm h, value_check_iff_count, fun hpasses => ?_⟩
  · rw [Bool.eq_iff_iff, value_check_iff_count, value_check_iff_count]
    simp only [h.mem_iff, (h.map _).count_eq]
  · exact sameAnswers_of_perm h (value_check_iff_count.mp hpasses).2

/-- Of three annotations two pass texts through to Java, in the order in which they stand. -/
theorem check_of_perm_rotated :
    let loc : Location := ⟨"IClock.aidl", none⟩
    let given : AnnotationKind → String → String → Annotation := fun kind param written =>
      { location := loc
        kind
        params := [(param, .literal loc .string written)]
        ordered := List.pairwise_singleton _ _ }
    let first := given .javaPassthrough "annotation" "\"@First\""
    let named := given .descriptor "value" "\"IOldClock\""
    let second := given .javaPassthrough "annotation" "\"@Second\""
    let s : AnnotationSet := ⟨[first, named, second]⟩
    let t : AnnotationSet := ⟨[second, first, named]⟩
    s.toList.Perm t.toList ∧
      (t.check loc [.descriptor, .javaPassthrough]).value = true ∧ s.text = t.text ∧
      s.descriptor? = some "IOldClock" ∧ t.descriptor? = some "IOldClock" ∧
      s.javaPassthrough = ["@First", "@Second"] ∧ t.javaPassthrough = ["@Second", "@First"] := by
  intro loc given first named second s t
  have hrotated : ([first, named] ++ [second]).Perm ([second] ++ [first, named]) :=
    List.perm_append_comm
  have hperm : s.toList.Perm t.toList := hrotated
  obtain ⟨hverdict, htext, -, hanswers⟩ :=
    check_of_perm hperm loc [.descriptor, .javaPassthrough]
  have hpasses : (s.check loc [.descriptor, .javaPassthrough]).value = true := by decide +kernel
  have hdescriptor : s.descriptor? = some "IOldClock" := by decide +kernel
  have hsame := hanswers hpasses
  exact ⟨hperm, hverdict ▸ hpasses, htext, hdescriptor, hsame.descriptor? ▸ hdescriptor,
    by decide +kernel, by decide +kernel⟩

end AnnotationSet

end InterfaceDefinition
