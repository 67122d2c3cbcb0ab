import InterfaceDefinition.Proofs.Acceptance.Interfaces
import Mathlib.Data.List.Dedup
import Mathlib.Data.String.Basic

/-!
# The rules for parcelables and unions

A parcelable with fields and a union own fields in the same way: no methods, fields and constants
that differ in name and are valid by themselves, and types that can be immutable when the owner is
(`Header.FieldRules`). Each has rules of its own besides (`Header.StructuredRules`,
`Header.UnionRules`), and its check passes exactly when it keeps all of them
(`Header.check_fieldOwner_iff`). The verdicts are collected to the end, so no rule hides another.

A union starts out as its first field, and the rules make sure that there is a value for it
(`Header.UnionRules.exists_first`).
-/

namespace InterfaceDefinition

open Fallible

variable {r : Registry} {h : Header} {typeParams : Option (List String)} {ms : Members}

/-- No element is dropped from a list when there is none to be dropped. -/
theorem length_firstOccurrences_eq_iff {α : Type} [BEq α] [LawfulBEq α] [DecidableEq α]
    {xs : List α} : (firstOccurrences xs).length = xs.length ↔ xs.Nodup := by
  have hperm : (firstOccurrences xs).Perm xs.dedup :=
    (List.perm_ext_iff_of_nodup (nodup_firstOccurrences xs) xs.nodup_dedup).mpr (by simp)
  rw [hperm.length_eq]
  constructor
  · intro hlength
    have heq : xs.dedup = xs := xs.dedup_sublist.eq_of_length hlength
    exact heq ▸ xs.nodup_dedup
  · intro hnodup
    rw [hnodup.dedup]

namespace Header

/-! ### The rules -/

/-- The rules for fields and constants. -/
@[mk_iff]
structure MemberRules (r : Registry) (h : Header) (ms : Members) : Prop where
  fields : ∀ f ∈ ms.fields, f.IsValid r h.canonicalName
  fieldNames : (ms.fields.map (·.name)).Nodup
  immutable : h.annotations.has .javaOnlyImmutable = true →
    ∀ f ∈ ms.fields, r.canBeImmutable f.type = true
  constantNames : (ms.constants.map (·.name)).Nodup
  constants : ∀ c ∈ ms.constants, c.IsValid r h.canonicalName

/-- The rules that parcelables with fields and unions share. -/
structure FieldRules (r : Registry) (h : Header) (kind : DeclKind)
    (typeParams : Option (List String)) (ms : Members) : Prop extends h.MemberRules r ms where
  annotations : h.annotations.ValidFor kind.supportedAnnotations
  typeParams : (typeParams.getD []).Nodup
  methods : ms.methods = []

/-- The rules for a parcelable with fields. -/
structure StructuredRules (r : Registry) (h : Header) (typeParams : Option (List String))
    (ms : Members) : Prop extends h.FieldRules r .structured typeParams ms where
  fixedSize : h.annotations.has .fixedSize = true → ∀ f ∈ ms.fields, r.hasFixedSize f.type = true
  getters : h.annotations.has .javaOnlyImmutable = true →
    (ms.fields.map (·.capitalizedName)).Nodup

/-- The rules for a union. -/
structure UnionRules (r : Registry) (h : Header) (typeParams : Option (List String))
    (ms : Members) : Prop extends h.FieldRules r .union typeParams ms where
  getters : (ms.fields.map (·.capitalizedName)).Nodup
  noHolders : ∀ f ∈ ms.fields, f.type.name ≠ "ParcelableHolder"
  first : ∃ f, ms.fields.head? = some f ∧ (f.default? ≠ none ∨ f.type.isNullable = true)

end Header

/-- A field with a value to start with: a default that evaluates, or null, which values other than
arrays of primitive types and enums, and parcelable holders cannot be. -/
def Field.IsDefaultConstructible (r : Registry) (scope : String) (f : Field) : Prop :=
  (∃ value v, f.default? = some value ∧ r.evaluate value f.type.valueType scope = .ok v) ∨
    f.type.isNullable = true ∧
      (Vocabulary.isPrimitive f.type.name = true → f.type.isArray = true) ∧
      (f.type.base.isEnum = true → f.type.isArray = true) ∧ f.type.name ≠ "ParcelableHolder"

/-! ### The lines of the checks -/

namespace Header

theorem decides_checkTypeParams :
    Decides true (liftM (h.checkTypeParams typeParams)) (typeParams.getD []).Nodup :=
  .verdict (by simp [length_firstOccurrences_eq_iff])

theorem decides_checkNoMethods {fault : String → DeclFault} :
    Decides true (liftM (h.checkNoMethods fault ms)) (ms.methods = []) :=
  .verdict (by simp)

/-- The check compares each field with the earlier ones, and the rule is that no two names are
equal. -/
theorem decides_checkFieldNames {fields : List Field} :
    Decides true (liftM (h.checkFieldNames fields)) (fields.map (·.name)).Nodup :=
  .lift (by simp [checkFieldNames, nodup_map_iff_withEarlier])

/-- The getter of a field has its name with the first letter capitalized, so names that differ in
the case of that letter only are not allowed. -/
theorem decides_checkGetterNames {fields : List Field} :
    Decides true (liftM (h.checkGetterNames fields)) (fields.map (·.capitalizedName)).Nodup :=
  .lift (by simp [checkGetterNames, nodup_map_iff_withEarlier])

/-- Without the annotation the check has nothing to look at. -/
theorem decides_checkImmutable {fields : List Field} :
    Decides true (liftM (h.checkImmutable r fields))
      (h.annotations.has .javaOnlyImmutable = true →
        ∀ f ∈ fields, r.canBeImmutable f.type = true) :=
  .lift (by cases himmutable : h.annotations.has .javaOnlyImmutable <;>
    simp [checkImmutable, himmutable])

/-- As for immutability, the rule is for annotated declarations only. -/
theorem decides_checkFixedSize {fields : List Field} :
    Decides true (liftM (h.checkFixedSize r fields))
      (h.annotations.has .fixedSize = true → ∀ f ∈ fields, r.hasFixedSize f.type = true) :=
  .lift (by cases hsized : h.annotations.has .fixedSize <;> simp [checkFixedSize, hsized])

theorem decides_checkNoHolders {fields : List Field} :
    Decides true (liftM (checkNoHolders fields))
      (∀ f ∈ fields, f.type.name ≠ "ParcelableHolder") :=
  .lift (by simp [checkNoHolders])

/-- A union needs a first field that it can be made of without a value: one with a default, or one
that may be null. -/
theorem decides_firstField {fields : List Field} :
    Decides true (liftM (Reporting.verdict (h.firstFieldFault? fields)))
      (∃ f, fields.head? = some f ∧ (f.default? ≠ none ∨ f.type.isNullable = true)) := by
  refine .verdict ?_
  cases fields with
  | nil => simp [firstFieldFault?]
  | cons first rest =>
    have huseful : first.hasUsefulDefault = true ↔
        first.default? ≠ none ∨ first.type.isNullable = true := by
      rw [Field.hasUsefulDefault, Bool.or_eq_true, Option.isSome_iff_ne_none]
    simp only [firstFieldFault?, List.head?_cons, Option.some.injEq, exists_eq_left', ← huseful]
    split
    · next h => simp [h]
    · next h => simp [h]

/-- The rules that parcelables and unions have in common: for each field and for the names of
fields, about immutability, and for constants. -/
theorem decides_checkMembers : Decides true (h.checkMembers r ms) (h.MemberRules r ms) := by
  rw [memberRules_iff, checkMembers]
  refine .bind (.checkEach fun f _ => f.decides_check) fun _ => ?_
  refine .bind decides_checkFieldNames fun _ => ?_
  refine .bind decides_checkImmutable fun _ => ?_
  exact .last Constant.decides_checkAll fun _ => rfl

/-! ### Parcelables and unions -/

/-- For parcelables there are the rules for type parameters, fixed size and methods beside those for
the members. -/
theorem decides_checkStructured :
    Decides true (h.checkStructured r typeParams ms) (h.StructuredRules r typeParams ms) := by
  have hparts : Decides true (h.checkStructured r typeParams ms)
      (h.annotations.ValidFor DeclKind.structured.supportedAnnotations ∧
        (typeParams.getD []).Nodup ∧ ms.methods = [] ∧ h.MemberRules r ms ∧
        (h.annotations.has .fixedSize = true → ∀ f ∈ ms.fields, r.hasFixedSize f.type = true) ∧
        (h.annotations.has .javaOnlyImmutable = true →
          (ms.fields.map (·.capitalizedName)).Nodup)) := by
    rw [checkStructured]
    refine .bind decides_checkAnnotations fun _ => ?_
    refine .bind decides_checkTypeParams fun _ => ?_
    refine .bind decides_checkNoMethods fun _ => ?_
    refine .bind decides_checkMembers fun _ => ?_
    refine .bind decides_checkFixedSize fun _ => ?_
    dsimp only
    split
    · next himmutable =>
      exact (Decides.last decides_checkGetterNames fun _ => rfl).congr (by simp [himmutable])
    · next hmutable =>
      exact (Decides.last (.pure rfl) fun _ => rfl).congr (by simp [hmutable])
  refine hparts.congr ⟨?_, fun h => ?_⟩
  · rintro ⟨hannotations, hparams, hmethods, hmembers, hsized, hgetters⟩
    exact ⟨⟨hmembers, hannotations, hparams, hmethods⟩, hsized, hgetters⟩
  · exact ⟨h.annotations, h.typeParams, h.methods, h.toMemberRules, h.fixedSize, h.getters⟩

/-- A union has the rules of a parcelable and more: names that give different getters, no holders,
and a first field that it can be made of. -/
theorem decides_checkUnion :
    Decides true (h.checkUnion r typeParams ms) (h.UnionRules r typeParams ms) := by
  have hparts : Decides true (h.checkUnion r typeParams ms)
      (h.annotations.ValidFor DeclKind.union.supportedAnnotations ∧
        (typeParams.getD []).Nodup ∧ ms.methods = [] ∧ h.MemberRules r ms ∧
        (ms.fields.map (·.capitalizedName)).Nodup ∧
        (∀ f ∈ ms.fields, f.type.name ≠ "ParcelableHolder") ∧
        ∃ f, ms.fields.head? = some f ∧ (f.default? ≠ none ∨ f.type.isNullable = true)) := by
    rw [checkUnion]
    refine .bind decides_checkAnnotations fun _ => ?_
    refine .bind decides_checkTypeParams fun _ => ?_
    refine .bind decides_checkNoMethods fun _ => ?_
    refine .bind decides_checkMembers fun _ => ?_
    refine .bind decides_checkGetterNames fun _ => ?_
    refine .bind decides_checkNoHolders fun _ => ?_
    exact .last decides_firstField fun _ => rfl
  refine hparts.congr ⟨?_, fun h => ?_⟩
  · rintro ⟨hannotations, hparams, hmethods, hmembers, hgetters, hholders, hfirst⟩
    exact ⟨⟨hmembers, hannotations, hparams, hmethods⟩, hgetters, hholders, hfirst⟩
  · exact ⟨h.annotations, h.typeParams, h.methods, h.toMemberRules, h.getters, h.noHolders,
      h.first⟩

/-- There is a value for the first field of a union that keeps the rules. -/
theorem UnionRules.exists_first (hrules : h.UnionRules r typeParams ms) :
    ∃ f, ms.fields.head? = some f ∧ f.IsDefaultConstructible r h.canonicalName := by
  obtain ⟨f, hfirst, huseful⟩ := hrules.first
  have hvalid : f.IsValid r h.canonicalName := hrules.fields f (List.mem_of_head? hfirst)
  refine ⟨f, hfirst, huseful.imp (fun hdefault => ?_) fun hnullable => ?_⟩
  · obtain ⟨value, hvalue⟩ := Option.ne_none_iff_exists'.mp hdefault
    obtain ⟨v, text, hv, -⟩ := (hvalid.value value hvalue).exists_value
    exact ⟨value, v, hvalue, hv⟩
  · have hrules : f.type.ObeysRules r := (hvalid.type f.type f.type.self_mem_nodes).2
    exact ⟨hnullable, hrules.nullable hnullable⟩

/-- **Parcelables and unions**: the check of a declaration that owns fields passes exactly when it
keeps the rules, and there is a value for the first field of a union that passes. -/
theorem check_fieldOwner_iff (r : Registry) (h : Header) (typeParams : Option (List String))
    (ms : Members) :
    ((Decl.check r ⟨h, .structured typeParams ms⟩).run.value = .ok true ↔
      h.StructuredRules r typeParams ms) ∧
    ((Decl.check r ⟨h, .union typeParams ms⟩).run.value = .ok true ↔
      h.UnionRules r typeParams ms) ∧
    ((Decl.check r ⟨h, .union typeParams ms⟩).run.value = .ok true →
      ∃ f, ms.fields.head? = some f ∧ f.IsDefaultConstructible r h.canonicalName) := by
  have hstructured : (Decl.check r ⟨h, .structured typeParams ms⟩).run.value = .ok true ↔
      h.StructuredRules r typeParams ms := by
    rw [← decides_checkStructured.passes_iff, ← passes_iff]
    rfl
  have hunion : (Decl.check r ⟨h, .union typeParams ms⟩).run.value = .ok true ↔
      h.UnionRules r typeParams ms := by
    rw [← decides_checkUnion.passes_iff, ← passes_iff]
    rfl
  exact ⟨hstructured, hunion, fun haccepted => (hunion.mp haccepted).exists_first⟩

/-- A number with a default and a text can be the fields of an immutable parcelable and those of an
immutable union. Names that differ in the case of the first letter only may stand in a parcelable
that is not immutable, but neither in an immutable one, whose getters would have one name, nor in a
union; and a field of a type that is not immutable may not stand in an immutable parcelable. -/
theorem check_fieldOwner_reading :
    let loc : Location := ⟨"Reading.aidl", none⟩
    let r := (Registry.empty.addDocument Registry.emptyItem).value
    let plain : Header := ⟨loc, "p", "Reading", "", {}⟩
    let immutable : Header :=
      ⟨loc, "p", "Reading", "", ⟨[{ location := loc, kind := .javaOnlyImmutable, params := [] }]⟩⟩
    let count : Field := ⟨loc, .builtin loc "int", "count", some (.literal loc .integral "1")⟩
    let text : Field := ⟨loc, .builtin loc "String", "text", none⟩
    let upper : Field := ⟨loc, .builtin loc "long", "Count", none⟩
    let held : Field :=
      ⟨loc, ⟨loc, ⟨"Item", some ⟨"p.Item", some ⟨⟨0, 0⟩, .structured⟩⟩⟩, [], false, {}, ""⟩, "held",
        none⟩
    immutable.StructuredRules r none { fields := [count, text] } ∧
      immutable.UnionRules r none { fields := [count, text] } ∧
      count.IsDefaultConstructible r "p.Reading" ∧
      plain.StructuredRules r none { fields := [count, upper] } ∧
      ¬ immutable.StructuredRules r none { fields := [count, upper] } ∧
      ¬ plain.UnionRules r none { fields := [count, upper] } ∧
      plain.StructuredRules r none { fields := [count, held] } ∧
      ¬ immutable.StructuredRules r none { fields := [count, held] } := by
  intro loc r plain immutable count text upper held
  -- the verdicts of the checks, which the rules are equivalent to
  have hstructured : ∀ (h : Header) (fields : List Field),
      (Decl.check r ⟨h, .structured none { fields }⟩).passes = true ↔
        h.StructuredRules r none { fields } := fun h fields => by
    rw [passes_iff, (check_fieldOwner_iff r h none _).1]
  have hunion : ∀ (h : Header) (fields : List Field),
      (Decl.check r ⟨h, .union none { fields }⟩).passes = true ↔
        h.UnionRules r none { fields } := fun h fields => by
    rw [passes_iff, (check_fieldOwner_iff r h none _).2.1]
  have haccepted : (Decl.check r ⟨immutable, .union none { fields := [count, text] }⟩).passes =
      true := by decide +kernel
  obtain ⟨f, heq, hvalue⟩ :=
    (check_fieldOwner_iff r immutable none _).2.2 (passes_iff.mp haccepted)
  obtain rfl : count = f := Option.some.inj heq
  refine ⟨(hstructured ..).mp ?_, (hunion ..).mp haccepted, hvalue, (hstructured ..).mp ?_,
    mt (hstructured ..).mpr ?_, mt (hunion ..).mpr ?_, (hstructured ..).mp ?_,
    mt (hstructured ..).mpr ?_⟩
  all_goals decide +kernel

end Header

end InterfaceDefinition
