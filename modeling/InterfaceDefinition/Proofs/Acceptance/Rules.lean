import InterfaceDefinition.Proofs.Abandonment.Checks
import InterfaceDefinition.Proofs.Acceptance.Types
import InterfaceDefinition.Proofs.Annotation.Sets
import InterfaceDefinition.Proofs.Registry.Readings
import InterfaceDefinition.Proofs.Verdict.Checks

/-!
# The rules for types

What the check of types looks for in a certain order is a conjunction of local rules
(`TypeSpec.ObeysRules`): valid annotations, arguments in number and kind as the name admits them,
and the marks, for text, arrays and null, only where they may stand. A type is valid when all its
nodes are resolved and obey the rules, and these are the types that pass
(`TypeSpec.passes_check_iff_isValid`).

The check of a resolved type always has a verdict, and what it reports agrees with it
(`TypeSpec.check_of_resolved`): a valid type draws no report at all, any other an error.
-/

namespace InterfaceDefinition

open Fallible

namespace TypeSpec

variable {r : Registry} {t n : TypeSpec}

/-! ### The rules -/

/-- The arguments are in number and kind those that the name admits: one element for a list, a text
and a value for a map, neither of them primitive or an enum, and for any other name as many as the
declaration has parameters. -/
def AdmitsArguments (r : Registry) (n : TypeSpec) : Prop :=
  if n.name = "List" then
    ∃ element, n.arguments = [element] ∧ element.isPrimitiveOrEnum = false ∧
      element.isListElement = true
  else if n.name = "Map" then
    ∃ key value, n.arguments = [key, value] ∧ key.name = "String" ∧
      key.isPrimitiveOrEnum = false ∧ value.isPrimitiveOrEnum = false
  else
    ∃ d params, r.named? n.base = some d ∧ d.typeParams? = some params ∧
      params.length = n.arguments.length

/-- The rules for one node of a type, without the order in which they are checked. -/
structure ObeysRules (r : Registry) (n : TypeSpec) : Prop where
  annotations : n.annotations.ValidFor supportedAnnotations
  arguments : n.arguments ≠ [] → n.AdmitsArguments r
  utf8 : n.isUtf8 = true →
    n.name = "String" ∨ n.name = "List" ∧ ∃ element, n.arguments = [element] ∧
      element.name = "String"
  void : n.name = "void" → n.isArray = false ∧ n.isNullable = false ∧ n.isUtf8 = false
  array : n.isArray = true → n.base.isInterface = false ∧ n.name ≠ "ParcelableHolder"
  nullable : n.isNullable = true →
    (Vocabulary.isPrimitive n.name = true → n.isArray = true) ∧
      (n.base.isEnum = true → n.isArray = true) ∧ n.name ≠ "ParcelableHolder"

/-- A type whose nodes are resolved and obey the rules. -/
def IsValid (r : Registry) (t : TypeSpec) : Prop :=
  ∀ n ∈ t.nodes, n.base.isResolved = true ∧ n.ObeysRules r

/-! ### The rules and the faults -/

theorem genericFault?_eq_none_iff :
    n.genericFault? r = none ↔ (n.arguments ≠ [] → n.AdmitsArguments r) := by
  have hgeneric : n.isGeneric = true ↔ n.arguments ≠ [] := by simp [isGeneric]
  rw [genericFault?, ← hgeneric]
  by_cases h : n.isGeneric = true
  · rw [if_pos h, AdmitsArguments]
    simp only [h, true_imp_iff]
    split
    · rw [listFault?_eq_none_iff]
      constructor
      · rintro ⟨hkinds, element, heq, helement⟩
        exact ⟨element, heq, hkinds element (by simp [heq]), helement⟩
      · rintro ⟨element, heq, hkind, helement⟩
        exact ⟨by simpa [heq] using hkind, element, heq, helement⟩
    · split
      · rw [mapFault?_eq_none_iff]
        constructor
        · rintro ⟨hkinds, key, value, heq, hkey⟩
          exact ⟨key, value, heq, hkey, hkinds key (by simp [heq]), hkinds value (by simp [heq])⟩
        · rintro ⟨key, value, heq, hkey, hkeyKind, hvalueKind⟩
          exact ⟨by simp [heq, hkeyKind, hvalueKind], key, value, heq, hkey⟩
      · rw [declaredFault?_eq_none_iff]
        simp only [Registry.named?, Option.bind_eq_some_iff]
        constructor
        · rintro ⟨target, d, params, htarget, hd, hparams, hlength⟩
          exact ⟨d, params, ⟨target, htarget, hd⟩, hparams, hlength⟩
        · rintro ⟨d, params, ⟨target, htarget, hd⟩, hparams, hlength⟩
          exact ⟨target, d, params, htarget, hd, hparams, hlength⟩
  · simp [h]

theorem isTextual_iff :
    n.isTextual = true ↔
      n.name = "String" ∨ n.name = "List" ∧ ∃ element, n.arguments = [element] ∧
        element.name = "String" := by
  rw [isTextual, Bool.or_eq_true, Bool.and_eq_true, Bool.and_eq_true, beq_iff_eq, beq_iff_eq,
    beq_iff_eq, List.length_eq_one_iff, and_assoc]
  refine or_congr_right (and_congr_right fun _ => ?_)
  constructor
  · rintro ⟨⟨element, heq⟩, htexts⟩
    exact ⟨element, heq, by simpa [heq] using htexts⟩
  · rintro ⟨element, heq, htext⟩
    exact ⟨⟨element, heq⟩, by simpa [heq] using htext⟩

/-- Nothing is wrong with the marks of a type: each is only where it may stand. -/
theorem formFault?_eq_none_iff :
    n.formFault? = none ↔
      (n.isUtf8 = true → n.isTextual = true) ∧
        (n.name = "void" → n.isArray = false ∧ n.isNullable = false ∧ n.isUtf8 = false) ∧
        (n.isArray = true → n.base.isInterface = false ∧ n.name ≠ "ParcelableHolder") ∧
        (n.isNullable = true → (Vocabulary.isPrimitive n.name = true → n.isArray = true) ∧
          (n.base.isEnum = true → n.isArray = true) ∧ n.name ≠ "ParcelableHolder") := by
  rw [formFault?, firstFault?_eq_none_iff]
  simp only [List.forall_mem_cons, List.not_mem_nil, false_imp_iff, implies_true, and_true]
  cases n.isUtf8 <;> cases n.isArray <;> cases n.isNullable <;> simp

/-- A node keeps what its check looks for when it is resolved and obeys the rules. -/
theorem keepsRules_iff : n.KeepsRules r ↔ n.base.isResolved = true ∧ n.ObeysRules r := by
  have hfault : n.fault? r = none ↔ n.genericFault? r = none ∧ n.formFault? = none := by
    rw [fault?, Option.or_eq_none_iff]
  rw [genericFault?_eq_none_iff, formFault?_eq_none_iff, isTextual_iff] at hfault
  constructor
  · intro h
    obtain ⟨harguments, hutf8, hvoid, harray, hnullable⟩ := hfault.mp h.fault
    exact ⟨h.resolved, AnnotationSet.value_check_iff.mp h.annotations, harguments, hutf8, hvoid,
      harray, hnullable⟩
  · rintro ⟨hresolved, h⟩
    exact ⟨AnnotationSet.value_check_iff.mpr h.annotations, hresolved,
      hfault.mpr ⟨h.arguments, h.utf8, h.void, h.array, h.nullable⟩⟩

/-- The types that pass their check are the valid ones. -/
theorem passes_check_iff_isValid : (t.check r).passes = true ↔ t.IsValid r := by
  rw [passes_check_iff]
  exact forall₂_congr fun n _ => keepsRules_iff

/-! ### What the check of a type reports -/

mutual

/-- A type that passes its check draws no report. -/
theorem reports_check (r : Registry) : (t : TypeSpec) → Reports true (t.check r) []
  | ⟨loc, base, arguments, isArray, annotations, comments⟩ => by
    rw [check]
    refine .bind (.lift annotations.silent_check) fun _ => .guard ?_
    refine .bind_answer fun _ _ => .bind (reports_checkAll r arguments) fun _ => .guard ?_
    exact .lift .verdict

theorem reports_checkAll (r : Registry) :
    (ts : List TypeSpec) → Reports true (checkAll r ts) []
  | [] => by
    rw [checkAll]
    exact .pure rfl
  | t :: rest => by
    rw [checkAll]
    exact .bind (reports_check r t) fun _ => .bind (reports_checkAll r rest) fun _ =>
      .pure (by simp)

end

/-- **Node by node**: the check of a type whose nodes are all resolved has a verdict. It is positive
without any report exactly when every node obeys the rules by itself; otherwise it is negative, and
an error is reported. -/
theorem check_of_resolved (r : Registry) (t : TypeSpec)
    (hresolved : ∀ n ∈ t.nodes, n.base.isResolved = true) :
    ∃ verdict, (t.check r).run.value = .ok verdict ∧
      (verdict = true ∧ (t.check r).run.diagnostics = [] ↔ ∀ n ∈ t.nodes, n.ObeysRules r) ∧
      ((¬ ∀ n ∈ t.nodes, n.ObeysRules r) →
        verdict = false ∧ ∃ d ∈ (t.check r).run.diagnostics, d.severity = .error) := by
  obtain ⟨verdict, hverdict⟩ := (t.completes_check r hresolved).exists_value
  have hvalid : verdict = true ↔ ∀ n ∈ t.nodes, n.ObeysRules r := by
    have hpasses : (t.check r).passes = true ↔ verdict = true := by
      rw [passes_iff, hverdict, Except.ok.injEq]
    rw [← hpasses, passes_check_iff_isValid]
    exact forall₂_congr fun n hn => and_iff_right (hresolved n hn)
  have hsilent : verdict = true → (t.check r).run.diagnostics = [] := by
    rintro rfl
    exact (t.reports_check r (passes_iff.mpr hverdict)).2
  refine ⟨verdict, hverdict, ?_, fun hinvalid => ?_⟩
  · rw [← hvalid]
    exact ⟨And.left, fun h => ⟨h, hsilent h⟩⟩
  · have hnegative : verdict = false := by simpa using mt hvalid.mp hinvalid
    have hhonest : HonestVerdict true (some false) (t.check r).run.diagnostics := by
      have hcheck := t.honest_check r
      rwa [Fallible.Honest, hverdict, hnegative] at hcheck
    obtain ⟨d, hd, herror⟩ := hhonest.exists_error
    exact ⟨hnegative, d, hd, by simpa [Diagnostic.isError] using herror⟩

/-- A list of texts that is marked as UTF-8 text obeys the rules, and so does the text in it. -/
theorem check_of_resolved_texts :
    let loc : Location := ⟨"Item.aidl", none⟩
    let texts : TypeSpec :=
      { builtin loc "List" with
        arguments := [builtin loc "String"]
        annotations := ⟨[⟨loc, .utf8InCpp, [], List.Pairwise.nil⟩]⟩ }
    (∀ n ∈ texts.nodes, n.base.isResolved = true) ∧ texts.isUtf8 = true ∧
      (texts.check .empty).passes = true ∧ ∀ n ∈ texts.nodes, n.ObeysRules .empty := by
  intro loc texts
  have hresolved : ∀ n ∈ texts.nodes, n.base.isResolved = true := by decide +kernel
  have hpasses : (texts.check .empty).passes = true := by decide +kernel
  have hsilent : (texts.check .empty).run.diagnostics = [] := by decide +kernel
  obtain ⟨verdict, hverdict, hiff, -⟩ := check_of_resolved .empty texts hresolved
  have hpositive : verdict = true :=
    Except.ok.inj (hverdict.symm.trans (passes_iff.mp hpasses))
  exact ⟨hresolved, by decide +kernel, hpasses, hiff.mp ⟨hpositive, hsilent⟩⟩

end TypeSpec

end InterfaceDefinition
