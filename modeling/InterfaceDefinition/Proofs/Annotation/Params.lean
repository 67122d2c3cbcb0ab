import InterfaceDefinition.Annotation.Check
import InterfaceDefinition.Proofs.Evaluation.Outcome

/-!
# The parameters of a valid annotation

An annotation is valid when it was given every parameter its schema requires, and every parameter it
was given has a value of the type the schema gives it (`Annotation.IsValid`); these are the
annotations that pass their check (`Annotation.value_check_iff`). So a string parameter that was
given can be read as a string (`Annotation.isSome_paramString?`), and a required one always
(`Annotation.isSome_paramString?_of_required`).
-/

namespace InterfaceDefinition

/-- Only strings have a text as a string. -/
theorem Value.exists_string_of_render {v : Value} {text : String}
    (h : v.render ⟨.builtin "String", false⟩ = .ok text) : ∃ content, v = .string content := by
  have hrender : v.render ⟨.builtin "String", false⟩ = v.renderBuiltin "String" := rfl
  rw [hrender] at h
  cases v with
  | string content => exact ⟨content, rfl⟩
  | _ => simp [renderBuiltin] at h

namespace Annotation

variable {a : Annotation} {param : String}

/-- Parameters are looked up by name among those that were given. -/
theorem mem_params_of_param? {expr : Expr} (h : a.param? param = some expr) :
    (param, expr) ∈ a.params := by
  obtain ⟨l₁, l₂, hl, -⟩ := List.lookup_eq_some_iff.mp h
  simp [hl]

/-- What a given parameter must be: known to the schema, and a well-formed expression that refers to
nothing and has a text as a value of the type the schema gives it. -/
def AcceptsParam (a : Annotation) (param : String) (expr : Expr) : Prop :=
  ∃ type, a.paramType? param = some type ∧ expr.firstReference? = none ∧
    expr.isWellFormed = true ∧ renderParam type expr ≠ ""

/-- The rules for one annotation, without the order in which they are checked. -/
structure IsValid (a : Annotation) : Prop where
  given : ∀ p ∈ a.params, a.AcceptsParam p.1 p.2
  required : ∀ param ∈ a.kind.schema.required, (a.param? param).isSome = true

/-- A parameter that was given has no fault when the kind of the annotation declares it and its
value is one of the declared type. -/
theorem paramFault?_eq_none_iff {expr : Expr} :
    a.paramFault? param expr = none ↔ a.AcceptsParam param expr := by
  rw [paramFault?, AcceptsParam]
  cases a.paramType? param with
  | none => simp
  | some type =>
    cases expr.firstReference? with
    | some reference => simp
    | none => simp [and_comm]

/-- A required parameter has to be given; what is wrong with its value is the fault of the value. -/
theorem requiredFault?_eq_none_iff : a.requiredFault? param = none ↔ (a.param? param).isSome := by
  rw [requiredFault?]
  split
  · next hgiven => simp [hgiven]
  · next hmissing => simp [hmissing]

/-- An annotation passes its check exactly when it keeps the rules. -/
theorem value_check_iff : a.check.value = true ↔ a.IsValid := by
  rw [check]
  simp only [Reporting.bind_def, Reporting.pure_def, Bool.and_eq_true, value_checkEach,
    List.all_eq_true, Reporting.value_verdict, Option.isNone_iff_eq_none, paramFault?_eq_none_iff,
    requiredFault?_eq_none_iff]
  exact ⟨fun ⟨hgiven, hrequired⟩ => ⟨hgiven, hrequired⟩, fun h => ⟨h.given, h.required⟩⟩

/-- A parameter that was given to a valid annotation has a value with a text. -/
theorem exists_paramValue? (hvalid : a.IsValid) {expr : Expr} {type : ParamType}
    (hexpr : a.param? param = some expr) (htype : a.paramType? param = some type) :
    ∃ v text, a.paramValue? param = some v ∧ v.render type.valueType = .ok text := by
  obtain ⟨type', htype', -, -, htext⟩ := hvalid.given _ (mem_params_of_param? hexpr)
  obtain rfl : type = type' := Option.some.inj (htype.symm.trans htype')
  obtain ⟨text, htext, -⟩ := Registry.valueTextOrEmpty_ne_iff.mp htext
  obtain ⟨v, hv, hrender⟩ := Registry.exists_value_of_valueText htext
  refine ⟨v, text, ?_, hrender⟩
  simp [paramValue?, htype, hexpr, hv, Except.toOption]

/-- A string parameter that was given to a valid annotation can be read as a string. -/
theorem isSome_paramString? (hvalid : a.IsValid) (hgiven : (a.param? param).isSome)
    (htype : a.paramType? param = some .string) : (a.paramString? param).isSome := by
  obtain ⟨expr, hexpr⟩ := Option.isSome_iff_exists.mp hgiven
  obtain ⟨v, text, hv, hrender⟩ := exists_paramValue? hvalid hexpr htype
  obtain ⟨content, rfl⟩ := Value.exists_string_of_render hrender
  simp [paramString?, hv]

/-- A required string parameter of a valid annotation can be read as a string. -/
theorem isSome_paramString?_of_required (hvalid : a.IsValid)
    (hrequired : param ∈ a.kind.schema.required) (htype : a.paramType? param = some .string) :
    (a.paramString? param).isSome :=
  isSome_paramString? hvalid (hvalid.required param hrequired) htype

end Annotation

end InterfaceDefinition
