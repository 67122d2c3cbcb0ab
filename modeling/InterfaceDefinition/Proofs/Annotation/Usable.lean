import InterfaceDefinition.Proofs.Evaluation.Closed
import InterfaceDefinition.Proofs.Evaluation.WellFormed
import InterfaceDefinition.Proofs.Verdict.Checks

/-!
# Valid annotations are usable

The check of an annotation looks at the texts of its parameters, while those who use the annotation
read the values. The two agree because a text says of which type the value is
(`ParamType.render_eq_ok_iff`): what a valid annotation was given can be read as what the schema
says it is, in whatever declarations it is evaluated, and it is printed with the text of its value.
The other way round there is no defect that the check passes over, and none without an error
(`Annotation.check_usable`).

A text of a string is the string in double quotes, whatever characters are in it, so texts are told
apart by their values but cannot always be read back.
-/

namespace InterfaceDefinition

/-! ### Values of parameter types -/

/-- The values that a parameter type admits, each with its text. -/
inductive ParamType.Holds : ParamType → Value → String → Prop
  | string (content : String) : Holds .string (.string content) (Text.doubleQuoted content)
  | boolean (b : Bool) : Holds .boolean (.boolean b) (if b then "true" else "false")
  | int {n : Int64}
      (hbounds : Int32.minValue.toInt ≤ n.toInt ∧ n.toInt ≤ Int32.maxValue.toInt) :
    Holds .int (.integral n) (toString n.toInt)
  | long (n : Int64) : Holds .long (.integral n) (toString n.toInt)

namespace ParamType

variable {type : ParamType} {v : Value} {text : String}

/-- A value has a text as a parameter exactly when the type of the parameter admits it. -/
theorem render_eq_ok_iff : v.render type.valueType = .ok text ↔ type.Holds v text := by
  constructor
  · intro h
    -- each type is that of one kind of values
    cases type with
    | string =>
      cases v with
      | string content => cases h; exact .string content
      | _ => cases h
    | boolean =>
      cases v with
      | boolean b => cases h; exact .boolean b
      | _ => cases h
    | int =>
      cases v with
      | integral n =>
        have hwithin : Value.renderWithin Int32.minValue.toInt Int32.maxValue.toInt "int" n =
            .ok text := h
        rw [Value.renderWithin] at hwithin
        split at hwithin
        · next hbounds =>
          cases hwithin
          exact .int hbounds
        · cases hwithin
      | _ => cases h
    | long =>
      cases v with
      | integral n => cases h; exact .long n
      | _ => cases h
  · intro h
    cases h with
    | string | boolean | long => rfl
    | int hbounds => exact if_pos hbounds

/-- No value has an empty text. -/
theorem Holds.text_ne (h : type.Holds v text) : text ≠ "" := by
  cases h with
  | string content => simp [Text.doubleQuoted]
  | boolean b => cases b <;> decide
  | int | long => exact Value.toString_int_ne_empty _

end ParamType

namespace Annotation

variable {a : Annotation} {param : String} {expr : Expr} {type : ParamType}

/-! ### What was given -/

/-- The text of a parameter is found under its name. -/
theorem lookup_paramTexts (a : Annotation) (param : String) :
    a.paramTexts.lookup param =
      (a.param? param).bind fun expr =>
        (a.paramType? param).map fun type => renderParam type expr := by
  rw [paramTexts, param?]
  induction a.params with
  | nil => rfl
  | cons first rest ih =>
    obtain ⟨name, expr⟩ := first
    by_cases hname : param = name
    · subst hname
      cases htype : a.paramType? param with
      | none =>
        rw [List.filterMap_cons_none (by simp [htype]), ih]
        simp [htype]
      | some type =>
        rw [List.filterMap_cons_some (b := (param, renderParam type expr)) (by simp [htype])]
        simp
    · have hskip : ((name, expr) :: rest).lookup param = rest.lookup param := by
        rw [List.lookup_cons, beq_false_of_ne hname]
      rw [hskip, ← ih]
      cases htype : a.paramType? name with
      | none => rw [List.filterMap_cons_none (by simp [htype])]
      | some type =>
        rw [List.filterMap_cons_some (b := (name, renderParam type expr)) (by simp [htype]),
          List.lookup_cons, beq_false_of_ne hname]

/-- A parameter with an expression, as those find it who use the annotation: it is declared with a
type, the expression has one value in all declarations and scopes, which is of that type and which
the annotation hands out, and the text that is printed is the text of the value. -/
structure Reads (a : Annotation) (param : String) (expr : Expr) (type : ParamType) (v : Value)
    (text : String) : Prop where
  paramType? : a.paramType? param = some type
  evaluate : ∀ (r : Registry) (scope : String), r.evaluate expr type.valueType scope = .ok v
  holds : type.Holds v text
  paramValue? : a.paramValue? param = some v
  paramTexts : a.paramTexts.lookup param = some text
  text_ne : text ≠ ""

/-- A string parameter is read without the quotes that its text has. -/
theorem Reads.paramString? {v : Value} {text : String} (h : a.Reads param expr .string v text) :
    ∃ content, a.paramString? param = some content ∧ text = Text.doubleQuoted content := by
  have hvalue := h.paramValue?
  cases h.holds with
  | string content =>
    refine ⟨content, ?_, rfl⟩
    unfold Annotation.paramString?
    rw [hvalue]

/-- A parameter that is read as a truth value is one. -/
theorem Reads.paramBool? {v : Value} {text : String} (h : a.Reads param expr .boolean v text) :
    ∃ b, a.paramBool? param = some b := by
  have hvalue := h.paramValue?
  cases h.holds with
  | boolean b =>
    refine ⟨b, ?_⟩
    unfold Annotation.paramBool?
    rw [hvalue]

/-- What a valid annotation was given can be read. -/
theorem IsValid.reads (hvalid : a.IsValid) (hgiven : a.param? param = some expr) :
    ∃ type v text, a.Reads param expr type v text := by
  obtain ⟨type, htype, hclosed, -, htext⟩ := hvalid.given _ (mem_params_of_param? hgiven)
  obtain ⟨text, hok, hne⟩ := Registry.valueTextOrEmpty_ne_iff.mp htext
  obtain ⟨v, hv, hrender⟩ := Registry.exists_value_of_valueText hok
  obtain ⟨outcome, houtcome⟩ := Expr.exists_hasOutcome (Expr.firstReference?_eq_none_iff.mp hclosed)
  have heverywhere := Registry.evaluate_of_hasOutcome houtcome
  -- without declarations there is a value, so that is the outcome
  obtain rfl : outcome = .ok v := (heverywhere .empty type.valueType "").symm.trans hv
  have hshown : renderParam type expr = text := by
    rw [renderParam, Registry.valueTextOrEmpty, hok]
  exact ⟨type, v, text, htype, fun r scope => heverywhere r type.valueType scope,
    ParamType.render_eq_ok_iff.mp hrender,
    by simp [htype, Annotation.paramValue?, hgiven, hv, Except.toOption],
    by simp [lookup_paramTexts, htype, hgiven, hshown], hne⟩

/-- An annotation whose parameters can be relied on: the required ones were given, and each one that
was given can be read, a string with a text that is the string in double quotes. -/
structure IsUsable (a : Annotation) : Prop where
  required : ∀ param ∈ a.kind.schema.required, (a.param? param).isSome = true
  given : ∀ param expr, a.param? param = some expr → ∃ type v text,
    a.Reads param expr type v text ∧
      (type = .string → ∃ content,
        a.paramString? param = some content ∧ text = Text.doubleQuoted content) ∧
      (type = .boolean → ∃ b, a.paramBool? param = some b)

/-- What a valid annotation was given can be read, parameter by parameter, since its check has read
it, too. -/
theorem IsValid.isUsable (hvalid : a.IsValid) : a.IsUsable where
  required := hvalid.required
  given param expr hgiven := by
    obtain ⟨type, v, text, hreads⟩ := hvalid.reads hgiven
    refine ⟨type, v, text, hreads, ?_, ?_⟩
    · rintro rfl
      exact hreads.paramString?
    · rintro rfl
      exact hreads.paramBool?

/-! ### Defects -/

/-- What can be wrong with an annotation. -/
inductive Defect (a : Annotation) : Prop
  | undeclared {param : String} {expr : Expr} (hgiven : a.param? param = some expr)
    (h : a.paramType? param = none)
  | reference {param : String} {expr : Expr} (hgiven : a.param? param = some expr)
    (h : ¬ expr.IsClosed)
  | malformed {param : String} {expr : Expr} (hgiven : a.param? param = some expr)
    (h : expr.isWellFormed = false)
  | textless {param : String} {expr : Expr} {type : ParamType} {cause : EvalError}
    (hgiven : a.param? param = some expr) (htype : a.paramType? param = some type)
    (h : Registry.empty.valueText expr type.valueType "" = .error cause)
  | missing {param : String} (hrequired : param ∈ a.kind.schema.required)
    (h : a.param? param = none)

/-- Each parameter occurs once, so what was given for it is found. -/
theorem param?_of_mem {p : String × Expr} (h : p ∈ a.params) : a.param? p.1 = some p.2 := by
  obtain ⟨l₁, l₂, hl⟩ := List.append_of_mem h
  have hordered := a.ordered
  rw [hl, List.pairwise_append] at hordered
  refine List.lookup_eq_some_iff.mpr ⟨l₁, l₂, hl, fun q hq => ?_⟩
  have hlt : q.1 < p.1 := hordered.2.2 q hq p List.mem_cons_self
  exact bne_iff_ne.mpr fun heq => String.lt_irrefl _ (heq ▸ hlt)

/-- Each of the defects goes against one of the two rules, that about what was given or that about
what is required. -/
theorem Defect.not_isValid (h : a.Defect) : ¬ a.IsValid := by
  intro hvalid
  have haccepts : ∀ {param expr}, a.param? param = some expr → a.AcceptsParam param expr :=
    fun hgiven => hvalid.given _ (mem_params_of_param? hgiven)
  cases h with
  | undeclared hgiven h =>
    obtain ⟨type, htype, -⟩ := haccepts hgiven
    simp [h] at htype
  | reference hgiven h =>
    obtain ⟨type, -, hclosed, -⟩ := haccepts hgiven
    exact h (Expr.firstReference?_eq_none_iff.mp hclosed)
  | malformed hgiven h =>
    obtain ⟨type, -, -, hwellFormed, -⟩ := haccepts hgiven
    simp [h] at hwellFormed
  | textless hgiven htype h =>
    obtain ⟨type, htype', -, -, htext⟩ := haccepts hgiven
    obtain rfl := Option.some.inj (htype.symm.trans htype')
    rw [renderParam, Registry.valueTextOrEmpty, h] at htext
    exact htext rfl
  | missing hrequired h =>
    have hsome := hvalid.required _ hrequired
    simp [h] at hsome

/-- An annotation without a defect is valid. -/
theorem isValid_of_not_defect (h : ¬ a.Defect) : a.IsValid := by
  refine ⟨fun p hp => ?_, fun param hrequired => ?_⟩
  · have hgiven := param?_of_mem hp
    cases htype : a.paramType? p.1 with
    | none => exact absurd (.undeclared hgiven htype) h
    | some type =>
      have hclosed : p.2.IsClosed := by
        by_contra hopen
        exact h (.reference hgiven hopen)
      have hwellFormed : p.2.isWellFormed = true := by
        by_contra hmalformed
        exact h (.malformed hgiven (by simpa using hmalformed))
      refine ⟨type, htype, Expr.firstReference?_eq_none_iff.mpr hclosed, hwellFormed, ?_⟩
      rw [renderParam, Registry.valueTextOrEmpty_ne_iff]
      cases htext : Registry.empty.valueText p.2 type.valueType "" with
      | error cause => exact absurd (.textless hgiven htype htext) h
      | ok text =>
        obtain ⟨v, -, hrender⟩ := Registry.exists_value_of_valueText htext
        exact ⟨text, rfl, (ParamType.render_eq_ok_iff.mp hrender).text_ne⟩
  · rw [Option.isSome_iff_ne_none]
    exact fun hmissing => h (.missing hrequired hmissing)

/-- **Valid annotations are usable.** When the check of an annotation passes, all required
parameters were given, and every parameter that was given is declared, has one value in whatever
declarations it is evaluated, of its declared type, and is printed with the text of that value,
which is not empty and for a string is the string in double quotes. The check fails exactly when
there is a defect, and then it reports an error. -/
theorem check_usable (a : Annotation) :
    (a.check.value = true → a.IsUsable) ∧ (a.check.value = false ↔ a.Defect) ∧
      (a.Defect → ∃ d ∈ a.check.diagnostics, d.isError = true) := by
  have hfails : a.check.value = false ↔ a.Defect := by
    rw [← Bool.not_eq_true, value_check_iff]
    exact ⟨fun h => not_not.mp (mt isValid_of_not_defect h), Defect.not_isValid⟩
  refine ⟨fun h => (value_check_iff.mp h).isUsable, hfails, fun h => ?_⟩
  have hhonest : HonestVerdict true (some a.check.value) a.check.diagnostics := a.honest_check
  rw [hfails.mpr h] at hhonest
  exact hhonest.exists_error

/-- A text that is put together and a number that is computed can be read; an annotation without a
parameter that it requires has a defect. -/
theorem check_usable_appUsage :
    let loc : Location := ⟨"Clock.aidl", none⟩
    let number := fun digits => Expr.literal loc .integral digits
    let text := fun written => Expr.literal loc .string written
    let alternatives := Expr.binary loc .add (text "\"Clock\"") (text "\"#now\"")
    let maxTarget := Expr.binary loc .mul (number "7") (number "0x4")
    let usage : Annotation :=
      { location := loc
        kind := .unsupportedAppUsage
        params := sortParams [("publicAlternatives", alternatives), ("maxTargetSdk", maxTarget)]
        ordered := pairwise_sortParams _ }
    let nameless : Annotation := ⟨loc, .descriptor, [], .nil⟩
    usage.check.value = true ∧
      (∃ content, usage.paramString? "publicAlternatives" = some content ∧
        usage.paramTexts.lookup "publicAlternatives" = some (Text.doubleQuoted content)) ∧
      (∃ n : Int64, usage.paramValue? "maxTargetSdk" = some (.integral n) ∧
        n.toInt ≤ Int32.maxValue.toInt) ∧
      nameless.Defect ∧ ∃ d ∈ nameless.check.diagnostics, d.isError = true := by
  intro loc number text alternatives maxTarget usage nameless
  have hpasses : usage.check.value = true := by decide +kernel
  have hdefect : nameless.Defect := (check_usable nameless).2.1.mp (by decide +kernel)
  have husable := (check_usable usage).1 hpasses
  have halternatives : usage.param? "publicAlternatives" = some alternatives := by
    simp [usage, param?, sortParams, lookup_insertParam]
  have hmaxTarget : usage.param? "maxTargetSdk" = some maxTarget := by
    simp [usage, param?, sortParams, lookup_insertParam]
  refine ⟨hpasses, ?_, ?_, hdefect, (check_usable nameless).2.2 hdefect⟩
  · obtain ⟨type, v, shown, hreads, hstring, -⟩ := husable.given _ _ halternatives
    obtain rfl : ParamType.string = type := Option.some.inj hreads.paramType?
    obtain ⟨content, hcontent, rfl⟩ := hstring rfl
    exact ⟨content, hcontent, hreads.paramTexts⟩
  · obtain ⟨type, v, shown, hreads, -⟩ := husable.given _ _ hmaxTarget
    obtain rfl : ParamType.int = type := Option.some.inj hreads.paramType?
    have hvalue := hreads.paramValue?
    cases hreads.holds with
    | int hbounds => exact ⟨_, hvalue, hbounds.2⟩

end Annotation

end InterfaceDefinition
