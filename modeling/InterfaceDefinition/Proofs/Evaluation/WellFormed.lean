import InterfaceDefinition.Expr.WellFormed
import InterfaceDefinition.Proofs.Evaluation.EnumValues
import InterfaceDefinition.Proofs.Evaluation.LookUps

/-!
# Well-formed expressions have values with a text

The structural check of an expression and its evaluation look at literals on their own, kind by
kind. They agree as far as evaluation needs it: a literal that is accepted has a value, and the text
of a character or a floating point number, which its value keeps, is not empty (`Value.HasText`).
Operators and references pass both on, so no evaluation of an expression that is well formed
throughout, in itself and in the constants that are looked up for it, ends at a literal that cannot
be read (`Registry.WellFormedThrough.isSound_evaluate`).

A rendering of a value with a text is never empty. So where all that is read is well formed, an
empty text stands for failures only (`Registry.valueText_wellFormed`).
-/

namespace InterfaceDefinition

open Bounded

/-! ### Outcomes of what is well formed -/

/-- An outcome is a value with some property, or an error that is not about the text of a
literal. -/
def IsSound {α : Type} (P : α → Prop) : Except EvalError α → Prop
  | .ok a => P a
  | .error error => ∀ text, error ≠ .invalidLiteral text

/-- A sound outcome is sound for any weaker property. -/
theorem IsSound.mono {α : Type} {P Q : α → Prop} {outcome : Except EvalError α}
    (h : IsSound P outcome) (hPQ : ∀ a, P a → Q a) : IsSound Q outcome := by
  cases outcome with
  | ok a => exact hPQ a h
  | error error => exact h

theorem IsSound.of_eq_ok {α : Type} {P : α → Prop} {outcome : Except EvalError α} {a : α}
    (h : IsSound P outcome) (heq : outcome = .ok a) : P a := by
  rwa [heq] at h

namespace Bounded

variable {α β : Type} {P : α → Prop} {Q : β → Prop}

/-- The outcome of a computation, if it has one, is sound. -/
def Sound (P : α → Prop) (x : Bounded α) : Prop :=
  ∀ outcome, x.run = some outcome → IsSound P outcome

theorem Sound.lift {outcome : Except EvalError α} (h : IsSound P outcome) :
    Sound P (liftM outcome : Bounded α) := by
  intro found hfound
  rwa [← Option.some.inj hfound]

theorem Sound.pure {a : α} (h : P a) : Sound P (pure a : Bounded α) :=
  .lift (show IsSound P (.ok a) from h)

theorem Sound.throw {error : EvalError} (h : ∀ text, error ≠ .invalidLiteral text) :
    Sound P (throw error : Bounded α) :=
  .lift (show IsSound P (.error error) from h)

/-- A sequence is sound if both halves are: the error of the first is the error of the whole. -/
theorem Sound.bind {x : Bounded α} {f : α → Bounded β} (hx : Sound P x)
    (hf : ∀ a, P a → Sound Q (f a)) : Sound Q (x >>= f) := by
  intro outcome h
  rcases run_bind_eq_some h with ⟨a, ha, hrest⟩ | ⟨error, herror, rfl⟩
  · exact hf a (hx _ ha) _ hrest
  · exact hx _ herror

end Bounded

/-! ### Values with a text -/

/-- The text that a value keeps is not empty. -/
def Value.HasText : Value → Prop
  | floating _ text | character text => text ≠ ""
  | _ => True

/-- An accepted literal has a value, and the value has a text. -/
theorem LiteralKind.isSound_value {kind : LiteralKind} {written : String}
    (h : kind.accepts written = true) : IsSound Value.HasText (kind.value written) := by
  cases kind with
  | boolean =>
    rw [accepts, Bool.or_eq_true, beq_iff_eq, beq_iff_eq] at h
    rcases h with rfl | rfl
    · exact trivial
    · exact trivial
  | character =>
    have hne : written ≠ "" := by
      rintro rfl
      exact Bool.false_ne_true h
    exact hne
  | floating =>
    have hne : written ≠ "" := by
      rintro rfl
      exact Bool.false_ne_true h
    obtain ⟨x, hx⟩ := Option.isSome_iff_exists.mp h
    rw [value, value?, hx]
    exact hne
  | integral =>
    obtain ⟨n, hn⟩ := Option.isSome_iff_exists.mp h
    rw [value, value?, hn]
    exact trivial
  | string =>
    obtain ⟨content, hcontent⟩ := Option.isSome_iff_exists.mp h
    rw [value, value?, hcontent]
    exact trivial

namespace Value

variable {v : Value}

/-- A value that operations compute, and that keeps nothing of how it was written. -/
def IsComputed : Value → Prop
  | boolean _ | integral _ | string _ => True
  | _ => False

/-- Computed values print something, since strings keep their quotes. -/
theorem IsComputed.hasText (h : v.IsComputed) : v.HasText := by
  cases v with
  | boolean | integral | string => exact trivial
  | _ => exact h.elim

/-- An integer out of range is an overflow, and no fault of a literal. -/
theorem isSound_ofInt (n : Int) : IsSound IsComputed (ofInt n) := by
  rw [ofInt]
  split
  · exact trivial
  · simp [IsSound]

theorem isSound_divided (op : Int → Int → Int) (l r : Int64) :
    IsSound IsComputed (divided op l r) := by
  rw [divided]
  split
  · exact nofun
  split
  · exact nofun
  · exact isSound_ofInt _

theorem isSound_shifted (op : Int64 → Int64 → Int64) (l r : Int64) :
    IsSound IsComputed (shifted op l r) := by
  rw [shifted]
  split
  · exact trivial
  · exact nofun

/-- An operator with two operands computes its value, or fails for another reason than a literal. -/
theorem isSound_binary (op : BinaryOp) (l r : Value) : IsSound IsComputed (l.binary op r) := by
  unfold binary
  split
  · cases op with
    | add | sub | mul => exact isSound_ofInt _
    | div | rem => exact isSound_divided ..
    | shl | shr => exact isSound_shifted ..
    | _ => exact trivial
  · cases op with
    | logicalAnd | bitAnd | logicalOr | bitOr | bitXor | eq | ne => exact trivial
    | _ => exact nofun
  · cases op with
    | add | eq | ne => exact trivial
    | _ => exact nofun
  · exact nofun

/-- An operator with one operand keeps the text of a floating point number, or puts a sign before
it. -/
theorem isSound_unary (h : v.HasText) (op : UnaryOp) : IsSound HasText (v.unary op) := by
  unfold unary
  split
  · exact trivial
  · exact (isSound_ofInt _).mono fun _ => IsComputed.hasText
  · exact h
  · next text =>
    have hne : "-" ++ text ≠ "" := by simp
    exact hne
  · exact trivial
  · exact trivial
  · exact trivial
  · exact nofun

/-! ### Renderings -/

theorem toString_int_ne_empty (n : Int) : toString n ≠ "" := by
  cases n with
  | ofNat m =>
    intro h
    have hdigits : String.ofList (Nat.toDigits 10 m) = "" := h
    exact Nat.toDigits_ne_nil (String.ofList_eq_empty_iff.mp hdigits)
  | negSucc m =>
    have hne : "-" ++ toString (m + 1) ≠ "" := by simp
    exact hne

theorem renderWithin_ne_empty (low high : Int) (type : String) (n : Int64) :
    renderWithin low high type n ≠ .ok "" := by
  rw [renderWithin]
  split
  · exact fun h => toString_int_ne_empty _ (Except.ok.inj h)
  · exact nofun

/-- A value with a text is not rendered as nothing for a builtin type. -/
theorem renderBuiltin_ne_empty (h : v.HasText) (type : String) :
    v.renderBuiltin type ≠ .ok "" := by
  unfold renderBuiltin
  dsimp only
  split
  · cases v with
    | boolean b => cases b <;> simp
    | _ => simp
  · cases v with
    | integral n => exact renderWithin_ne_empty _ _ _ n
    | _ => simp
  · cases v with
    | integral n => exact renderWithin_ne_empty _ _ _ n
    | _ => simp
  · cases v with
    | integral n => exact fun htext => toString_int_ne_empty _ (Except.ok.inj htext)
    | _ => simp
  · cases v with
    | character text => exact fun htext => h (Except.ok.inj htext)
    | _ => simp
  · cases v with
    | floating x text => exact fun htext => h (Except.ok.inj htext)
    | integral n => exact fun htext => toString_int_ne_empty _ (Except.ok.inj htext)
    | _ => simp
  · cases v with
    | floating x text => exact fun htext => h (Except.ok.inj htext)
    | integral n => exact fun htext => toString_int_ne_empty _ (Except.ok.inj htext)
    | _ => simp
  · cases v with
    | string content => simp [Text.doubleQuoted]
    | _ => simp
  · simp

theorem renderAs_ne_empty (h : v.HasText) (type : TypeName) : v.renderAs type ≠ .ok "" := by
  unfold renderAs
  split
  · exact renderBuiltin_ne_empty h _
  · split
    · cases v with
      | enumerator name => simp
      | _ => exact nofun
    · exact nofun

/-- A value with a text is never rendered as nothing, and an array has its braces at least. -/
theorem render_ne_empty (h : v.HasText) (type : ValueType) : v.render type ≠ .ok "" := by
  unfold render
  split
  · cases v with
    | array items =>
      dsimp only
      cases items.mapM (renderAs type.base) with
      | error error => exact nofun
      | ok texts => exact fun htext => by simpa using Except.ok.inj htext
    | _ => exact nofun
  · exact renderAs_ne_empty h _

end Value

/-! ### Expressions -/

namespace Expr

variable {f : Bool → String → Bounded Value}

mutual

/-- The outcome of a well-formed expression is sound when the outcomes of its references are. -/
theorem sound_evalWith (isArray : Bool) : (e : Expr) → e.isWellFormed = true →
    (∀ ref ∈ e.references isArray, Sound Value.HasText (f ref.1 ref.2)) →
      Sound Value.HasText (e.evalWith f isArray)
  | literal _ kind written, h, _ => by
    rw [evalWith]
    exact .lift (LiteralKind.isSound_value h)
  | array _ items, h, href => by
    rw [references] at href
    rw [evalWith]
    exact (sound_evalAll items h href).bind fun vs _ => .pure trivial
  | reference _ name, _, href => by
    rw [references, List.forall_mem_singleton] at href
    rw [evalWith]
    exact href
  | unary _ op operand, h, href => by
    rw [references] at href
    rw [evalWith]
    exact (sound_evalWith isArray operand h href).bind fun v hv => .lift (v.isSound_unary hv op)
  | binary _ op lhs rhs, h, href => by
    rw [isWellFormed, Bool.and_eq_true] at h
    rw [references, List.forall_mem_append] at href
    rw [evalWith]
    exact (sound_evalWith isArray lhs h.1 href.1).bind fun l _ =>
      (sound_evalWith isArray rhs h.2 href.2).bind fun r _ =>
        .lift ((l.isSound_binary op r).mono fun _ => Value.IsComputed.hasText)

theorem sound_evalAll : (es : List Expr) → allWellFormed es = true →
    (∀ ref ∈ itemReferences es, Sound Value.HasText (f ref.1 ref.2)) →
      Sound (fun _ => True) (evalAll f es)
  | [], _, _ => by
    rw [evalAll]
    exact .pure trivial
  | e :: rest, h, href => by
    rw [allWellFormed, Bool.and_eq_true] at h
    rw [itemReferences, List.forall_mem_append] at href
    rw [evalAll]
    exact (sound_evalWith false e h.1 href.1).bind fun v _ =>
      (sound_evalAll rest h.2 href.2).bind fun vs _ => .pure trivial

end

end Expr

/-! ### References -/

namespace Registry

variable {r : Registry} {scope : String} {type : TypeName} {isArray : Bool} {name : String}

/-- A reference that denotes a constant is looked up. -/
theorem looksUp_of_referent {c : NamedConstant}
    (h : r.referent scope type isArray name = .ok (.inr c)) :
    r.LooksUp scope type isArray name scope name := by
  rw [referent] at h
  split at h
  · next target _ => cases hv : r.enumerator target type name <;> simp [hv, Except.map] at h
  · next hnone => exact .self (expected_eq_none_iff.mp hnone)

/-- What a reference stands for is not found to be a literal. -/
theorem referent_ne_invalidLiteral (text : String) :
    r.referent scope type isArray name ≠ .error (.invalidLiteral text) := by
  rw [referent]
  split
  · next target _ =>
    rcases r.enumerator_cases target type name with h | h
    · simp [h, Except.map]
    · simp [h, Except.map]
  · split
    · simp
    · simp

/-- A reference denotes a constant, or it has a sound outcome of its own. -/
theorem sound_or_constant (r : Registry) (scope : String) (type : TypeName) (isArray : Bool)
    (name : String) :
    (∀ room opened, Sound Value.HasText (r.dereference room opened scope type isArray name)) ∨
      ∃ c, r.referent scope type isArray name = .ok (.inr c) := by
  rcases href : r.referent scope type isArray name with error | (v | c)
  · refine .inl fun room opened => ?_
    rw [dereference_of_error href]
    exact .throw fun text heq => referent_ne_invalidLiteral text (heq ▸ href)
  · refine .inl fun room opened => ?_
    rw [dereference_of_value href, eq_enumerator_of_referent href]
    exact .pure trivial
  · exact .inr ⟨c, rfl⟩

/-- Every constant that is looked up for a reference is well formed. -/
def ConstantsWellFormed (r : Registry) (scope : String) (type : TypeName) (isArray : Bool)
    (name : String) : Prop :=
  ∀ scope' name' c, r.LooksUp scope type isArray name scope' name' →
    r.constant? scope' name' = some c → c.value.isWellFormed = true

/-- The outcome of a reference is sound when what is looked up for it is well formed: by induction
on the room, as each constant that is entered takes some of it. -/
theorem sound_dereference (room : Nat) {opened : List OpenReference}
    (h : r.ConstantsWellFormed scope type isArray name) :
    Sound Value.HasText (r.dereference room opened scope type isArray name) := by
  induction room generalizing opened scope type isArray name with
  | zero =>
    rcases r.sound_or_constant scope type isArray name with hsound | ⟨c, hc⟩
    · exact hsound 0 opened
    · by_cases hopen : (c.scope, name) ∈ opened
      · rw [dereference_of_open hc hopen]
        exact .throw nofun
      · rw [dereference_zero hc hopen]
        exact nofun
  | succ room ih =>
    rcases r.sound_or_constant scope type isArray name with hsound | ⟨c, hc⟩
    · exact hsound (room + 1) opened
    · by_cases hopen : (c.scope, name) ∈ opened
      · rw [dereference_of_open hc hopen]
        exact .throw nofun
      · rw [dereference_succ hc hopen]
        have hvalue := h scope name c (looksUp_of_referent hc) (constant?_of_referent hc)
        exact Expr.sound_evalWith c.type.isArray c.value hvalue fun ref hmem =>
          ih fun scope' name' c' hlooksUp => h scope' name' c' (.through hc hmem hlooksUp)

/-! ### Values and their texts -/

/-- An expression is well formed, and so is every constant that evaluating it looks up. -/
structure WellFormedThrough (r : Registry) (e : Expr) (type : ValueType) (scope : String) :
    Prop where
  self : e.isWellFormed = true
  constants : ∀ scope' name' c, r.ValueLooksUp e type scope scope' name' →
    r.constant? scope' name' = some c → c.value.isWellFormed = true

variable {e : Expr} {type : ValueType}

/-- Evaluation only comes across literals of the expression and of the constants that it leads to,
all of which can be read. -/
theorem WellFormedThrough.isSound_evaluate (h : r.WellFormedThrough e type scope) :
    IsSound Value.HasText (r.evaluate e type scope) := by
  have hsound : Sound Value.HasText (r.evaluateWithin (r.openBound e) e type scope) :=
    Expr.sound_evalWith type.isArray e h.self fun ref hmem =>
      sound_dereference _ fun scope' name' c hlooksUp =>
        h.constants scope' name' c ⟨ref, hmem, hlooksUp⟩
  exact hsound _ (r.run_evaluateWithin_of_le e type scope (Nat.le_refl _))

/-- **What is well formed fails for other reasons than its form, and never silently.** When an
expression is well formed, and so are the constants that evaluating it looks up, then evaluation
does not end at a literal that cannot be read, no rendering is empty, and so the text that stands
for a failure, the empty one, is there exactly when the value or its rendering failed. -/
theorem valueText_wellFormed (h : r.WellFormedThrough e type scope) :
    (∀ text, r.evaluate e type scope ≠ .error (.invalidLiteral text)) ∧
    r.valueText e type scope ≠ .ok "" ∧
    (r.valueTextOrEmpty e type scope = "" ↔
      (∃ error, r.evaluate e type scope = .error error) ∨
        ∃ v error, r.evaluate e type scope = .ok v ∧ v.render type = .error error) := by
  have hsound := h.isSound_evaluate
  cases hvalue : r.evaluate e type scope with
  | error error =>
    have htext : r.valueText e type scope = .error error := by
      rw [valueText, hvalue]
      rfl
    rw [hvalue] at hsound
    rw [valueTextOrEmpty, htext]
    exact ⟨fun text heq => hsound text (Except.error.inj heq), by simp,
      iff_of_true rfl (.inl ⟨error, rfl⟩)⟩
  | ok v =>
    rw [hvalue] at hsound
    have hne : v.render type ≠ .ok "" := Value.render_ne_empty hsound type
    rw [valueTextOrEmpty, valueText_of_evaluate hvalue]
    refine ⟨by simp, hne, ?_⟩
    cases htext : v.render type with
    | error error => exact iff_of_true rfl (.inr ⟨v, error, rfl, htext⟩)
    | ok text =>
      rw [htext] at hne
      refine iff_of_false (fun heq => hne (by rw [← heq])) ?_
      rintro (⟨error, herror⟩ | ⟨w, error, hw, herror⟩)
      · cases herror
      · rw [← Except.ok.inj hw, htext] at herror
        cases herror

/-- A parcelable with constants that refer to each other, the last of which divides by zero. -/
def scale : Document :=
  let loc : Location := ⟨"Scale.aidl", none⟩
  let int := TypeSpec.named loc "int"
  let constant (name : String) (type : TypeSpec) (value : Expr) : Constant :=
    ⟨loc, type, name, value⟩
  ⟨[], [⟨⟨loc, "p", "Scale", "", {}⟩, .structured none { constants := [
    constant "STEP" int (.literal loc .integral "0x10"),
    constant "RANGE" { int with isArray := true }
      (.array loc [.unary loc .minus (.reference loc "STEP"), .reference loc "Scale.STEP"]),
    constant "RATIO" int
      (.binary loc .div (.reference loc "STEP") (.literal loc .integral "0"))] }⟩]⟩

/-- Both constants are well formed, and so is all that they refer to. The array has a text, and the
quotient has none, since its evaluation or its rendering fails. -/
theorem valueText_wellFormed_scale :
    let r := (empty.addDocument scale).value
    let loc : Location := ⟨"Scale.aidl", none⟩
    let int : ValueType := ⟨.builtin "int", false⟩
    (∀ name ∈ ["RANGE", "RATIO"], ∀ type,
        r.WellFormedThrough (.reference loc name) type "p.Scale") ∧
      r.valueText (.reference loc "RANGE") { int with isArray := true } "p.Scale" =
        .ok "\x7b-16, 16\x7d" ∧
      ((∃ error, r.evaluate (.reference loc "RATIO") int "p.Scale" = .error error) ∨
        ∃ v error, r.evaluate (.reference loc "RATIO") int "p.Scale" = .ok v ∧
          v.render int = .error error) := by
  intro r loc int
  have hexprs : ∀ value ∈ r.exprs, value.isWellFormed = true := by decide +kernel
  have hthrough : ∀ name ∈ ["RANGE", "RATIO"], ∀ type,
      r.WellFormedThrough (.reference loc name) type "p.Scale" := by
    intro name hname type
    refine ⟨?_, fun _ _ c _ hc => hexprs c.value (mem_exprs_of_constant? hc)⟩
    revert name
    decide
  refine ⟨hthrough, toOption_eq_some_iff.mp (by decide +kernel), ?_⟩
  exact (valueText_wellFormed (hthrough "RATIO" (by simp) int)).2.2.mp (by decide +kernel)

end Registry

end InterfaceDefinition
