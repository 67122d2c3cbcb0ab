import InterfaceDefinition.Evaluation
import Mathlib.Tactic.ByContra

/-!
# Outcomes of bounded computations

Two evaluations of one expression differ only in the meaning they give to references. What is said
here of two bounded computations is kept by sequencing and holds of what evaluation does besides
references (`Bounded.Congruence`), so it passes from the references of an expression to the
expression (`Expr.evalWith_congr`).

A text of an expression is the rendering of its value (`Registry.exists_value_of_valueText`).
-/

namespace InterfaceDefinition

/-- An outcome is a circular reference. Only references have such outcomes. -/
def IsCircular {α : Type} (outcome : Except EvalError α) : Prop :=
  ∃ name, outcome = .error (.circularReference name)

/-- A value is not circular. -/
theorem not_isCircular_ok {α : Type} (a : α) : ¬ IsCircular (.ok a : Except EvalError α) := by
  simp [IsCircular]

/-- An error is circular whatever was computed. -/
theorem isCircular_error_iff {α β : Type} {error : EvalError} :
    IsCircular (.error error : Except EvalError α) ↔
      IsCircular (.error error : Except EvalError β) := by
  simp [IsCircular]

instance {α : Type} (outcome : Except EvalError α) : Decidable (IsCircular outcome) :=
  match outcome with
  | .ok a => isFalse (not_isCircular_ok a)
  | .error error =>
    decidable_of_iff (error matches .circularReference _) (by cases error <;> simp [IsCircular])

namespace Bounded

variable {α β : Type} {x y : Bounded α} {f g : α → Bounded β}

@[simp] theorem run_lift (outcome : Except EvalError α) :
    (liftM outcome : Bounded α).run = some outcome := rfl

@[simp] theorem run_pure (a : α) : (pure a : Bounded α).run = some (.ok a) := rfl

@[simp] theorem run_cutOff : (cutOff : Bounded α).run = none := rfl

/-- A sequence of finished computations is finished. -/
theorem liftM_bind (outcome : Except EvalError α) (f : α → Except EvalError β) :
    ((liftM outcome : Bounded α) >>= fun a => liftM (f a)) = liftM (outcome >>= f) := by
  cases outcome <;> rfl

theorem run_bind_of_ok {a : α} (h : x.run = some (.ok a)) : (x >>= f).run = (f a).run := by
  rw [ExceptT.run_bind, h]
  rfl

theorem run_bind_of_error {error : EvalError} (h : x.run = some (.error error)) :
    (x >>= f).run = some (.error error) := by
  rw [ExceptT.run_bind, h]
  rfl

theorem run_bind_eq_some {outcome : Except EvalError β} (h : (x >>= f).run = some outcome) :
    (∃ a, x.run = some (.ok a) ∧ (f a).run = some outcome) ∨
      ∃ error, x.run = some (.error error) ∧ outcome = .error error := by
  rcases hx : x.run with _ | (error | a)
  · rw [ExceptT.run_bind, hx] at h
    exact nomatch h
  · rw [run_bind_of_error hx] at h
    exact .inr ⟨error, rfl, (Option.some.inj h).symm⟩
  · rw [run_bind_of_ok hx] at h
    exact .inl ⟨a, rfl, h⟩

/-- A sequence that has a value has passed one on. -/
theorem run_bind_eq_ok {b : β} (h : (x >>= f).run = some (.ok b)) :
    ∃ a, x.run = some (.ok a) ∧ (f a).run = some (.ok b) := by
  rcases run_bind_eq_some h with hpassed | ⟨_, -, herror⟩
  · exact hpassed
  · cases herror

/-! ### Relations between computations -/

/-- Every outcome of the first computation is the outcome of the second. -/
def Below (x y : Bounded α) : Prop :=
  ∀ outcome, x.run = some outcome → y.run = some outcome

/-- Every outcome of the first computation but a circular reference is the outcome of the second. -/
def BelowUncircular (x y : Bounded α) : Prop :=
  ∀ outcome, x.run = some outcome → ¬ IsCircular outcome → y.run = some outcome

/-- If both computations have outcomes, these are the same and not circular. -/
def Agree (x y : Bounded α) : Prop :=
  ∀ outcome outcome', x.run = some outcome → y.run = some outcome' →
    outcome = outcome' ∧ ¬ IsCircular outcome

/-- The outcome of a computation is not circular. -/
def Uncircular (x : Bounded α) : Prop :=
  ∀ outcome, x.run = some outcome → ¬ IsCircular outcome

/-- Every computation has its own outcomes. -/
theorem Below.refl (x : Bounded α) : Below x x := fun _ h => h

/-- What a computation has above it is above all that is below it. -/
theorem Below.trans {z : Bounded α} (h : Below x y) (h' : Below y z) : Below x z :=
  fun outcome hx => h' outcome (h outcome hx)

/-- Computations that are made of others alike have more outcomes when those have. -/
theorem congruence_below : Congruence fun x y => Below x y := by
  constructor
  · exact fun x _ => Below.refl _
  · intro α β x y f g hx hf outcome h
    rcases run_bind_eq_some h with ⟨a, ha, hfa⟩ | ⟨error, herror, rfl⟩
    · rw [run_bind_of_ok (hx _ ha)]
      exact hf a _ hfa
    · exact run_bind_of_error (hx _ herror)

/-- That holds too when circular references are left out, since an error ends the whole computation
with it. -/
theorem congruence_belowUncircular : Congruence fun x y => BelowUncircular x y := by
  constructor
  · exact fun x _ _ h _ => h
  · intro α β x y f g hx hf outcome h hne
    rcases run_bind_eq_some h with ⟨a, ha, hfa⟩ | ⟨error, herror, rfl⟩
    · rw [run_bind_of_ok (hx _ ha (not_isCircular_ok a))]
      exact hf a _ hfa hne
    · exact run_bind_of_error (hx _ herror (mt isCircular_error_iff.mp hne))

/-- Agreement of the parts gives that of the whole, as the first error in both is the same one. -/
theorem congruence_agree : Congruence fun x y => Agree x y := by
  constructor
  · intro α x hx outcome outcome' h h'
    rw [run_lift] at h h'
    obtain rfl := Option.some.inj h
    obtain rfl := Option.some.inj h'
    exact ⟨rfl, fun ⟨name, hname⟩ => hx name hname⟩
  · intro α β x y f g hx hf outcome outcome' h h'
    rcases run_bind_eq_some h with ⟨a, ha, hfa⟩ | ⟨error, herror, rfl⟩
    · rcases run_bind_eq_some h' with ⟨a', ha', hfa'⟩ | ⟨error', herror', rfl⟩
      · obtain ⟨heq, -⟩ := hx _ _ ha ha'
        obtain rfl := Except.ok.inj heq
        exact hf a _ _ hfa hfa'
      · exact nomatch (hx _ _ ha herror').1
    · rcases run_bind_eq_some h' with ⟨a', ha', hfa'⟩ | ⟨error', herror', rfl⟩
      · exact nomatch (hx _ _ herror ha').1
      · obtain ⟨heq, hne⟩ := hx _ _ herror herror'
        obtain rfl := Except.error.inj heq
        exact ⟨rfl, mt isCircular_error_iff.mp hne⟩

/-- Only its parts can make a computation circular. -/
theorem congruence_uncircular : Congruence fun x _ => Uncircular x := by
  constructor
  · intro α x hx outcome h
    rw [run_lift] at h
    obtain rfl := Option.some.inj h
    exact fun ⟨name, hname⟩ => hx name hname
  · intro α β x y f g hx hf outcome h
    rcases run_bind_eq_some h with ⟨a, ha, hfa⟩ | ⟨error, herror, rfl⟩
    · exact hf a _ hfa
    · exact mt isCircular_error_iff.mp (hx _ herror)

end Bounded

/-- An expression whose outcome is circular has a reference whose outcome is. -/
theorem Expr.exists_circular_reference {ref : Bool → String → Bounded Value} {isArray : Bool}
    {e : Expr} (h : ¬ Bounded.Uncircular (e.evalWith ref isArray)) :
    ∃ isArray, ∃ name ∈ e.referenceNames, ¬ Bounded.Uncircular (ref isArray name) := by
  by_contra hno
  refine h (evalWith_congr (R := fun x _ => Bounded.Uncircular x) (g := ref)
    Bounded.congruence_uncircular isArray e fun isArray name hname => ?_)
  by_contra hcircular
  exact hno ⟨isArray, name, hname, hcircular⟩

/-! ### Texts -/

namespace Value

/-- Unless an array is asked for, a value is rendered as it is for the name of the type. -/
theorem render_of_scalar {type : ValueType} (h : type.isArray = false) (v : Value) :
    v.render type = v.renderAs type.base := by
  unfold render
  exact if_neg (by simp [h])

theorem renderAs_of_target?_eq_none {type : TypeName} (h : type.target? = none) (v : Value) :
    v.renderAs type = v.renderBuiltin type.text := by
  unfold renderAs
  rw [h]

end Value

namespace Registry

variable {r : Registry} {e : Expr} {type : ValueType} {scope : String}

/-- The text of an expression that has a value is the rendering of it. -/
theorem valueText_of_evaluate {v : Value} (h : r.evaluate e type scope = .ok v) :
    r.valueText e type scope = v.render type := by
  rw [valueText, h]
  rfl

/-- A text is that of a value. -/
theorem exists_value_of_valueText {text : String} (h : r.valueText e type scope = .ok text) :
    ∃ v, r.evaluate e type scope = .ok v ∧ v.render type = .ok text := by
  cases hv : r.evaluate e type scope with
  | error error =>
    rw [valueText, hv] at h
    cases h
  | ok v => exact ⟨v, rfl, by rw [← valueText_of_evaluate hv, h]⟩

/-- Only an expression with a text has one that is not empty. -/
theorem valueTextOrEmpty_ne_iff :
    r.valueTextOrEmpty e type scope ≠ "" ↔
      ∃ text, r.valueText e type scope = .ok text ∧ text ≠ "" := by
  rw [valueTextOrEmpty]
  cases r.valueText e type scope with
  | error err => simp
  | ok text => simp

end Registry

end InterfaceDefinition
