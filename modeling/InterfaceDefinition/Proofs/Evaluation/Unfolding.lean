import InterfaceDefinition.Proofs.Evaluation.Outcome

/-!
# Unfolding references

The plain meaning of a reference is the value of the constant it denotes, found in the same way and
without any record of what is under way (`Registry.unfold`). Unfolding may never end, so it is cut
off at a depth; what is found at some depth is found at every greater one (`Registry.unfold_mono`).

A result of evaluation that is not a circular reference is found by unfolding as deep as evaluation
had room (`Registry.belowUncircular_unfold`).
-/

namespace InterfaceDefinition

open Bounded

namespace Registry

/-! ### Unfolding -/

/-- The value of a reference where a type is expected, when it is replaced by the evaluation of the
constant it denotes; at depth zero no constant is entered any more. -/
def unfold (r : Registry) : Nat → String → TypeName → Bool → String → Bounded Value
  | depth, scope, type, isArray, name => do
    match ← (liftM (r.referent scope type isArray name) : Bounded _) with
    | .inl v => return v
    | .inr c =>
      match depth with
      | 0 => cutOff
      | depth + 1 => c.value.evalWith (r.unfold depth c.scope c.type.base) c.type.isArray

/-- The value of an expression where a type is expected, its references unfolded up to a depth. -/
def unfolded (r : Registry) (depth : Nat) (e : Expr) (type : ValueType) (scope : String) :
    Bounded Value :=
  e.evalWith (r.unfold depth scope type.base) type.isArray

section Unfold

variable {r : Registry} {depth : Nat} {scope : String} {type : TypeName} {isArray : Bool}
  {name : String}

/-- At depth zero the unfolding of a constant is cut off. -/
theorem unfold_zero {c : NamedConstant} (h : r.referent scope type isArray name = .ok (.inr c)) :
    r.unfold 0 scope type isArray name = cutOff := by
  rw [unfold, h]
  rfl

/-- Below, it is the unfolding of the expression that the constant stands for, in the scope of the
constant. -/
theorem unfold_succ {c : NamedConstant} (h : r.referent scope type isArray name = .ok (.inr c)) :
    r.unfold (depth + 1) scope type isArray name =
      r.unfolded depth c.value c.type.valueType c.scope := by
  rw [unfold, h]
  rfl

/-- A reference to an enumerator gives it under the name that was written, or fails because there is
none. -/
theorem enumerator_cases (r : Registry) (target : DeclRef) (type : TypeName) (name : String) :
    r.enumerator target type name = .ok (.enumerator name) ∨
      r.enumerator target type name = .error (.notAnEnumerator name type.text) :=
  ite_eq_or_eq ..

/-- What a reference stands for is never found to be circular. -/
theorem referent_ne_circular (written : String) :
    r.referent scope type isArray name ≠ .error (.circularReference written) := by
  rw [referent]
  split
  · next target _ =>
    rcases r.enumerator_cases target type name with h | h
    · simp [h, Except.map]
    · simp [h, Except.map]
  · split
    · simp
    · simp

/-- A reference denotes a constant, or it has an outcome of its own, without room or depth. -/
theorem settled_or_constant (r : Registry) (scope : String) (type : TypeName) (isArray : Bool)
    (name : String) :
    (∃ outcome : Except EvalError Value, ¬ IsCircular outcome ∧
      (∀ depth, r.unfold depth scope type isArray name = liftM outcome) ∧
      ∀ room opened, r.dereference room opened scope type isArray name = liftM outcome) ∨
    ∃ c, r.referent scope type isArray name = .ok (.inr c) := by
  rcases h : r.referent scope type isArray name with error | (v | c)
  · refine .inl ⟨.error error, ?_, fun depth => ?_, fun room opened => ?_⟩
    · rintro ⟨written, hcircular⟩
      exact referent_ne_circular written (h.trans (by rw [Except.error.inj hcircular]))
    · rw [unfold, h]
      rfl
    · exact dereference_of_error h
  · refine .inl ⟨.ok v, not_isCircular_ok v, fun depth => ?_, fun room opened => ?_⟩
    · rw [unfold, h]
      rfl
    · exact dereference_of_value h
  · exact .inr ⟨c, rfl⟩

/-- What is found at a depth is found one deeper. -/
theorem unfold_below_succ (r : Registry) (depth : Nat) (scope : String) (type : TypeName)
    (isArray : Bool) (name : String) :
    Below (r.unfold depth scope type isArray name)
      (r.unfold (depth + 1) scope type isArray name) := by
  induction depth generalizing scope type isArray name with
  | zero =>
    rcases r.settled_or_constant scope type isArray name with ⟨_, -, hunfold, -⟩ | ⟨c, hc⟩
    · rw [hunfold, hunfold]
      exact .refl _
    · rw [unfold_zero hc]
      exact fun _ hnone => nomatch hnone
  | succ depth ih =>
    rcases r.settled_or_constant scope type isArray name with ⟨_, -, hunfold, -⟩ | ⟨c, hc⟩
    · rw [hunfold, hunfold]
      exact .refl _
    · rw [unfold_succ hc, unfold_succ hc]
      exact Expr.evalWith_congr congruence_below _ _ fun isArray name _ => ih _ _ isArray name

/-- What is found at a depth is found at every greater one. -/
theorem unfold_mono (r : Registry) {depth depth' : Nat} (h : depth ≤ depth') (scope : String)
    (type : TypeName) (isArray : Bool) (name : String) :
    Below (r.unfold depth scope type isArray name) (r.unfold depth' scope type isArray name) := by
  induction h with
  | refl => exact .refl _
  | step _ ih => exact ih.trans (r.unfold_below_succ _ scope type isArray name)

/-- Two depths that have outcomes have the same. -/
theorem unfold_unique {depth depth' : Nat} {outcome outcome' : Except EvalError Value}
    (h : (r.unfold depth scope type isArray name).run = some outcome)
    (h' : (r.unfold depth' scope type isArray name).run = some outcome') : outcome = outcome' := by
  rcases Nat.le_total depth depth' with hle | hle
  · exact Option.some.inj ((r.unfold_mono hle _ _ _ _ _ h).symm.trans h')
  · exact Option.some.inj (h.symm.trans (r.unfold_mono hle _ _ _ _ _ h'))

end Unfold

/-! ### More room -/

/-- What is found with some room is found with more. -/
theorem dereference_below_succ (r : Registry) (room : Nat) (opened : List OpenReference)
    (scope : String) (type : TypeName) (isArray : Bool) (name : String) :
    Below (r.dereference room opened scope type isArray name)
      (r.dereference (room + 1) opened scope type isArray name) := by
  induction room generalizing opened scope type isArray name with
  | zero =>
    rcases r.settled_or_constant scope type isArray name with ⟨_, -, -, hdereference⟩ | ⟨c, hc⟩
    · rw [hdereference, hdereference]
      exact .refl _
    · by_cases hopen : (c.scope, name) ∈ opened
      · rw [dereference_of_open hc hopen, dereference_of_open hc hopen]
        exact .refl _
      · rw [dereference_zero hc hopen]
        exact fun _ hnone => nomatch hnone
  | succ room ih =>
    rcases r.settled_or_constant scope type isArray name with ⟨_, -, -, hdereference⟩ | ⟨c, hc⟩
    · rw [hdereference, hdereference]
      exact .refl _
    · by_cases hopen : (c.scope, name) ∈ opened
      · rw [dereference_of_open hc hopen, dereference_of_open hc hopen]
        exact .refl _
      · rw [dereference_succ hc hopen, dereference_succ hc hopen]
        exact Expr.evalWith_congr congruence_below _ _ fun isArray name _ => ih _ _ _ isArray name

/-- Evaluation with room for all open references gives its result whatever the room is. -/
theorem run_evaluateWithin_of_le (r : Registry) (e : Expr) (type : ValueType) (scope : String)
    {room : Nat} (h : r.openBound e ≤ room) :
    (r.evaluateWithin room e type scope).run = some (r.evaluate e type scope) := by
  induction h with
  | refl => exact (Option.some_get _).symm
  | step _ ih =>
    exact Expr.evalWith_congr congruence_below type.isArray e
      (fun isArray name _ => r.dereference_below_succ _ [] scope type.base isArray name) _ ih

/-! ### Evaluation finds what unfolding finds -/

/-- A result that is not circular is found by unfolding as deep as there was room. -/
theorem belowUncircular_unfold (r : Registry) (room : Nat) (opened : List OpenReference)
    (scope : String) (type : TypeName) (isArray : Bool) (name : String) :
    BelowUncircular (r.dereference room opened scope type isArray name)
      (r.unfold room scope type isArray name) := by
  induction room generalizing opened scope type isArray name with
  | zero =>
    rcases r.settled_or_constant scope type isArray name with ⟨_, -, hu, hd⟩ | ⟨c, hc⟩
    · rw [hd, hu]
      exact fun _ h _ => h
    · by_cases hopen : (c.scope, name) ∈ opened
      · rw [dereference_of_open hc hopen]
        exact fun _ h hne => absurd ⟨name, (Option.some.inj h).symm⟩ hne
      · rw [dereference_zero hc hopen]
        exact fun _ hnone => nomatch hnone
  | succ room ih =>
    rcases r.settled_or_constant scope type isArray name with ⟨_, -, hu, hd⟩ | ⟨c, hc⟩
    · rw [hd, hu]
      exact fun _ h _ => h
    · by_cases hopen : (c.scope, name) ∈ opened
      · rw [dereference_of_open hc hopen]
        exact fun _ h hne => absurd ⟨name, (Option.some.inj h).symm⟩ hne
      · rw [dereference_succ hc hopen, unfold_succ hc]
        exact Expr.evalWith_congr congruence_belowUncircular _ _
          fun isArray name _ => ih _ _ _ isArray name

end Registry

end InterfaceDefinition
