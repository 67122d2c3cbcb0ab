import InterfaceDefinition.Proofs.Evaluation.Closed
import InterfaceDefinition.Proofs.Evaluation.WellFormed
import InterfaceDefinition.Proofs.Number.Signs

/-!
# Texts of floating point numbers

A floating point number has two parts that are computed apart: the number itself, and its text,
which begins as the literal and gets a minus in front with every negation. A literal may have one
sign, so the text stays a number, and is read as the one that it is the text of, as long as it
begins with no more than one (`Value.HasSigns`). How many there are can be counted in the
expression: the signs of its literal and the minus operators before it (`Expr.signCount?`).

A second sign is not cancelled. So the text of a closed expression, where a floating point number is
expected, is a number exactly when no more than one sign is counted
(`Registry.valueText_floating`). Beyond that it goes wrong although the number is right: a literal
that is negated twice has its own number as the value, but no number as the text
(`Registry.valueText_negatedTwice`).
-/

namespace InterfaceDefinition

open Bounded Number

/-! ### Signs -/

/-- The number of signs that a floating point number begins with after an operator, if it began with
some before and still is one. -/
def UnaryOp.countSigns (op : UnaryOp) (count : Option Nat) : Option Nat :=
  match op with
  | plus => count
  | minus => count.map (· + 1)
  | bitNot | logicalNot => none

/-- The number of signs before the number, if an expression is a floating point literal behind sign
operators: one for each minus, and those that the literal is written with. -/
def Expr.signCount? : Expr → Option Nat
  | literal _ .floating written => some (signCount written)
  | unary _ op operand => op.countSigns operand.signCount?
  | _ => none

/-- The count is that of the signs that the text of a floating point number begins with, and the
text is read as the number unless there are two. Other values have no count. -/
def Value.HasSigns (count : Option Nat) : Value → Prop
  | floating x text =>
    count = some (signCount text) ∧ (signCount text ≤ 1 → floating? text = some x)
  | _ => count = none

/-! ### Literals and operators -/

section Operators

variable {v w : Value}

/-- A literal of a floating kind has as many signs in its value as are written, and any other value
has none to count. -/
theorem LiteralKind.hasSigns_of_value {kind : LiteralKind} {written : String} (loc : Location)
    (h : kind.value written = .ok v) : v.HasSigns (Expr.literal loc kind written).signCount? := by
  have hsome := value_eq_ok_iff.mp h
  cases kind with
  | boolean =>
    obtain ⟨b, rfl⟩ := exists_boolean_of_value? hsome
    exact rfl
  | character =>
    cases hsome
    exact rfl
  | floating =>
    obtain ⟨x, hx, rfl⟩ := Option.map_eq_some_iff.mp hsome
    exact ⟨rfl, fun _ => hx⟩
  | integral | string =>
    obtain ⟨_, -, rfl⟩ := Option.map_eq_some_iff.mp hsome
    exact rfl

namespace Value

theorem IsComputed.hasSigns (h : v.IsComputed) : v.HasSigns none := by
  cases v with
  | boolean | integral | string => exact rfl
  | _ => exact h.elim

/-- A sign operator adds its sign, and other operators leave no floating point number. -/
theorem HasSigns.of_unary {op : UnaryOp} {count : Option Nat} (hv : v.HasSigns count)
    (h : v.unary op = .ok w) : w.HasSigns (op.countSigns count) := by
  unfold unary at h
  split at h
  · cases h
    exact hv
  · next n =>
    obtain rfl : count = none := hv
    have hcomputed : w.IsComputed := (isSound_ofInt (-n.toInt)).of_eq_ok h
    exact hcomputed.hasSigns
  · cases h
    exact hv
  · next x text =>
    obtain ⟨rfl, hread⟩ := hv
    cases h
    refine ⟨congrArg some (signCount_minus text).symm, fun hone => ?_⟩
    -- the minus is the only sign, so it is what negates the number
    have hzero : signCount text = 0 := by
      rw [signCount_minus] at hone
      omega
    rw [floating?_minus hzero, hread (by omega), Option.map_some]
  · cases h
    exact rfl
  · cases h
    exact rfl
  · cases h
    exact rfl
  · cases h

end Value

end Operators

/-! ### Expressions -/

/-- The signs that are counted in a closed expression are those of its value. -/
theorem Expr.hasSigns_of_evalWith {ref : Bool → String → Bounded Value} {isArray : Bool} :
    (e : Expr) → e.IsClosed → ∀ v, (e.evalWith ref isArray).run = some (.ok v) →
      v.HasSigns e.signCount?
  | literal loc kind written, _, v, h => by
    rw [evalWith, run_lift] at h
    exact LiteralKind.hasSigns_of_value loc (Option.some.inj h)
  | array _ items, _, v, h => by
    rw [evalWith] at h
    obtain ⟨vs, -, hv⟩ := run_bind_eq_ok h
    cases hv
    exact rfl
  | reference .., hclosed, _, _ => nomatch (isClosed_iff.mp hclosed).1
  | unary _ op operand, hclosed, v, h => by
    rw [evalWith] at h
    obtain ⟨w, hw, hv⟩ := run_bind_eq_ok h
    have hoperand : operand.IsClosed := (isClosed_iff.mp hclosed).2 operand (by simp [parts])
    exact (hasSigns_of_evalWith operand hoperand w hw).of_unary (Option.some.inj hv)
  | binary _ op lhs rhs, _, v, h => by
    rw [evalWith] at h
    obtain ⟨l, -, hrest⟩ := run_bind_eq_ok h
    obtain ⟨w, -, hv⟩ := run_bind_eq_ok hrest
    have hcomputed : v.IsComputed := (l.isSound_binary op w).of_eq_ok (Option.some.inj hv)
    exact hcomputed.hasSigns

/-! ### Texts -/

namespace Value

variable {v : Value} {type text : String}

/-- The floating point types have the same two sorts of values. -/
theorem renderBuiltin_of_floating (htype : type = "float" ∨ type = "double") (v : Value) :
    v.renderBuiltin type =
      match v with
      | floating _ text => .ok text
      | integral n => .ok (toString n.toInt)
      | _ => .error (.typeMismatch type v.kind) := by
  rcases htype with rfl | rfl
  · rfl
  · rfl

/-- What can be rendered as a floating type is a floating value, or an integer with its decimal
digits. -/
theorem floating_or_integral_of_renderBuiltin (htype : type = "float" ∨ type = "double")
    (h : v.renderBuiltin type = .ok text) :
    (∃ x, v = .floating x text) ∨ ∃ n : Int64, v = .integral n ∧ text = toString n.toInt := by
  rw [renderBuiltin_of_floating htype] at h
  cases v with
  | floating x written => exact .inl ⟨x, by rw [Except.ok.inj h]⟩
  | integral n => exact .inr ⟨n, rfl, (Except.ok.inj h).symm⟩
  | _ => cases h

end Value

namespace Registry

variable {r : Registry} {e : Expr} {type : ValueType} {scope text : String}

/-- **One sign is kept, a second one is not cancelled.** Where a floating point number is expected,
the text of a closed expression is a number exactly when it is the text of an integer, or no more
than one sign stands before the number, the sign of the literal included. The text of a floating
point number is then read as that number. -/
theorem valueText_floating (hclosed : e.IsClosed) (hscalar : type.isArray = false)
    (hbuiltin : type.base.target? = none)
    (hname : type.base.text = "float" ∨ type.base.text = "double")
    (htext : r.valueText e type scope = .ok text) :
    ((floating? text).isSome = true ↔ ∀ count ∈ e.signCount?, count ≤ 1) ∧
    ∀ x written, r.evaluate e type scope = .ok (.floating x written) →
      written = text ∧ ((floating? text).isSome = true → floating? text = some x) := by
  obtain ⟨v, hv, hrender⟩ := exists_value_of_valueText htext
  have hrun := r.run_evaluateWithin_of_le e type scope (Nat.le_refl _)
  rw [hv, evaluateWithin] at hrun
  have hsigns := e.hasSigns_of_evalWith hclosed v hrun
  rw [Value.render_of_scalar hscalar, Value.renderAs_of_target?_eq_none hbuiltin] at hrender
  rw [hv]
  rcases Value.floating_or_integral_of_renderBuiltin hname hrender with ⟨x, rfl⟩ | ⟨n, rfl, rfl⟩
  · obtain ⟨hcount, hread⟩ := hsigns
    have hnumber : (floating? text).isSome = true ↔ signCount text ≤ 1 :=
      ⟨signCount_le_one_of_floating?, fun h => by rw [hread h]; rfl⟩
    refine ⟨by simp [hnumber, hcount], fun y written heq => ?_⟩
    cases heq
    exact ⟨rfl, fun h => hread (hnumber.mp h)⟩
  · have hcount : e.signCount? = none := hsigns
    exact ⟨iff_of_true (isSome_floating?_toString _) (by simp [hcount]), by simp⟩

/-- A number negated once has a text that is a number; negated twice, it has none. -/
theorem valueText_floating_negated :
    let loc : Location := ⟨"Weights.aidl", none⟩
    let float : ValueType := ⟨.builtin "float", false⟩
    let once := Expr.unary loc .plus (.unary loc .minus (.literal loc .floating "1.5f"))
    let twice := Expr.unary loc .minus once
    (empty.valueText once float "" = .ok "-1.5f" ∧ (floating? "-1.5f").isSome = true) ∧
      empty.valueText twice float "" = .ok "--1.5f" ∧ (floating? "--1.5f").isSome = false := by
  intro loc float once twice
  have honce : empty.valueText once float "" = .ok "-1.5f" :=
    toOption_eq_some_iff.mp (by decide +kernel)
  have htwice : empty.valueText twice float "" = .ok "--1.5f" :=
    toOption_eq_some_iff.mp (by decide +kernel)
  have hclosed : once.IsClosed := Expr.firstReference?_eq_none_iff.mp rfl
  have hclosed' : twice.IsClosed := Expr.firstReference?_eq_none_iff.mp rfl
  refine ⟨⟨honce, (valueText_floating hclosed rfl rfl (.inl rfl) honce).1.mpr (by decide)⟩,
    htwice, Bool.eq_false_iff.mpr fun hsome => ?_⟩
  exact absurd ((valueText_floating hclosed' rfl rfl (.inl rfl) htwice).1.mp hsome) (by decide)

/-- A floating point literal that is negated twice has its own number as the value, and a text that
is no number. -/
theorem valueText_negatedTwice {written : String} {x : Binary64} (h : floating? written = some x)
    (hscalar : type.isArray = false) (hbuiltin : type.base.target? = none)
    (hname : type.base.text = "float" ∨ type.base.text = "double") (r : Registry)
    (loc loc' loc'' : Location) (scope : String) :
    let twice := Expr.unary loc .minus (.unary loc' .minus (.literal loc'' .floating written))
    ∃ text, r.evaluate twice type scope = .ok (.floating x text) ∧
      r.valueText twice type scope = .ok text ∧ floating? text = none := by
  intro twice
  have hliteral : LiteralKind.floating.value written = .ok (.floating x written) :=
    LiteralKind.value_eq_ok_iff.mpr (Option.map_eq_some_iff.mpr ⟨x, h, rfl⟩)
  have houtcome : twice.HasOutcome (.ok (.floating x.neg.neg ("-" ++ ("-" ++ written)))) := by
    intro ref isArray
    rw [Expr.evalWith, Expr.evalWith, Expr.evalWith, liftM_bind, liftM_bind, hliteral]
    rfl
  rw [x.neg_neg] at houtcome
  have hvalue := evaluate_of_hasOutcome houtcome r type scope
  refine ⟨_, hvalue, ?_, ?_⟩
  · rw [valueText_of_evaluate hvalue, Value.render_of_scalar hscalar,
      Value.renderAs_of_target?_eq_none hbuiltin]
    exact Value.renderBuiltin_of_floating hname _
  · refine Option.not_isSome_iff_eq_none.mp fun hsome => ?_
    have hle := signCount_le_one_of_floating? hsome
    rw [signCount_minus, signCount_minus] at hle
    omega

end Registry

end InterfaceDefinition
