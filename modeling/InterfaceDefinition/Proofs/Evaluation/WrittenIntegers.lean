import InterfaceDefinition.Proofs.Acceptance.Enums
import InterfaceDefinition.Proofs.Evaluation.Filling
import InterfaceDefinition.Proofs.Number.IntegralLiterals
import InterfaceDefinition.Proofs.Number.Words

/-!
# Integers as they are written

An integer is written as a literal of its decimal digits, with the minus operator before it if it is
negative (`Expr.ofInteger`). What is written so evaluates to the integer if the magnitude is a word,
and where one of the integral types is expected the text of the value is the decimal text of the
integer, as long as that is within the bounds of the type (`Registry.valueText_ofInteger_iff`).

The magnitude is read before it is negated. So of all the integers that the three types have, there
is one that cannot be written: the magnitude of the least `long` is no word, while the least `int`
and the least `byte` are written in just that way (`Registry.validate_lowest`).
-/

namespace InterfaceDefinition

open Number

/-- The expression that an integer is written as, at a place for the operator and one for the
literal. -/
def Expr.ofInteger (loc loc' : Location) (v : Int) : Expr :=
  let magnitude := literal loc' .integral (toString v.natAbs)
  if 0 ≤ v then magnitude else unary loc .minus magnitude

/-! ### Values -/

/-- The digits of a natural number are read as it is below 2^63, and not read as a literal from
there on. -/
theorem LiteralKind.value_toString (n : Nat) :
    integral.value (toString n) =
      if n < 2 ^ 63 then .ok (.integral (Int64.ofInt n))
      else .error (.invalidLiteral (toString n)) := by
  rw [value, value?, integral?_toString]
  by_cases h : n < 2 ^ 63
  · rw [if_pos h, word?_of_fits ⟨by omega, by omega⟩, Option.map_some]
  · rw [if_neg h, word?_of_not_fits fun hfits => h (by rw [Fits] at hfits; omega), Option.map_none]

/-- The minus is exact on every word whose negative is one. -/
theorem Value.unary_minus_of_fits {n : Int} (h : Fits n) (hneg : Fits (-n)) :
    (integral (Int64.ofInt n)).unary .minus = .ok (integral (Int64.ofInt (-n))) := by
  rw [unary, ofInt, toInt_ofInt h, word?_of_fits hneg]

/-- The integral types have no values but words. -/
theorem fits_of_integralBounds? {type : String} {low high v : Int}
    (hbounds : integralBounds? type = some (low, high)) (hlow : low ≤ v) (hhigh : v ≤ high) :
    Fits v := by
  rw [Fits]
  unfold integralBounds? at hbounds
  split at hbounds <;> cases hbounds <;> omega

/-- An integer renders as an integral type when it is within its bounds. -/
theorem Value.renderBuiltin_integral {type : String} {low high : Int}
    (hbounds : integralBounds? type = some (low, high)) (n : Int64) :
    (integral n).renderBuiltin type = renderWithin low high type n := by
  unfold integralBounds? at hbounds
  split at hbounds <;> cases hbounds
  · rfl
  · rfl
  · exact (if_pos ⟨n.le_toInt, Int.le_of_lt_add_one n.toInt_lt⟩).symm

namespace Registry

variable (r : Registry) (loc loc' : Location) (v : Int)

/-- What is written for an integer has that value, unless the magnitude cannot be read. -/
theorem evaluate_ofInteger (type : ValueType) (scope : String) :
    r.evaluate (.ofInteger loc loc' v) type scope =
      if v.natAbs < 2 ^ 63 then .ok (.integral (Int64.ofInt v))
      else .error (.invalidLiteral (toString v.natAbs)) := by
  rw [Expr.ofInteger]
  by_cases hsign : 0 ≤ v
  · rw [if_pos hsign, evaluate_literal, LiteralKind.value_toString, Int.natAbs_of_nonneg hsign]
  · rw [if_neg hsign, evaluate_unary, evaluate_literal, LiteralKind.value_toString]
    by_cases h : v.natAbs < 2 ^ 63
    · have hmagnitude : (v.natAbs : Int) = -v := by omega
      rw [if_pos h, if_pos h, hmagnitude]
      have hneg := Value.unary_minus_of_fits (n := -v) ⟨by omega, by omega⟩ ⟨by omega, by omega⟩
      rwa [neg_neg] at hneg
    · rw [if_neg h, if_neg h]
      rfl

variable {type : ValueType} {low high : Int}

/-- The text of what is written for an integer, as an integral type. -/
theorem valueText_ofInteger (hscalar : type.isArray = false) (hbuiltin : type.base.target? = none)
    (hbounds : integralBounds? type.base.text = some (low, high)) (scope : String) :
    r.valueText (.ofInteger loc loc' v) type scope =
      if v.natAbs < 2 ^ 63 then Value.renderWithin low high type.base.text (Int64.ofInt v)
      else .error (.invalidLiteral (toString v.natAbs)) := by
  rw [valueText, evaluate_ofInteger]
  split
  · rw [← Value.renderBuiltin_integral hbounds]
    simp [bind, Except.bind, Value.render, Value.renderAs, hscalar, hbuiltin]
  · rfl

/-- **Integers can be written, all but one.** Where an integral type is expected, what is written
for an integer has a text exactly when the integer is within the bounds of the type and is not the
least word, and the text is then the decimal text of the integer. For the least word it is the
magnitude that cannot be read. -/
theorem valueText_ofInteger_iff (hscalar : type.isArray = false)
    (hbuiltin : type.base.target? = none)
    (hbounds : integralBounds? type.base.text = some (low, high)) (scope : String) :
    (∀ text, r.valueText (.ofInteger loc loc' v) type scope = .ok text ↔
      (low ≤ v ∧ v ≤ high) ∧ v ≠ -2 ^ 63 ∧ text = toString v) ∧
    r.valueText (.ofInteger loc loc' (-2 ^ 63)) type scope =
      .error (.invalidLiteral "9223372036854775808") := by
  have htext := fun v => r.valueText_ofInteger loc loc' v hscalar hbuiltin hbounds scope
  refine ⟨fun text => ?_, htext _⟩
  rw [htext]
  by_cases hmagnitude : v.natAbs < 2 ^ 63
  · have hword : (Int64.ofInt v).toInt = v := toInt_ofInt ⟨by omega, by omega⟩
    have hne : v ≠ -2 ^ 63 := by omega
    rw [if_pos hmagnitude, Value.renderWithin, hword]
    by_cases hwithin : low ≤ v ∧ v ≤ high
    · rw [if_pos hwithin]
      exact ⟨fun h => ⟨hwithin, hne, (Except.ok.inj h).symm⟩, fun h => by rw [h.2.2]⟩
    · rw [if_neg hwithin]
      exact iff_of_false (by simp) fun h => hwithin h.1
  · rw [if_neg hmagnitude]
    refine iff_of_false (by simp) fun h => hmagnitude ?_
    have hfits := fits_of_integralBounds? hbounds h.1.1 h.1.2
    rw [Fits] at hfits
    omega

/-- A parcelable with one constant, of an integral type. -/
def lowestOf (type : String) (lowest : Int) : Document :=
  let loc : Location := ⟨"Limits.aidl", none⟩
  let constant : Constant := ⟨loc, .named loc type, "LOWEST", .ofInteger loc loc lowest⟩
  ⟨[], [⟨⟨loc, "p", "Limits", "", {}⟩, .structured none { constants := [constant] }⟩]⟩

/-- The verdict on such a parcelable, and what is reported. -/
def verdictOn (type : String) (lowest : Int) : Option (Bool × List String) :=
  ((empty.addDocument (lowestOf type lowest)).value.validate 0 {}).2.toOption.map fun report =>
    (report.valid, report.diagnostics.map (·.message))

/-- The bounds are sharp at the lower end of `byte`, where it is a minus in front of a literal that
is to be in range: -128 has a text, and -129 has none. -/
theorem valueText_ofInteger_lowestByte :
    let loc : Location := ⟨"Limits.aidl", none⟩
    let byte := (TypeSpec.builtin loc "byte").valueType
    empty.valueText (.ofInteger loc loc (-128)) byte "p.Limits" = .ok "-128" ∧
      ∀ text, empty.valueText (.ofInteger loc loc (-129)) byte "p.Limits" ≠ .ok text := by
  intro loc byte
  have hbounds : integralBounds? byte.base.text = some (-128, 127) := rfl
  have hwritten := fun v =>
    empty.valueText_ofInteger_iff loc loc v (show byte.isArray = false from rfl) rfl hbounds
      "p.Limits"
  exact ⟨((hwritten (-128)).1 _).mpr ⟨by decide, by decide, rfl⟩,
    fun text h => absurd (((hwritten (-129)).1 text).mp h).1.1 (by decide)⟩

/-- The least `byte` and the least `int` can be constants, the least `long` cannot. -/
theorem validate_lowest :
    verdictOn "byte" (-2 ^ 7) = some (true, []) ∧ verdictOn "int" (-2 ^ 31) = some (true, []) ∧
      verdictOn "long" (-2 ^ 63 + 1) = some (true, []) ∧
      verdictOn "long" (-2 ^ 63) = some (false,
        ["Invalid constant value '-9223372036854775808' for 'LOWEST'."]) := by
  decide +kernel

end Registry

end InterfaceDefinition
