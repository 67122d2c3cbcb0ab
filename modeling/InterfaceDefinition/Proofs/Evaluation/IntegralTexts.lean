import InterfaceDefinition.Expr.WellFormed
import InterfaceDefinition.Proofs.Evaluation.EnumValues
import InterfaceDefinition.Proofs.Evaluation.Filling
import InterfaceDefinition.Proofs.Number.IntegralLiterals

/-!
# Texts of integral literals

An expression keeps the text of an integral literal as it was written, whatever that is. The
structural check and evaluation both read it as a number, so they accept the same texts: the
spellings of the literals of `Number.IntegralLiteral` that stand for a word, and no others
(`Registry.integral_accepted_iff`).

One of the spellings of a hexadecimal literal is not its text: a plus behind the prefix is accepted,
although no literal is written so (`Registry.integral_accepted_plusFive`). A text that has no plus
behind its first character is accepted only if it is the text of a literal.
-/

namespace InterfaceDefinition

open Number

/-! ### What is accepted -/

section Accepted

variable {text : String}

/-- The structural check accepts the spellings of the literals that stand for a word. -/
theorem LiteralKind.accepts_integral_iff : integral.accepts text = true ↔
    ∃ lit : IntegralLiteral, text ∈ lit.spellings ∧ lit.value?.isSome = true := by
  rw [accepts, Option.isSome_iff_exists]
  constructor
  · rintro ⟨w, hw⟩
    obtain ⟨lit, hlit, hvalue⟩ := IntegralLiteral.integral?_eq_some_iff.mp hw
    exact ⟨lit, hlit, Option.isSome_of_eq_some hvalue⟩
  · rintro ⟨lit, hlit, hvalue⟩
    rw [← IntegralLiteral.toInt_integral?_of_mem_spellings hlit, Option.isSome_map] at hvalue
    exact Option.isSome_iff_exists.mp hvalue

/-- Of these, the texts without a plus behind the first character are the texts of literals. -/
theorem LiteralKind.accepts_integral_of_plus_not_mem_iff :
    integral.accepts text = true ∧ '+' ∉ text.toList.tail ↔
      ∃ lit : IntegralLiteral, text = lit.text ∧ lit.value?.isSome = true := by
  rw [accepts_integral_iff]
  constructor
  · rintro ⟨⟨lit, hlit, hvalue⟩, hplus⟩
    exact ⟨lit, IntegralLiteral.eq_text_of_mem_spellings hlit hplus, hvalue⟩
  · rintro ⟨lit, rfl, hvalue⟩
    exact ⟨⟨lit, lit.text_mem_spellings, hvalue⟩, lit.plus_not_mem_tail⟩

/-- The value of an integral literal is the word that the literal of its spelling stands for. -/
theorem LiteralKind.value_integral_eq_ok_iff {v : Value} : integral.value text = .ok v ↔
    ∃ lit : IntegralLiteral, ∃ w : Int64, text ∈ lit.spellings ∧ lit.value? = some w.toInt ∧
      v = .integral w := by
  rw [value_eq_ok_iff, value?, Option.map_eq_some_iff]
  constructor
  · rintro ⟨w, hw, rfl⟩
    obtain ⟨lit, hlit, hvalue⟩ := IntegralLiteral.integral?_eq_some_iff.mp hw
    exact ⟨lit, w, hlit, hvalue, rfl⟩
  · rintro ⟨lit, w, hlit, hvalue, rfl⟩
    exact ⟨w, IntegralLiteral.integral?_eq_some_iff.mpr ⟨lit, hlit, hvalue⟩, rfl⟩

end Accepted

/-! ### Literals in expressions -/

namespace Registry

/-- **Nothing else is an integral literal.** A text is read as a word exactly when it is a spelling
of a literal that stands for it. So these are the texts of the integral literals that are well
formed, and of those that have a value, which is that word; and where no plus stands behind the
first character they are the texts of literals themselves. -/
theorem integral_accepted_iff (r : Registry) (loc : Location) (text : String) (type : ValueType)
    (scope : String) :
    (∀ w, integral? text = some w ↔
      ∃ lit : IntegralLiteral, text ∈ lit.spellings ∧ lit.value? = some w.toInt) ∧
    ((Expr.literal loc .integral text).isWellFormed = true ↔
      ∃ lit : IntegralLiteral, text ∈ lit.spellings ∧ lit.value?.isSome = true) ∧
    ((Expr.literal loc .integral text).isWellFormed = true ∧ '+' ∉ text.toList.tail ↔
      ∃ lit : IntegralLiteral, text = lit.text ∧ lit.value?.isSome = true) ∧
    ∀ v, r.evaluate (.literal loc .integral text) type scope = .ok v ↔
      ∃ lit : IntegralLiteral, ∃ w : Int64, text ∈ lit.spellings ∧ lit.value? = some w.toInt ∧
        v = .integral w := by
  rw [Expr.isWellFormed, evaluate_literal]
  exact ⟨fun _ => IntegralLiteral.integral?_eq_some_iff, LiteralKind.accepts_integral_iff,
    LiteralKind.accepts_integral_of_plus_not_mem_iff, fun _ => LiteralKind.value_integral_eq_ok_iff⟩

/-- A plus behind the prefix is accepted and ignored, although no literal is written with it. -/
theorem integral_accepted_plusFive (r : Registry) (loc : Location) (type : ValueType)
    (scope : String) :
    (∀ lit : IntegralLiteral, lit.text ≠ "0x+5") ∧
      (Expr.literal loc .integral "0x+5").isWellFormed = true ∧
      r.evaluate (.literal loc .integral "0x+5") type scope = .ok (.integral 5) := by
  have hread : integral? "0x+5" = some 5 := by decide
  refine ⟨fun lit hlit => ?_, ?_, ?_⟩
  · exact absurd (hlit ▸ lit.plus_not_mem_tail) (by decide)
  · rw [Expr.isWellFormed, LiteralKind.accepts, hread]
    rfl
  · rw [evaluate_literal, LiteralKind.value, LiteralKind.value?, hread]
    rfl

end Registry

end InterfaceDefinition
