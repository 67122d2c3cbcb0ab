import InterfaceDefinition.Proofs.Acceptance.Enumerators
import InterfaceDefinition.Proofs.Source.Lines

/-!
# Values in source text

Checks and sources render values apart from each other: a check keeps the cause when a value has no
text, a source writes nothing in its place. After a positive validation they agree
(`Registry.validate_source`): in the source of each declaration of the document every value stands
as the text that its check rendered and accepted, and no such text is empty.
-/

namespace InterfaceDefinition

open Fallible

variable {r : Registry}

/-- A value is rendered as a text that is not empty. -/
structure Registry.RendersAs (r : Registry) (scope : String) (type : TypeSpec) (value : Expr)
    (text : String) : Prop where
  valueText : r.valueText value type.valueType scope = .ok text
  nonempty : text ≠ ""

/-- The text of an accepted value is what a source shows of it. -/
theorem Registry.Accepts.rendersAs {d : Decl} {type : TypeSpec} {value : Expr}
    (h : r.Accepts d.canonicalName type value) :
    r.RendersAs d.canonicalName type value (d.renderedText r type value) := by
  obtain ⟨-, text, htext, hne⟩ := h
  have hrendered : d.renderedText r type value = text := by
    rw [Decl.renderedText, valueTextOrEmpty, htext]
  rw [hrendered]
  exact ⟨htext, hne⟩

theorem Registry.Accepts.checkValue {scope name : String} {type : TypeSpec} {value : Expr}
    (h : r.Accepts scope type value) : (r.checkValue scope name type value).value = true := by
  rw [Registry.checkValue, valueFault?_eq_none_iff.mpr h]
  rfl

namespace Registry

/-- **Sources show what was validated**: in the registry that a positive validation leaves, the
source of each declaration of the document is its lines with a text for every value. For the default
of a field, for a constant and for an enumerator, that text is what the value renders as where the
general check evaluates it, the check accepts the value, and the text is not empty. -/
theorem validate_source {number : Nat} {options : Options} {report : ValidationReport}
    (h : (r.validate number options).2 = .ok report) (hvalid : report.valid = true) :
    let after := (r.validate number options).1
    ∃ doc, after.document? number = some doc ∧
      ∀ d ∈ doc.decls, ∃ text : TypeSpec → Expr → String,
        d.source after = String.join ((d.sourceLines text).map (· ++ "\n")) ∧
        (∀ f ∈ d.fields, ∀ value, f.default? = some value →
          (after.checkValue d.canonicalName f.name f.type value).value = true ∧
            after.RendersAs d.canonicalName f.type value (text f.type value)) ∧
        (∀ c ∈ d.constants,
          (after.checkValue d.canonicalName c.name c.type c.value).value = true ∧
            after.RendersAs d.canonicalName c.type c.value (text c.type c.value)) ∧
        ∀ enumerators, d.enumerators? = some enumerators → ∃ backing, d.backing? = some backing ∧
          ∀ x ∈ enumerators, x.1.fault? after d.canonicalName backing x.2 = none ∧
            after.RendersAs d.canonicalName backing x.2 (text backing x.2) := by
  intro after
  obtain ⟨doc, hdoc, hpasses⟩ := passes_of_valid h hvalid
  refine ⟨doc, hdoc, fun d hd => ⟨d.renderedText after, d.source_eq after, ?_, ?_, ?_⟩⟩
  all_goals have hdecl : (d.check after).passes = true := passes_checkEach_iff.mp hpasses d hd
  · intro f hf value hdefault
    have haccepts := ((Decl.isValid_of_passes hdecl).1 f hf).value value hdefault
    exact ⟨haccepts.checkValue, haccepts.rendersAs⟩
  · intro c hc
    have haccepts := ((Decl.isValid_of_passes hdecl).2 c hc).value
    exact ⟨haccepts.checkValue, haccepts.rendersAs⟩
  · intro enumerators henumerators
    obtain ⟨enumerators', heq, hrules⟩ :=
      Decl.enumRules_of_passes (Decl.kind_of_enumerators? henumerators) hdecl
    obtain rfl : enumerators = enumerators' := Option.some.inj (henumerators.symm.trans heq)
    obtain ⟨backing, hbacking, haccepts⟩ := hrules.values
    exact ⟨backing, hbacking, fun x hx =>
      ⟨Enumerator.fault?_eq_none_iff.mpr (haccepts x hx), (haccepts x hx).rendersAs⟩⟩

/-- A parcelable with a default that counts on from its constant, and an enum. -/
def meterAndLevels : Document :=
  let loc : Location := ⟨"Meter.aidl", none⟩
  let header (name : String) : Header := ⟨loc, "p", name, "", {}⟩
  let next : Expr := .binary loc .add (.reference loc "MAX") (.literal loc .integral "1")
  let size : Field := ⟨loc, .named loc "int", "size", some next⟩
  let max : Constant := ⟨loc, .named loc "int", "MAX", .literal loc .integral "7"⟩
  ⟨[], [⟨header "Meter", .structured none { fields := [size], constants := [max] }⟩,
    ⟨header "Level", .enum [⟨loc, "LOW", none, ""⟩, ⟨loc, "HIGH", none, ""⟩] none {}⟩]⟩

/-- The default that counts on from the constant is rendered as 8, and the enumerators as the
numbers that completion has filled in. -/
theorem validate_source_meterAndLevels :
    let validated := (empty.addDocument meterAndLevels).value.validate 0 {}
    ∃ report doc, validated.2 = .ok report ∧ report.valid = true ∧
      validated.1.document? 0 = some doc ∧
      doc.decls.map (·.source validated.1) =
        ["parcelable Meter \x7b\n  int size = 8;\n  const int MAX = 7;\n\x7d\n",
          "enum Level \x7b\n  LOW = 0,\n  HIGH = 1,\n\x7d\n"] ∧
      ∀ d ∈ doc.decls, ∀ f ∈ d.fields, ∀ value, f.default? = some value →
        ∃ text, validated.1.RendersAs d.canonicalName f.type value text := by
  intro validated
  have haccepted : validated.2.toOption.map (·.valid) = some true := by decide +kernel
  have hsource : (validated.1.document? 0).map (fun doc => doc.decls.map (·.source validated.1)) =
      some ["parcelable Meter \x7b\n  int size = 8;\n  const int MAX = 7;\n\x7d\n",
        "enum Level \x7b\n  LOW = 0,\n  HIGH = 1,\n\x7d\n"] := by decide +kernel
  obtain ⟨report, hreport, hvalid⟩ := Option.map_eq_some_iff.mp haccepted
  have hreport : validated.2 = .ok report := toOption_eq_some_iff.mp hreport
  obtain ⟨doc, hdoc, hall⟩ := validate_source hreport hvalid
  have hdoc : validated.1.document? 0 = some doc := hdoc
  rw [hdoc] at hsource
  refine ⟨report, doc, hreport, hvalid, hdoc, Option.some.inj hsource, ?_⟩
  intro d hd f hf value hdefault
  obtain ⟨text, -, hfields, -⟩ := hall d hd
  exact ⟨_, (hfields f hf value hdefault).2⟩

end Registry

end InterfaceDefinition
