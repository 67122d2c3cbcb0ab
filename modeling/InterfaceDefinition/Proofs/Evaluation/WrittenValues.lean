import InterfaceDefinition.Proofs.Evaluation.Closed
import InterfaceDefinition.Proofs.Evaluation.WellFormed
import InterfaceDefinition.Proofs.Number.IntegralLiterals
import InterfaceDefinition.Proofs.Number.Signs
import InterfaceDefinition.Proofs.Number.Words

/-!
# Values as they are written

Whatever a chain of references and operators came to, its value can be written down again
(`Expr.ofValue`): a truth value by its name, an integer as a literal of its decimal text, a string
in quotes, and an array as one of written items. Literals are not escaped and only lose their first
and last quote, so any string can be written. The sign of an integer is part of its literal, and is
read before the number has to be a word; so the least word can be written, too.

What is written for a truth value, an integer, a string or an array of these is well formed, has no
references, and comes to the value wherever it stands (`Value.IsFlat.writes_ofValue`). These are the
values of the integral types, of `boolean` and of `String`, and of arrays of them; an array of
arrays has no text. Their texts are what the written values print (`Value.written_of_render`), and
so rendering them again changes nothing (`Registry.valueText_ofValue`).
-/

namespace InterfaceDefinition

open Bounded Number

namespace Expr

mutual

/-- The expression that a value is written as, all of it at one place. A floating point number, a
character and an enumerator are written with the text that the value keeps. -/
def ofValue (loc : Location) : Value → Expr
  | .boolean b => ofBool loc b
  | .integral n => literal loc .integral (toString n.toInt)
  | .floating _ text => literal loc .floating text
  | .character text => literal loc .character text
  | .string content => literal loc .string (Text.doubleQuoted content)
  | .array items => array loc (ofValues loc items)
  | .enumerator name => reference loc name

/-- The expressions that several values are written as. -/
def ofValues (loc : Location) : List Value → List Expr
  | [] => []
  | v :: rest => ofValue loc v :: ofValues loc rest

end

theorem ofValues_eq_map (loc : Location) (vs : List Value) :
    ofValues loc vs = vs.map (ofValue loc) := by
  induction vs with
  | nil => rw [ofValues]; rfl
  | cons v vs ih => rw [ofValues, ih]; rfl

end Expr

/-! ### Expressions that write a value -/

/-- An expression writes a value: it is well formed, has no references, and comes to the value
wherever it stands. -/
structure Expr.Writes (e : Expr) (v : Value) : Prop where
  isWellFormed : e.isWellFormed = true
  isClosed : e.IsClosed
  hasOutcome : e.HasOutcome (.ok v)

/-- Except for characters, a literal is accepted exactly when it has a value. -/
theorem LiteralKind.accepts_eq_isSome {kind : LiteralKind} (hkind : kind ≠ character)
    (written : String) : kind.accepts written = (kind.value? written).isSome := by
  cases kind with
  | boolean =>
    rw [accepts, value?]
    by_cases htrue : written = "true"
    · simp [htrue]
    · by_cases hfalse : written = "false"
      · simp [hfalse]
      · simp [htrue, hfalse]
  | character => exact absurd rfl hkind
  | floating | integral | string => exact Option.isSome_map.symm

namespace Expr

variable {loc : Location}

/-- A literal writes the value that it has. -/
theorem writes_literal {kind : LiteralKind} {written : String} {v : Value}
    (hkind : kind ≠ .character) (h : kind.value? written = some v) :
    (literal loc kind written).Writes v where
  isWellFormed := by
    rw [Expr.isWellFormed, LiteralKind.accepts_eq_isSome hkind, h]
    rfl
  isClosed := firstReference?_eq_none_iff.mp rfl
  hasOutcome ref isArray := by rw [evalWith, LiteralKind.value_eq_ok_iff.mpr h]

/-- The values of expressions that write them, one after the other. -/
theorem evalAll_of_writes {f : Value → Expr} {vs : List Value} (h : ∀ v ∈ vs, (f v).Writes v)
    (ref : Bool → String → Bounded Value) : evalAll ref (vs.map f) = pure vs := by
  induction vs with
  | nil => rw [List.map_nil, evalAll]
  | cons v vs ih =>
    rw [List.forall_mem_cons] at h
    rw [List.map_cons, evalAll, h.1.hasOutcome, ih h.2]
    rfl

/-- An array writes the values that its items write. -/
theorem writes_array {f : Value → Expr} {vs : List Value} (h : ∀ v ∈ vs, (f v).Writes v) :
    (array loc (vs.map f)).Writes (.array vs) where
  isWellFormed := by
    rw [Expr.isWellFormed, allWellFormed_eq_all, List.all_map, List.all_eq_true]
    exact fun v hv => (h v hv).isWellFormed
  isClosed := by
    refine isClosed_iff.mpr ⟨rfl, fun p hp => ?_⟩
    obtain ⟨v, hv, rfl⟩ := List.mem_map.mp hp
    exact (h v hv).isClosed
  hasOutcome ref isArray := by
    rw [evalWith, evalAll_of_writes h]
    rfl

end Expr

namespace Value

variable {v : Value} {loc : Location}

/-- A truth value, an integer or a string is written as a literal. -/
theorem IsComputed.writes_ofValue (h : v.IsComputed) : (Expr.ofValue loc v).Writes v := by
  cases v with
  | boolean b =>
    rw [Expr.ofValue, Expr.ofBool]
    cases b with
    | false => exact Expr.writes_literal nofun rfl
    | true => exact Expr.writes_literal nofun rfl
  | integral n =>
    -- the word is read back from its decimal text, its sign included
    have hread : integral? (toString n.toInt) = some n := by
      rw [integral?_toString_int, word?_of_fits (fits_toInt n), Int64.ofInt_toInt]
    rw [Expr.ofValue]
    exact Expr.writes_literal nofun (Option.map_eq_some_iff.mpr ⟨n, hread, rfl⟩)
  | string content =>
    have hread := Text.between?_doubleQuoted content
    rw [Expr.ofValue]
    exact Expr.writes_literal nofun (Option.map_eq_some_iff.mpr ⟨content, hread, rfl⟩)
  | _ => exact h.elim

/-- A truth value, an integer or a string, or an array of these. -/
def IsFlat : Value → Prop
  | array items => ∀ item ∈ items, item.IsComputed
  | v => v.IsComputed

/-- What is written for a value is read back as the value. -/
theorem IsFlat.writes_ofValue (h : v.IsFlat) : (Expr.ofValue loc v).Writes v := by
  cases v with
  | array items =>
    rw [Expr.ofValue, Expr.ofValues_eq_map]
    exact Expr.writes_array fun item hitem => (h item hitem).writes_ofValue
  | _ => exact IsComputed.writes_ofValue h

end Value

/-! ### Texts -/

/-- Several computations that have values have these together. -/
theorem mapM_eq_ok_of_forall {α β ε : Type} {f : α → Except ε β} {g : α → β} {as : List α}
    (h : ∀ a ∈ as, f a = .ok (g a)) : as.mapM f = .ok (as.map g) := by
  induction as with
  | nil => rfl
  | cons a as ih =>
    rw [List.forall_mem_cons] at h
    rw [List.mapM_cons, h.1, ih h.2]
    rfl

namespace Value

variable {v : Value} {text : String}

/-- The builtin types of integers, truth values and strings. -/
def writtenTypes : List String :=
  ["byte", "int", "long", "boolean", "String"]

/-- Bounds only decide whether a number is rendered: its text is always the decimal one. -/
theorem text_of_renderWithin {low high : Int} {type : String} {n : Int64}
    (h : renderWithin low high type n = .ok text) : toString n.toInt = text := by
  rw [renderWithin] at h
  split at h
  · exact Except.ok.inj h
  · cases h

/-- A text as one of these types is what the written value prints. -/
theorem written_of_renderBuiltin {type : String} (htype : type ∈ writtenTypes)
    (h : v.renderBuiltin type = .ok text) (loc : Location) :
    v.IsComputed ∧ (Expr.ofValue loc v).text = text := by
  simp only [writtenTypes, List.mem_cons, List.not_mem_nil, or_false] at htype
  rcases htype with rfl | rfl | rfl | rfl | rfl
  · cases v with
    | integral n => exact ⟨trivial, text_of_renderWithin h⟩
    | _ => cases h
  · cases v with
    | integral n => exact ⟨trivial, text_of_renderWithin h⟩
    | _ => cases h
  · cases v with
    | integral n => exact ⟨trivial, Except.ok.inj h⟩
    | _ => cases h
  · cases v with
    | boolean b => exact ⟨trivial, Except.ok.inj h⟩
    | _ => cases h
  · cases v with
    | string content => exact ⟨trivial, Except.ok.inj h⟩
    | _ => cases h

theorem IsComputed.isFlat (h : v.IsComputed) : v.IsFlat := by
  cases v with
  | array => exact h.elim
  | _ => exact h

/-- What has a text as one of these types, or as an array of one, is flat, and the text is what the
written value prints. -/
theorem written_of_render {type : ValueType} (hbuiltin : type.base.target? = none)
    (htype : type.base.text ∈ writtenTypes) (h : v.render type = .ok text) (loc : Location) :
    v.IsFlat ∧ (Expr.ofValue loc v).text = text := by
  cases harray : type.isArray with
  | false =>
    rw [render_of_scalar harray, renderAs_of_target?_eq_none hbuiltin] at h
    obtain ⟨hcomputed, hprinted⟩ := written_of_renderBuiltin htype h loc
    exact ⟨hcomputed.isFlat, hprinted⟩
  | true =>
    obtain ⟨items, rfl, hitems⟩ := Registry.exists_items_of_render harray h
    have hwritten : ∀ item ∈ items, item.IsComputed ∧
        item.renderAs type.base = .ok (Expr.ofValue loc item).text := by
      intro item hitem
      obtain ⟨text, htext⟩ := hitems item hitem
      rw [renderAs_of_target?_eq_none hbuiltin] at htext ⊢
      obtain ⟨hcomputed, rfl⟩ := written_of_renderBuiltin htype htext loc
      exact ⟨hcomputed, htext⟩
    refine ⟨fun item hitem => (hwritten item hitem).1, ?_⟩
    unfold render at h
    rw [if_pos harray] at h
    dsimp only at h
    rw [mapM_eq_ok_of_forall fun item hitem => (hwritten item hitem).2] at h
    rw [Expr.ofValue, Expr.text, Expr.texts_eq_map, Expr.ofValues_eq_map, List.map_map]
    exact Except.ok.inj h

end Value

namespace Registry

variable {r : Registry} {e : Expr} {type : ValueType} {scope text : String} {v : Value}

/-- **Rendering is a fixed point.** Where an integral type, `boolean` or `String` is expected, or an
array of one of these, the value of an expression that has a text is flat, and the text is what the
written value prints. The written value is well formed, has no references, and comes to the same
value and the same text in every registry and scope. -/
theorem valueText_ofValue (hbuiltin : type.base.target? = none)
    (htype : type.base.text ∈ ["byte", "int", "long", "boolean", "String"])
    (hvalue : r.evaluate e type scope = .ok v) (htext : r.valueText e type scope = .ok text)
    (loc : Location) :
    v.IsFlat ∧ (Expr.ofValue loc v).text = text ∧ (Expr.ofValue loc v).Writes v ∧
    ∀ (r' : Registry) (scope' : String),
      r'.evaluate (.ofValue loc v) type scope' = .ok v ∧
        r'.valueText (.ofValue loc v) type scope' = .ok text := by
  rw [valueText_of_evaluate hvalue] at htext
  obtain ⟨hflat, hprinted⟩ := Value.written_of_render hbuiltin htype htext loc
  have hwrites : (Expr.ofValue loc v).Writes v := hflat.writes_ofValue
  refine ⟨hflat, hprinted, hwrites, fun r' scope' => ?_⟩
  have hvalue' := evaluate_of_hasOutcome hwrites.hasOutcome r' type scope'
  exact ⟨hvalue', by rw [valueText_of_evaluate hvalue', htext]⟩

/-- A parcelable with a string that has a quote in it, and with the bounds of `long`. -/
def quotedAndBounds : Document :=
  let loc : Location := ⟨"Quoted.aidl", none⟩
  let constant (name type : String) (isArray : Bool) (value : Expr) : Constant :=
    ⟨loc, { TypeSpec.named loc type with isArray := isArray }, name, value⟩
  let lowest : Expr := .reference loc "LOWEST"
  ⟨[], [⟨⟨loc, "p", "Quoted", "", {}⟩, .structured none { constants := [
    constant "QUOTE" "String" false (.literal loc .string "\"\"\""),
    constant "SAID" "String" false
      (.binary loc .add (.literal loc .string "\"a\"") (.reference loc "Quoted.QUOTE")),
    constant "LOWEST" "long" false (.literal loc .integral "0x8000000000000000L"),
    constant "BOUNDS" "long" true (.array loc [lowest, .unary loc .bitNot lowest])] }⟩]⟩

/-- A string with a quote in it and an array with both bounds of `long` are computed from other
constants. Their values can be written down as printed, without any names, and then have the same
texts in every registry and scope. -/
theorem valueText_ofValue_quotedAndBounds :
    let r := (empty.addDocument quotedAndBounds).value
    let loc : Location := ⟨"Quoted.aidl", none⟩
    let string : ValueType := ⟨.builtin "String", false⟩
    let longs : ValueType := ⟨.builtin "long", true⟩
    let quoted := "\"a\"\""
    let bounds := "\x7b-9223372036854775808, 9223372036854775807\x7d"
    ∃ v w, r.evaluate (.reference loc "SAID") string "p.Quoted" = .ok v ∧
      r.evaluate (.reference loc "BOUNDS") longs "p.Quoted" = .ok w ∧
      (Expr.ofValue loc v).text = quoted ∧ (Expr.ofValue loc w).text = bounds ∧
      ∀ (r' : Registry) (scope' : String),
        r'.valueText (.ofValue loc v) string scope' = .ok quoted ∧
          r'.valueText (.ofValue loc w) longs scope' = .ok bounds := by
  intro r loc string longs quoted bounds
  have hquoted : r.valueText (.reference loc "SAID") string "p.Quoted" = .ok quoted :=
    toOption_eq_some_iff.mp (by decide +kernel)
  have hbounds : r.valueText (.reference loc "BOUNDS") longs "p.Quoted" = .ok bounds :=
    toOption_eq_some_iff.mp (by decide +kernel)
  obtain ⟨v, hv, -⟩ := exists_value_of_valueText hquoted
  obtain ⟨w, hw, -⟩ := exists_value_of_valueText hbounds
  have hwrittenV := valueText_ofValue rfl (by decide) hv hquoted loc
  have hwrittenW := valueText_ofValue rfl (by decide) hw hbounds loc
  exact ⟨v, w, hv, hw, hwrittenV.2.1, hwrittenW.2.1, fun r' scope' =>
    ⟨(hwrittenV.2.2.2 r' scope').2, (hwrittenW.2.2.2 r' scope').2⟩⟩

end Registry

end InterfaceDefinition
