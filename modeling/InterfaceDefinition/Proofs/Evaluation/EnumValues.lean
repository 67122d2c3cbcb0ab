import InterfaceDefinition.Proofs.Evaluation.Unfolding

/-!
# Values of enum types

Only references evaluate to enumerators, and where an enum is expected they are looked for in that
enum alone. So a value of an enum type is a reference to one of its enumerators
(`Registry.NamesEnumerator`), and an array of such a type can be written as an array of references
(`Registry.SpellsEnumerators`). A reference in place of the whole array is another matter: it is
looked up as a constant, which may be anything. But evaluation gives an array only where it comes to
an array that is written out, so some constant in the registry is one then
(`Registry.spellsEnumerators_or_array`).
-/

namespace InterfaceDefinition

open Bounded

/-! ### Values of literals and operators -/

/-- A value that is neither an array nor an enumerator. -/
def Value.IsScalar : Value → Prop
  | array _ | enumerator _ => False
  | _ => True

section IsScalar

variable {v w : Value}

namespace LiteralKind

variable {kind : LiteralKind} {text : String}

theorem value_eq_ok_iff : kind.value text = .ok v ↔ kind.value? text = some v := by
  rw [value]
  cases kind.value? text with
  | none => simp
  | some w => simp

theorem exists_boolean_of_value? (h : boolean.value? text = some v) : ∃ b, v = .boolean b := by
  unfold value? at h
  dsimp only at h
  split at h
  · exact ⟨true, (Option.some.inj h).symm⟩
  · split at h
    · exact ⟨false, (Option.some.inj h).symm⟩
    · cases h

/-- No literal has an array or an enumerator as its value. -/
theorem isScalar_of_value (h : kind.value text = .ok v) : v.IsScalar := by
  have hsome := value_eq_ok_iff.mp h
  cases kind with
  | boolean =>
    obtain ⟨b, rfl⟩ := exists_boolean_of_value? hsome
    trivial
  | character =>
    cases hsome
    trivial
  | integral | floating | string =>
    obtain ⟨_, -, rfl⟩ := Option.map_eq_some_iff.mp hsome
    trivial

end LiteralKind

namespace Value

theorem isScalar_of_ofInt {n : Int} (h : ofInt n = .ok w) : w.IsScalar := by
  rw [ofInt] at h
  split at h
  · cases h
    trivial
  · cases h

/-- Operators give scalars, so that an enumerator is never the value of anything but a reference. -/
theorem isScalar_of_unary {op : UnaryOp} (h : v.unary op = .ok w) : w.IsScalar := by
  unfold unary at h
  split at h
  all_goals first | exact isScalar_of_ofInt h | (cases h; trivial) | cases h

theorem isScalar_of_binary {op : BinaryOp} {l : Value} (h : l.binary op v = .ok w) :
    w.IsScalar := by
  unfold binary at h
  split at h
  · unfold integerOp divided shifted at h
    repeat' split at h
    all_goals first | exact isScalar_of_ofInt h | (cases h; trivial) | cases h
  · unfold booleanOp at h
    split at h
    all_goals first | (cases h; trivial) | cases h
  · unfold stringOp at h
    split at h
    all_goals first | (cases h; trivial) | cases h
  · cases h

end Value

end IsScalar

/-! ### Expressions -/

namespace Expr

/-- Whether an expression is an array that is written out. -/
def isArray : Expr → Bool
  | array .. => true
  | _ => false

variable {ref : Bool → String → Bounded Value} {isArray : Bool} {e : Expr} {v : Value}

/-- Beside literals and operators a value comes from an array that is written out, or from a
reference. -/
theorem evalWith_cases (h : (e.evalWith ref isArray).run = some (.ok v)) :
    v.IsScalar ∨
      (∃ loc items vs, e = array loc items ∧ v = .array vs ∧
        (evalAll ref items).run = some (.ok vs)) ∨
      ∃ loc name, e = reference loc name ∧ (ref isArray name).run = some (.ok v) := by
  cases e with
  | literal loc kind written =>
    rw [evalWith, run_lift] at h
    exact .inl (LiteralKind.isScalar_of_value (Option.some.inj h))
  | array loc items =>
    rw [evalWith] at h
    obtain ⟨vs, hvs, hv⟩ := run_bind_eq_ok h
    cases hv
    exact .inr (.inl ⟨loc, items, vs, rfl, rfl, hvs⟩)
  | reference loc name =>
    rw [evalWith] at h
    exact .inr (.inr ⟨loc, name, rfl, h⟩)
  | unary loc op operand =>
    rw [evalWith] at h
    obtain ⟨w, -, hw⟩ := run_bind_eq_ok h
    exact .inl (Value.isScalar_of_unary (Option.some.inj hw))
  | binary loc op lhs rhs =>
    rw [evalWith] at h
    obtain ⟨l, -, hrest⟩ := run_bind_eq_ok h
    obtain ⟨w, -, hw⟩ := run_bind_eq_ok hrest
    exact .inl (Value.isScalar_of_binary (Option.some.inj hw))

/-- The items of an array that has a value have the values in it. -/
theorem exists_value_of_evalAll {items : List Expr} {vs : List Value}
    (h : (evalAll ref items).run = some (.ok vs)) :
    ∀ item ∈ items, ∃ v ∈ vs, (item.evalWith ref false).run = some (.ok v) := by
  induction items generalizing vs with
  | nil => simp
  | cons item items ih =>
    rw [evalAll] at h
    obtain ⟨v, hv, hrest⟩ := run_bind_eq_ok h
    obtain ⟨rest, hvs, heq⟩ := run_bind_eq_ok hrest
    cases heq
    refine List.forall_mem_cons.mpr ⟨⟨v, List.mem_cons_self, hv⟩, fun item hitem => ?_⟩
    obtain ⟨w, hw, hvalue⟩ := ih hvs item hitem
    exact ⟨w, List.mem_cons_of_mem _ hw, hvalue⟩

/-- An array of items that have values is the array of these. -/
theorem run_evalAll_of_forall {items : List Expr} {f : Expr → Value}
    (h : ∀ item ∈ items, (item.evalWith ref false).run = some (.ok (f item))) :
    (evalAll ref items).run = some (.ok (items.map f)) := by
  induction items with
  | nil =>
    rw [evalAll]
    rfl
  | cons item items ih =>
    rw [List.forall_mem_cons] at h
    rw [evalAll, run_bind_of_ok h.1, run_bind_of_ok (ih h.2)]
    rfl

end Expr

/-! ### References -/

namespace Registry

variable {r : Registry} {type : TypeName} {scope text : String}

/-- Where an enum is expected a reference stands for one of its enumerators. -/
theorem dereference_enumerator {target : DeclRef} (htarget : type.target? = some target)
    (hkind : target.kind = .enum) (room : Nat) (opened : List OpenReference) (scope name : String) :
    r.dereference room opened scope type false name = liftM (r.enumerator target type name) := by
  have hreferent : r.referent scope type false name = (r.enumerator target type name).map .inl := by
    rw [referent, if_neg Bool.false_ne_true, htarget, Option.filter_some, if_pos (by simp [hkind])]
  cases h : r.enumerator target type name with
  | error error =>
    rw [h] at hreferent
    exact dereference_of_error hreferent
  | ok v =>
    rw [h] at hreferent
    exact dereference_of_value hreferent

/-- What a reference stands for without a look-up is an enumerator. -/
theorem eq_enumerator_of_referent {isArray : Bool} {name : String} {v : Value}
    (h : r.referent scope type isArray name = .ok (.inl v)) : v = .enumerator name := by
  rw [referent] at h
  split at h
  · next target _ =>
    rcases r.enumerator_cases target type name with heq | heq
    · rw [heq] at h
      cases h
      rfl
    · rw [heq] at h
      cases h
  · split at h
    · cases h
    · cases h

/-- A reference has an array as its value only if some constant of the registry is written as
one. -/
theorem exists_array_of_dereference {room : Nat} {opened : List OpenReference} {isArray : Bool}
    {name : String} {vs : List Value}
    (h : (r.dereference room opened scope type isArray name).run = some (.ok (.array vs))) :
    ∃ e ∈ r.exprs, e.isArray = true := by
  induction room generalizing opened scope type isArray name with
  | zero =>
    rcases href : r.referent scope type isArray name with error | (v | c)
    · rw [dereference_of_error href] at h
      cases h
    · rw [dereference_of_value href, eq_enumerator_of_referent href] at h
      cases h
    · by_cases hopen : (c.scope, name) ∈ opened
      · rw [dereference_of_open href hopen] at h
        cases h
      · rw [dereference_zero href hopen] at h
        cases h
  | succ room ih =>
    rcases href : r.referent scope type isArray name with error | (v | c)
    · rw [dereference_of_error href] at h
      cases h
    · rw [dereference_of_value href, eq_enumerator_of_referent href] at h
      cases h
    · by_cases hopen : (c.scope, name) ∈ opened
      · rw [dereference_of_open href hopen] at h
        cases h
      · rw [dereference_succ href hopen] at h
        -- the constant is written as an array, or it refers to another one
        rcases Expr.evalWith_cases h with hscalar | ⟨loc, items, _, heq, -, -⟩ | ⟨_, _, -, hnext⟩
        · exact hscalar.elim
        · exact ⟨c.value, mem_exprs_of_constant? (constant?_of_referent href), by rw [heq]; rfl⟩
        · exact ih hnext

/-! ### Enumerators -/

/-- A reference to an enumerator of the enum that a name stands for. -/
structure NamesEnumerator (r : Registry) (type : TypeName) (e : Expr) : Prop where
  isReference : e.isReference = true
  denotes : ∃ target, type.target? = some target ∧ target.kind = .enum ∧
    r.enumerator target type e.text = .ok (.enumerator e.text)

/-- The target of the name of an enum. -/
theorem exists_target_of_isEnum (h : type.isEnum = true) :
    ∃ target, type.target? = some target ∧ target.kind = .enum := by
  simpa [TypeName.isEnum, TypeName.isKind, Option.any_eq_true] using h

theorem NamesEnumerator.isEnum {e : Expr} (h : r.NamesEnumerator type e) : type.isEnum = true := by
  obtain ⟨target, htarget, hkind, -⟩ := h.denotes
  simp [TypeName.isEnum, TypeName.isKind, htarget, hkind]

/-- A value of an enum type, or an array of such values, as it can be written. -/
def SpellsEnumerators (r : Registry) (type : ValueType) (e : Expr) : Prop :=
  if type.isArray then
    ∃ loc items, e = .array loc items ∧ ∀ item ∈ items, r.NamesEnumerator type.base item
  else r.NamesEnumerator type.base e

section Evaluation

variable {room : Nat} {e : Expr}

/-- Such a reference is evaluated to the enumerator without opening any constant. -/
theorem NamesEnumerator.run_evalWith (h : r.NamesEnumerator type e) (scope : String) :
    (e.evalWith (r.dereference room [] scope type) false).run =
      some (.ok (.enumerator e.text)) := by
  obtain ⟨target, htarget, hkind, henumerator⟩ := h.denotes
  cases e with
  | reference loc name =>
    rw [Expr.evalWith, dereference_enumerator htarget hkind]
    rw [Expr.text] at henumerator ⊢
    rw [henumerator, run_lift]
  | _ => cases h.isReference

/-- Where an enum is expected an enumerator is one of it, and was referred to. -/
theorem namesEnumerator_of_run (henum : type.isEnum = true) {name : String}
    (h : (e.evalWith (r.dereference room [] scope type) false).run =
      some (.ok (.enumerator name))) : r.NamesEnumerator type e := by
  rcases Expr.evalWith_cases h with hscalar | ⟨_, _, _, -, heq, -⟩ | ⟨loc, written, rfl, href⟩
  · exact hscalar.elim
  · cases heq
  · obtain ⟨target, htarget, hkind⟩ := exists_target_of_isEnum henum
    rw [dereference_enumerator htarget hkind, run_lift] at href
    refine ⟨rfl, target, htarget, hkind, ?_⟩
    rw [Expr.text]
    rcases r.enumerator_cases target type written with heq | heq
    · exact heq
    · rw [heq] at href
      cases href

end Evaluation

/-! ### Texts -/

/-- An enumerator is rendered under the name of the enum that the type stands for, whatever scope it
was named from. -/
theorem renderAs_enumerator (henum : type.isEnum = true) (name : String) :
    (Value.enumerator name).renderAs type =
      .ok (type.text ++ "." ++ Dotted.lastSegment name) := by
  obtain ⟨target, htarget, hkind⟩ := exists_target_of_isEnum henum
  rw [Value.renderAs, htarget]
  exact if_pos hkind

/-- Of an enum only enumerators are values. -/
theorem exists_enumerator_of_renderAs (henum : type.isEnum = true) {v : Value}
    (h : v.renderAs type = .ok text) : ∃ name, v = .enumerator name := by
  obtain ⟨target, htarget, hkind⟩ := exists_target_of_isEnum henum
  unfold Value.renderAs at h
  rw [htarget] at h
  dsimp only at h
  rw [if_pos hkind] at h
  cases v with
  | enumerator name => exact ⟨name, rfl⟩
  | _ => cases h

/-- When several values have texts, each has. -/
theorem exists_renderAs_of_mapM {vs : List Value} {texts : List String}
    (h : vs.mapM (Value.renderAs type) = .ok texts) :
    ∀ v ∈ vs, ∃ text, v.renderAs type = .ok text := by
  induction vs generalizing texts with
  | nil => simp
  | cons v vs ih =>
    rw [List.mapM_cons] at h
    cases hfirst : v.renderAs type with
    | error error =>
      rw [hfirst] at h
      cases h
    | ok first =>
      cases hrest : vs.mapM (Value.renderAs type) with
      | error error =>
        rw [hfirst, hrest] at h
        cases h
      | ok rest => exact List.forall_mem_cons.mpr ⟨⟨first, hfirst⟩, ih hrest⟩

/-- What has a text as an array is one, and so have its items. -/
theorem exists_items_of_render {type : ValueType} (harray : type.isArray = true) {v : Value}
    (h : v.render type = .ok text) :
    ∃ vs, v = .array vs ∧ ∀ w ∈ vs, ∃ text, w.renderAs type.base = .ok text := by
  unfold Value.render at h
  rw [if_pos harray] at h
  cases v with
  | array vs =>
    dsimp only at h
    cases hmapM : vs.mapM (Value.renderAs type.base) with
    | error error =>
      rw [hmapM] at h
      cases h
    | ok texts => exact ⟨vs, rfl, exists_renderAs_of_mapM hmapM⟩
  | _ => cases h

section ValueText

variable {type : ValueType} {e : Expr}

/-- A reference to an enumerator is rendered as its name behind that of the enum. -/
theorem NamesEnumerator.valueText_eq (h : r.NamesEnumerator type.base e)
    (harray : type.isArray = false) (scope : String) :
    r.valueText e type scope = .ok (type.base.text ++ "." ++ Dotted.lastSegment e.text) := by
  have hrun := r.run_evaluateWithin_of_le e type scope (Nat.le_refl _)
  rw [evaluateWithin, harray, h.run_evalWith scope] at hrun
  rw [valueText_of_evaluate (Option.some.inj hrun).symm]
  unfold Value.render
  rw [if_neg (by simp [harray])]
  exact renderAs_enumerator h.isEnum e.text

/-- An array of references to enumerators is rendered item by item. -/
theorem valueText_array {loc : Location} {items : List Expr} (henum : type.base.isEnum = true)
    (h : ∀ item ∈ items, r.NamesEnumerator type.base item) (harray : type.isArray = true)
    (scope : String) :
    r.valueText (.array loc items) type scope = .ok ("\x7b" ++ ", ".intercalate
      (items.map fun item => type.base.text ++ "." ++ Dotted.lastSegment item.text) ++ "\x7d") := by
  have hrun := r.run_evaluateWithin_of_le (.array loc items) type scope (Nat.le_refl _)
  rw [evaluateWithin, Expr.evalWith, run_bind_of_ok (Expr.run_evalAll_of_forall
    fun item hitem => (h item hitem).run_evalWith scope), run_pure] at hrun
  rw [valueText_of_evaluate (Option.some.inj hrun).symm]
  unfold Value.render
  rw [if_pos harray]
  have htexts : (items.map fun item => Value.enumerator item.text).mapM (Value.renderAs type.base) =
      .ok (items.map fun item => type.base.text ++ "." ++ Dotted.lastSegment item.text) := by
    simp only [List.mapM_map, Function.comp_def, renderAs_enumerator henum]
    exact List.mapM_pure
  dsimp only
  rw [htexts]
  rfl

/-- What has a text as a value of an enum type, or as an array of such values, is written as it can
be, or some constant of the registry is written as an array. -/
theorem spellsEnumerators_or_array (henum : type.base.isEnum = true)
    (h : r.valueText e type scope = .ok text) :
    r.SpellsEnumerators type e ∨ ∃ array ∈ r.exprs, array.isArray = true := by
  obtain ⟨v, hv, hrender⟩ := exists_value_of_valueText h
  have hrun := r.run_evaluateWithin_of_le e type scope (Nat.le_refl _)
  rw [hv, evaluateWithin] at hrun
  rw [SpellsEnumerators]
  by_cases harray : type.isArray = true
  · obtain ⟨vs, rfl, htexts⟩ := exists_items_of_render harray hrender
    rw [harray] at hrun
    rw [if_pos harray]
    rcases Expr.evalWith_cases hrun with hscalar | ⟨loc, items, _, rfl, heq, hitems⟩ |
      ⟨_, _, -, href⟩
    · exact hscalar.elim
    · cases heq
      refine .inl ⟨loc, items, rfl, fun item hitem => ?_⟩
      obtain ⟨w, hw, hvalue⟩ := Expr.exists_value_of_evalAll hitems item hitem
      obtain ⟨_, htext⟩ := htexts w hw
      obtain ⟨_, rfl⟩ := exists_enumerator_of_renderAs henum htext
      exact namesEnumerator_of_run henum hvalue
    · exact .inr (exists_array_of_dereference href)
  · unfold Value.render at hrender
    rw [if_neg harray] at hrender ⊢
    obtain ⟨_, rfl⟩ := exists_enumerator_of_renderAs henum hrender
    rw [Bool.eq_false_iff.mpr harray] at hrun
    exact .inl (namesEnumerator_of_run henum hrun)

end ValueText

end Registry

end InterfaceDefinition
