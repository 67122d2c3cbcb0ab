import InterfaceDefinition.Proofs.Annotation.Params
import InterfaceDefinition.Proofs.Evaluation.Unfolding

/-!
# Expressions without references

The places in an expression are paths that say at every level which of the parts to go down to
(`Expr.subtermAt?`). The parts are numbered as they are written, so the order of two places in the
text is the lexicographic order of their paths.

An expression is closed when no path leads to a reference. The first reference that is found parents
first, from left to right, is missing exactly from closed expressions, and is otherwise the leftmost
one (`Expr.firstReference?_eq_some_iff`). What a closed expression comes to depends on nothing but
the expression (`Expr.exists_hasOutcome`): neither on what references mean, nor on the scope, nor on
the expected type and whether it is an array. So the parameters of an annotation can be evaluated
without any declarations (`Registry.evaluate_closed`).
-/

namespace InterfaceDefinition

namespace Expr

/-! ### Places -/

/-- The expressions directly below an expression, from left to right. -/
def parts : Expr → List Expr
  | literal .. | reference .. => []
  | array _ items => items
  | unary _ _ operand => [operand]
  | binary _ _ lhs rhs => [lhs, rhs]

/-- The expression that a path leads to. -/
def subtermAt? (e : Expr) : List Nat → Option Expr
  | [] => some e
  | i :: path => e.parts[i]?.bind (·.subtermAt? path)

/-- No path leads to a reference. -/
def IsClosed (e : Expr) : Prop :=
  ∀ path s, e.subtermAt? path = some s → s.isReference = false

/-- A reference that some path leads to, while every other path to a reference comes later in the
text. -/
def IsLeftmostReference (e s : Expr) : Prop :=
  ∃ path, e.subtermAt? path = some s ∧ s.isReference = true ∧
    ∀ other t, e.subtermAt? other = some t → t.isReference = true → other ≠ path →
      List.Lex (· < ·) path other

theorem sizeOf_lt_of_mem_parts {e p : Expr} (h : p ∈ e.parts) : sizeOf p < sizeOf e := by
  cases e with
  | literal | reference => cases h
  | array loc items =>
    have hlt : sizeOf p < sizeOf items := List.sizeOf_lt_of_mem h
    rw [array.sizeOf_spec]
    omega
  | unary loc op operand =>
    obtain rfl := List.mem_singleton.mp h
    rw [unary.sizeOf_spec]
    omega
  | binary loc op lhs rhs =>
    rw [binary.sizeOf_spec]
    rcases List.mem_cons.mp h with rfl | h
    · omega
    · obtain rfl := List.mem_singleton.mp h
      omega

/-- What is true of an expression whenever it is true of its parts is true of every expression. -/
theorem induction_parts {P : Expr → Prop} (h : ∀ e : Expr, (∀ p ∈ e.parts, P p) → P e) (e : Expr) :
    P e :=
  h e fun p _ => induction_parts h p
termination_by sizeOf e
decreasing_by exact sizeOf_lt_of_mem_parts ‹_›

/-! ### The first reference -/

/-- The parts of an expression come behind it among its terms, each with its own. -/
theorem subterms_eq (e : Expr) : e.subterms = e :: e.parts.flatMap subterms := by
  cases e <;> simp [subterms, parts, subtermsOf_eq_flatMap]

theorem firstReference?_of_isReference {e : Expr} (h : e.isReference = true) :
    e.firstReference? = some e := by
  rw [firstReference?, subterms_eq, List.find?_cons_of_pos h]

/-- The first reference of anything but a reference is that of the first part that has one. -/
theorem firstReference?_of_isReference_eq_false {e : Expr} (h : e.isReference = false) :
    e.firstReference? = e.parts.findSome? firstReference? := by
  rw [firstReference?, subterms_eq, List.find?_cons_of_neg (by simp [h]), List.find?_flatMap]
  rfl

/-- Nothing is below a reference. -/
theorem parts_of_isReference {e : Expr} (h : e.isReference = true) : e.parts = [] := by
  cases e with
  | reference loc name => rfl
  | _ => cases h

/-- An expression is closed when it is no reference and its parts are closed. -/
theorem isClosed_iff {e : Expr} :
    e.IsClosed ↔ e.isReference = false ∧ ∀ p ∈ e.parts, p.IsClosed := by
  constructor
  · intro h
    refine ⟨h [] e rfl, fun p hp path s hs => ?_⟩
    obtain ⟨i, hi⟩ := List.mem_iff_getElem?.mp hp
    exact h (i :: path) s (by rw [subtermAt?, hi]; exact hs)
  · rintro ⟨hself, hparts⟩ path s hs
    cases path with
    | nil => rwa [← Option.some.inj hs]
    | cons i path =>
      obtain ⟨p, hp, hs⟩ := Option.bind_eq_some_iff.mp hs
      exact hparts p (List.mem_of_getElem? hp) path s hs

/-- An expression is closed when no reference is found in it, however deep. -/
theorem firstReference?_eq_none_iff {e : Expr} : e.firstReference? = none ↔ e.IsClosed := by
  induction e using induction_parts with
  | h e ih =>
    rw [isClosed_iff]
    cases hself : e.isReference with
    | true => simp [firstReference?_of_isReference hself]
    | false =>
      rw [firstReference?_of_isReference_eq_false hself, List.findSome?_eq_none_iff]
      exact ⟨fun h => ⟨rfl, fun p hp => (ih p hp).mp (h p hp)⟩,
        fun h p hp => (ih p hp).mpr (h.2 p hp)⟩

/-- The first reference is the leftmost one: every part before that of its path is closed. -/
theorem isLeftmostReference_of_firstReference? {e s : Expr} (h : e.firstReference? = some s) :
    e.IsLeftmostReference s := by
  induction e using induction_parts with
  | h e ih =>
    cases hself : e.isReference with
    | true =>
      rw [firstReference?_of_isReference hself] at h
      obtain rfl := Option.some.inj h
      refine ⟨[], rfl, hself, fun other t hother _ hne => ?_⟩
      -- there is no other path into a reference
      cases other with
      | nil => exact absurd rfl hne
      | cons i other => simp [subtermAt?, parts_of_isReference hself] at hother
    | false =>
      rw [firstReference?_of_isReference_eq_false hself] at h
      obtain ⟨before, p, after, hparts, hp, hbefore⟩ := List.findSome?_eq_some_iff.mp h
      obtain ⟨path, hpath, hs, hleast⟩ := ih p (by simp [hparts]) hp
      refine ⟨before.length :: path, by simp [subtermAt?, hparts, hpath], hs, ?_⟩
      intro other t hother ht hne
      cases other with
      | nil =>
        obtain rfl := Option.some.inj hother
        exact absurd (hself.symm.trans ht) Bool.false_ne_true
      | cons i other =>
        obtain ⟨q, hq, hother⟩ := Option.bind_eq_some_iff.mp hother
        rw [hparts] at hq
        rcases Nat.lt_trichotomy i before.length with hlt | rfl | hlt
        · rw [List.getElem?_append_left hlt] at hq
          have hclosed := firstReference?_eq_none_iff.mp (hbefore q (List.mem_of_getElem? hq))
          exact absurd ((hclosed other t hother).symm.trans ht) Bool.false_ne_true
        · obtain rfl : p = q := by simpa using hq
          exact .cons (hleast other t hother ht fun heq => hne (by rw [heq]))
        · exact .rel hlt

/-- There is one leftmost reference at most. -/
theorem IsLeftmostReference.unique {e s t : Expr} (h : e.IsLeftmostReference s)
    (h' : e.IsLeftmostReference t) : s = t := by
  obtain ⟨path, hpath, hs, hleast⟩ := h
  obtain ⟨path', hpath', ht, hleast'⟩ := h'
  by_cases heq : path = path'
  · rw [heq] at hpath
    exact Option.some.inj (hpath.symm.trans hpath')
  · have hbefore := hleast path' t hpath' ht (Ne.symm heq)
    exact absurd (hleast' path s hpath hs heq) (List.lex_asymm Nat.lt_asymm hbefore)

/-- The search goes through the expression from the left, and what it finds is the reference that no
other one is before. -/
theorem firstReference?_eq_some_iff {e s : Expr} :
    e.firstReference? = some s ↔ e.IsLeftmostReference s := by
  refine ⟨isLeftmostReference_of_firstReference?, fun h => ?_⟩
  cases hfirst : e.firstReference? with
  | none =>
    obtain ⟨path, hpath, hs, -⟩ := h
    have hclosed := firstReference?_eq_none_iff.mp hfirst path s hpath
    exact absurd (hclosed.symm.trans hs) Bool.false_ne_true
  | some first => rw [(isLeftmostReference_of_firstReference? hfirst).unique h]

/-! ### Outcomes -/

/-- An expression has an outcome whatever its references mean and wherever it stands. -/
def HasOutcome (e : Expr) (outcome : Except EvalError Value) : Prop :=
  ∀ ref isArray, e.evalWith ref isArray = liftM outcome

/-- Items whose outcomes depend on no references have one together: their values, or the first of
their errors. -/
theorem exists_outcome_evalAll {es : List Expr} (h : ∀ e ∈ es, ∃ outcome, e.HasOutcome outcome) :
    ∃ outcome : Except EvalError (List Value), ∀ ref, evalAll ref es = liftM outcome := by
  induction es with
  | nil => exact ⟨.ok [], fun ref => by rw [evalAll]; rfl⟩
  | cons e es ih =>
    rw [List.forall_mem_cons] at h
    obtain ⟨⟨first, hfirst⟩, hrest⟩ := h
    obtain ⟨rest, hrest⟩ := ih hrest
    refine ⟨first >>= fun v => rest >>= fun vs => .ok (v :: vs), fun ref => ?_⟩
    rw [evalAll, hfirst, hrest, ← Bounded.liftM_bind]
    congr 1
    funext v
    exact Bounded.liftM_bind rest fun vs => .ok (v :: vs)

/-- What a closed expression comes to depends on nothing else. -/
theorem exists_hasOutcome {e : Expr} (h : e.IsClosed) : ∃ outcome, e.HasOutcome outcome := by
  induction e using induction_parts with
  | h e ih =>
    obtain ⟨hself, hparts⟩ := isClosed_iff.mp h
    have ih : ∀ p ∈ e.parts, ∃ outcome, p.HasOutcome outcome := fun p hp => ih p hp (hparts p hp)
    cases e with
    | literal loc kind written => exact ⟨kind.value written, fun ref isArray => by rw [evalWith]⟩
    | array loc items =>
      have hitems : ∀ item ∈ items, ∃ outcome, item.HasOutcome outcome := ih
      obtain ⟨outcome, houtcome⟩ := exists_outcome_evalAll hitems
      refine ⟨outcome >>= fun vs => .ok (.array vs), fun ref isArray => ?_⟩
      rw [evalWith, houtcome]
      exact Bounded.liftM_bind outcome fun vs => .ok (Value.array vs)
    | reference loc name => cases hself
    | unary loc op operand =>
      obtain ⟨outcome, houtcome⟩ := ih operand (by simp [parts])
      refine ⟨outcome >>= fun v => v.unary op, fun ref isArray => ?_⟩
      rw [evalWith, houtcome, Bounded.liftM_bind]
    | binary loc op lhs rhs =>
      obtain ⟨left, hleft⟩ := ih lhs (by simp [parts])
      obtain ⟨right, hright⟩ := ih rhs (by simp [parts])
      refine ⟨left >>= fun l => right >>= fun r => l.binary op r, fun ref isArray => ?_⟩
      rw [evalWith, hleft, hright, ← Bounded.liftM_bind]
      congr 1
      funext l
      exact Bounded.liftM_bind right fun r => l.binary op r

end Expr

namespace Registry

/-- An outcome that holds for any meaning of references is the result of evaluation in every
registry. -/
theorem evaluate_of_hasOutcome {e : Expr} {outcome : Except EvalError Value}
    (h : e.HasOutcome outcome) (r : Registry) (type : ValueType) (scope : String) :
    r.evaluate e type scope = outcome := by
  have hrun := r.run_evaluateWithin_of_le e type scope (Nat.le_refl _)
  rw [evaluateWithin, h, Bounded.run_lift] at hrun
  exact (Option.some.inj hrun).symm

/-- **Without references there is no context.** An expression has no first reference exactly when
it is closed, and otherwise its first reference is the leftmost one. A closed expression comes to
one value or one error, whatever its references would mean, in every registry and scope and for
every expected type. In particular a parameter that an annotation accepts has the text everywhere
that it has without any declarations. -/
theorem evaluate_closed (e : Expr) :
    (e.firstReference? = none ↔ e.IsClosed) ∧
    (∀ s, e.firstReference? = some s ↔ e.IsLeftmostReference s) ∧
    (e.IsClosed → ∃ outcome : Except EvalError Value,
      (∀ ref isArray, e.evalWith ref isArray = liftM outcome) ∧
      ∀ (r : Registry) (type : ValueType) (scope : String),
        r.evaluate e type scope = outcome) ∧
    ∀ (a : Annotation) (param : String), a.AcceptsParam param e →
      ∃ type, a.paramType? param = some type ∧ ∀ (r : Registry) (scope : String),
        r.valueTextOrEmpty e type.valueType scope = Annotation.renderParam type e := by
  refine ⟨Expr.firstReference?_eq_none_iff, fun s => Expr.firstReference?_eq_some_iff, ?_, ?_⟩
  · intro h
    obtain ⟨outcome, houtcome⟩ := Expr.exists_hasOutcome h
    exact ⟨outcome, houtcome, evaluate_of_hasOutcome houtcome⟩
  · rintro a param ⟨type, htype, hclosed, -⟩
    obtain ⟨outcome, houtcome⟩ :=
      Expr.exists_hasOutcome (Expr.firstReference?_eq_none_iff.mp hclosed)
    refine ⟨type, htype, fun r scope => ?_⟩
    have hvalue := evaluate_of_hasOutcome houtcome
    have hparam : Annotation.renderParam type e = empty.valueTextOrEmpty e type.valueType "" := rfl
    rw [hparam, valueTextOrEmpty, valueTextOrEmpty, valueText, valueText, hvalue, hvalue]

/-- Of two references in an array the first item's is the leftmost one, and a sum of literals has
its value everywhere. -/
theorem evaluate_closed_bounds :
    let loc : Location := ⟨"Limits.aidl", none⟩
    let one := Expr.literal loc .integral "1"
    let sum := Expr.binary loc .add one (.unary loc .minus (.literal loc .integral "0x10"))
    let bounds :=
      Expr.array loc [.binary loc .add one (.reference loc "LOW"), .reference loc "HIGH"]
    bounds.IsLeftmostReference (.reference loc "LOW") ∧ ¬ bounds.IsClosed ∧ sum.IsClosed ∧
      ∀ (r : Registry) (scope : String),
        r.valueText sum ⟨.builtin "int", false⟩ scope = .ok "-15" := by
  intro loc one sum bounds
  have hbounds := evaluate_closed bounds
  have hclosed : sum.IsClosed := (evaluate_closed sum).1.mp rfl
  refine ⟨(hbounds.2.1 _).mp rfl, fun h => ?_, hclosed, fun r scope => ?_⟩
  · exact nomatch hbounds.1.mpr h
  · obtain ⟨outcome, -, houtcome⟩ := (evaluate_closed sum).2.2.1 hclosed
    have hempty : empty.valueText sum ⟨.builtin "int", false⟩ "" = .ok "-15" :=
      toOption_eq_some_iff.mp (by decide +kernel)
    rw [valueText, houtcome] at hempty ⊢
    exact hempty

end Registry

end InterfaceDefinition
