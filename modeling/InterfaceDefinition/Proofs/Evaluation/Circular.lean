import InterfaceDefinition.Proofs.Evaluation.Unfolding
import InterfaceDefinition.Proofs.Registry.Reachable
import Mathlib.Logic.Relation

/-!
# Circular references

Evaluation with its record of open references gives what unfolding gives where that ends, and a
circular reference where it does not (`Registry.Reachable.evaluate_refines_unfolding`).

That a circular reference never comes too early is a fact about the shallowest unfolding. An open
reference that comes up again would have to be unfolded in less depth than the constant it is part
of; so while the constants of the open references are stuck below some depth, evaluation and
unfolding agree at it (`Registry.Indexed.agreesAt`), and a constant whose evaluation is circular
is stuck itself. For this a key must determine its constant, and in a reachable registry it does,
since a canonical name leads to one declaration (`Registry.Indexed.denotes_unique`).

A circular reference always comes from a cycle: each open constant leads to the present one, and the
one that comes up again leads to itself (`Registry.Indexed.exists_cycle`).
-/

namespace InterfaceDefinition

open Bounded

namespace Registry

/-! ### Keys -/

/-- A key stands for a constant: the one that its name denotes somewhere, if it is in the scope of
the key. -/
def Denotes (r : Registry) (key : OpenReference) (c : NamedConstant) : Prop :=
  c.scope = key.1 ∧ ∃ scope, r.constant? scope key.2 = some c

/-- The key that a reference opens stands for the constant that it leads to. -/
theorem denotes_of_referent {r : Registry} {scope : String} {type : TypeName} {isArray : Bool}
    {name : String} {c : NamedConstant} (h : r.referent scope type isArray name = .ok (.inr c)) :
    r.Denotes (c.scope, name) c :=
  ⟨rfl, scope, constant?_of_referent h⟩

/-- The constants of open references have no outcome in less than some depth. -/
def Stuck (r : Registry) (opened : List OpenReference) (depth : Nat) : Prop :=
  ∀ key ∈ opened, ∀ c, r.Denotes key c →
    ∀ m < depth, (r.unfolded m c.value c.type.valueType c.scope).run = none

theorem stuck_nil (r : Registry) (depth : Nat) : r.Stuck [] depth := by
  simp [Stuck]

/-- No open reference that comes up again can be unfolded. -/
theorem Stuck.run_unfold_of_open {r : Registry} {opened : List OpenReference} {depth : Nat}
    (h : r.Stuck opened depth) {scope : String} {type : TypeName} {isArray : Bool} {name : String}
    {c : NamedConstant} (hc : r.referent scope type isArray name = .ok (.inr c))
    (hopen : (c.scope, name) ∈ opened) : (r.unfold depth scope type isArray name).run = none := by
  cases depth with
  | zero =>
    rw [unfold_zero hc]
    rfl
  | succ depth =>
    rw [unfold_succ hc]
    exact h _ hopen c (denotes_of_referent hc) depth (Nat.lt_succ_self depth)

namespace Indexed

variable {r : Registry} (hr : r.Indexed)

include hr

/-- Declarations that are looked up by any name are the same if their canonical names are. -/
theorem declIn?_unique {package package' name name' : String} {d d' : Decl}
    (h : r.declIn? package name = some d) (h' : r.declIn? package' name' = some d')
    (hname : d.canonicalName = d'.canonicalName) : d = d' := by
  have hindexed : ∀ {package name : String} {d : Decl}, r.declIn? package name = some d →
      ∃ target, r.indexed? d.canonicalName = some target ∧ r.decl? target.id = some d := by
    intro package name d h
    obtain ⟨⟨found, target⟩, hfound, hd⟩ := Option.bind_eq_some_iff.mp h
    have htarget := indexed?_of_lookup? hfound
    obtain ⟨declared, hdeclared, hcanonical, -⟩ := hr.exists_decl_of_indexed? htarget
    obtain rfl := Option.some.inj (hdeclared.symm.trans hd)
    exact ⟨target, hcanonical ▸ htarget, hd⟩
  obtain ⟨target, htarget, hd⟩ := hindexed h
  obtain ⟨target', htarget', hd'⟩ := hindexed h'
  rw [hname] at htarget
  obtain rfl := Option.some.inj (htarget.symm.trans htarget')
  exact Option.some.inj (hd.symm.trans hd')

/-- A key stands for one constant only, however the scopes differ from which its name is read. -/
theorem denotes_unique {key : OpenReference} {c c' : NamedConstant} (h : r.Denotes key c)
    (h' : r.Denotes key c') : c = c' := by
  obtain ⟨hscope, scope, hc⟩ := h
  obtain ⟨hscope', scope', hc'⟩ := h'
  obtain ⟨_, _, d, hd, hd₁⟩ := exists_declIn?_of_constant? hc
  obtain ⟨_, _, d', hd', hd₁'⟩ := exists_declIn?_of_constant? hc'
  have hname : d.canonicalName = d'.canonicalName := by
    rw [← (Decl.mem_exprs_of_constant? hd₁).2, ← (Decl.mem_exprs_of_constant? hd₁').2, hscope,
      hscope']
  obtain rfl := hr.declIn?_unique hd hd' hname
  exact Option.some.inj (hd₁.symm.trans hd₁')

/-! ### Circular references are not unfolded -/

/-- A reference may be opened while those open are stuck if its constant is stuck, too: a key stands
for one constant only. -/
theorem stuck_cons {opened : List OpenReference} {depth : Nat} (h : r.Stuck opened depth)
    {key : OpenReference} {c : NamedConstant} (hkey : r.Denotes key c)
    (hc : ∀ m < depth, (r.unfolded m c.value c.type.valueType c.scope).run = none) :
    r.Stuck (key :: opened) depth := by
  intro key' hkey' c' hc' m hm
  rcases List.mem_cons.mp hkey' with rfl | hmem
  · obtain rfl := hr.denotes_unique hkey hc'
    exact hc m hm
  · exact h key' hmem c' hc' m hm

/-- While the constants of the open references are stuck, evaluation and unfolding of a reference
agree where both have an outcome, and it is not circular. -/
def AgreesAt (r : Registry) (depth : Nat) : Prop :=
  ∀ opened, r.Stuck opened depth → ∀ room scope type isArray name,
    Agree (r.dereference room opened scope type isArray name)
      (r.unfold depth scope type isArray name)

/-- A constant whose evaluation is circular joins the stuck ones: by induction on the depth, as its
own references agree at every smaller one. -/
theorem run_unfolded_of_circular {depth : Nat} (hagrees : ∀ m < depth, AgreesAt r m)
    {opened : List OpenReference} (hstuck : r.Stuck opened depth) {key : OpenReference}
    {c : NamedConstant} (hkey : r.Denotes key c) {room : Nat} {outcome : Except EvalError Value}
    (hcircular : IsCircular outcome)
    (heval : (c.value.evalWith (r.dereference room (key :: opened) c.scope c.type.base)
      c.type.isArray).run = some outcome) :
    ∀ m < depth, (r.unfolded m c.value c.type.valueType c.scope).run = none := by
  intro m hm
  induction m using Nat.strongRecOn with
  | ind m ih =>
    -- below `m` the constant itself is stuck already, so its key may join the open ones
    have hstuck' : r.Stuck (key :: opened) m :=
      hr.stuck_cons (fun key hkey c hc j hj => hstuck key hkey c hc j (Nat.lt_trans hj hm)) hkey
        fun j hj => ih j hj (Nat.lt_trans hj hm)
    have hagree := Expr.evalWith_congr congruence_agree c.type.isArray c.value
      fun isArray name _ => hagrees m hm _ hstuck' room c.scope c.type.base isArray name
    rcases hrun : (r.unfolded m c.value c.type.valueType c.scope).run with _ | found
    · rfl
    · exact absurd hcircular (hagree _ found heval hrun).2

/-- By strong induction on the depth: a reference whose evaluation is circular has no outcome at the
depth, and any other one unfolds to what it evaluates to. -/
theorem agreesAt (depth : Nat) : AgreesAt r depth := by
  induction depth using Nat.strongRecOn with
  | ind depth ih =>
    intro opened hstuck room scope type isArray name outcome outcome' hd hu
    by_cases hcircular : IsCircular outcome
    · -- then the reference has no outcome at this depth
      refine absurd hu ?_
      rcases r.settled_or_constant scope type isArray name with ⟨_, hne, -, hd'⟩ | ⟨c, hc⟩
      · rw [hd', run_lift] at hd
        obtain rfl := Option.some.inj hd
        exact absurd hcircular hne
      · by_cases hopen : (c.scope, name) ∈ opened
        · simp [hstuck.run_unfold_of_open hc hopen]
        · cases room with
          | zero =>
            rw [dereference_zero hc hopen] at hd
            exact nomatch hd
          | succ room =>
            rw [dereference_succ hc hopen] at hd
            have hkey : r.Denotes (c.scope, name) c := denotes_of_referent hc
            have hnone := hr.run_unfolded_of_circular ih hstuck hkey hcircular hd
            cases depth with
            | zero => simp [unfold_zero hc]
            | succ depth => simp [unfold_succ hc, hnone depth (Nat.lt_succ_self depth)]
    · -- what is not circular is found at some depth, and depths agree
      have hfound := r.belowUncircular_unfold room opened scope type isArray name _ hd hcircular
      exact ⟨unfold_unique hfound hu, hcircular⟩

end Indexed

/-! ### Cycles -/

/-- An expression mentions a constant when one of its references denotes it where a type is
expected, as the whole or as an item of an array. -/
def Mentions (r : Registry) (scope : String) (type : TypeName) (e : Expr) (c : NamedConstant) :
    Prop :=
  ∃ isArray, ∃ name ∈ e.referenceNames, r.referent scope type isArray name = .ok (.inr c)

/-- A constant refers to another one when its value mentions it. -/
def Refers (r : Registry) (c c' : NamedConstant) : Prop :=
  r.Mentions c.scope c.type.base c.value c'

/-- A reference whose outcome is circular denotes a constant. -/
theorem exists_referent_of_circular {r : Registry} {room : Nat} {opened : List OpenReference}
    {scope : String} {type : TypeName} {isArray : Bool} {name : String}
    (h : ¬ Uncircular (r.dereference room opened scope type isArray name)) :
    ∃ c, r.referent scope type isArray name = .ok (.inr c) := by
  rcases r.settled_or_constant scope type isArray name with ⟨outcome, hne, -, hd⟩ | hc
  · refine absurd (fun found hfound => ?_) h
    rw [hd, run_lift] at hfound
    exact Option.some.inj hfound ▸ hne
  · exact hc

/-- A circular reference leads to a constant that leads to itself: the constants of the open
references all lead to the present one, which may be one of them. -/
theorem Indexed.exists_cycle {r : Registry} (hr : r.Indexed) (room : Nat)
    {opened : List OpenReference} {scope : String} {type : TypeName} {isArray : Bool}
    {name : String} {c : NamedConstant} (hc : r.referent scope type isArray name = .ok (.inr c))
    (hopened : ∀ key ∈ opened, ∀ d, r.Denotes key d → Relation.TransGen r.Refers d c)
    (hcircular : ¬ Uncircular (r.dereference room opened scope type isArray name)) :
    ∃ d, Relation.ReflTransGen r.Refers c d ∧ Relation.TransGen r.Refers d d := by
  induction room generalizing opened scope type isArray name c with
  | zero =>
    by_cases hopen : (c.scope, name) ∈ opened
    · exact ⟨c, .refl, hopened _ hopen c (denotes_of_referent hc)⟩
    · rw [dereference_zero hc hopen] at hcircular
      exact absurd (fun _ hnone => nomatch hnone) hcircular
  | succ room ih =>
    by_cases hopen : (c.scope, name) ∈ opened
    · exact ⟨c, .refl, hopened _ hopen c (denotes_of_referent hc)⟩
    · rw [dereference_succ hc hopen] at hcircular
      obtain ⟨isArray', name', hname', hcircular'⟩ := Expr.exists_circular_reference hcircular
      obtain ⟨c', hc'⟩ := exists_referent_of_circular hcircular'
      have hstep : r.Refers c c' := ⟨isArray', name', hname', hc'⟩
      -- the present constant leads to the next one, and so do those that lead to it
      have hopened' : ∀ key ∈ (c.scope, name) :: opened, ∀ d, r.Denotes key d →
          Relation.TransGen r.Refers d c' := by
        intro key hkey d hd
        rcases List.mem_cons.mp hkey with rfl | hmem
        · obtain rfl := hr.denotes_unique (denotes_of_referent hc) hd
          exact .single hstep
        · exact (hopened key hmem d hd).tail hstep
      obtain ⟨d, hreach, hcycle⟩ := ih hc' hopened' hcircular'
      exact ⟨d, .head hstep hreach, hcycle⟩

/-! ### Expressions -/

section Expressions

variable {r : Registry} {e : Expr} {type : ValueType} {scope : String}

/-- There are only so many references to open, so the bound that evaluation works with always
suffices. -/
theorem run_evaluateWithin_openBound :
    (r.evaluateWithin (r.openBound e) e type scope).run = some (r.evaluate e type scope) :=
  r.run_evaluateWithin_of_le e type scope (Nat.le_refl _)

/-- A result that is not circular is found by unfolding deep enough. -/
theorem exists_run_unfolded (h : ¬ IsCircular (r.evaluate e type scope)) :
    ∃ depth, (r.unfolded depth e type scope).run = some (r.evaluate e type scope) := by
  have hbelow := Expr.evalWith_congr congruence_belowUncircular type.isArray e
    fun isArray name _ => r.belowUncircular_unfold (r.openBound e) [] scope type.base isArray name
  exact ⟨r.openBound e, hbelow _ run_evaluateWithin_openBound h⟩

/-- What unfolding finds is the result of evaluation, and not circular. -/
theorem Indexed.evaluate_of_run_unfolded (hr : r.Indexed) {depth : Nat}
    {outcome : Except EvalError Value} (h : (r.unfolded depth e type scope).run = some outcome) :
    r.evaluate e type scope = outcome ∧ ¬ IsCircular (r.evaluate e type scope) := by
  have hagree := Expr.evalWith_congr congruence_agree type.isArray e
    fun isArray name _ =>
      hr.agreesAt depth [] (r.stuck_nil depth) (r.openBound e) scope type.base isArray name
  exact hagree _ _ run_evaluateWithin_openBound h

/-- A circular reference comes from a cycle that the expression leads to. -/
theorem Indexed.exists_cycle_of_evaluate (hr : r.Indexed)
    (h : IsCircular (r.evaluate e type scope)) :
    ∃ c, r.Mentions scope type.base e c ∧
      ∃ d, Relation.ReflTransGen r.Refers c d ∧ Relation.TransGen r.Refers d d := by
  have hcircular : ¬ Uncircular (r.evaluateWithin (r.openBound e) e type scope) :=
    fun huncircular => huncircular _ run_evaluateWithin_openBound h
  obtain ⟨isArray, name, hname, hcircular⟩ := Expr.exists_circular_reference hcircular
  obtain ⟨c, hc⟩ := exists_referent_of_circular hcircular
  exact ⟨c, ⟨isArray, name, hname, hc⟩, hr.exists_cycle _ hc (by simp) hcircular⟩

end Expressions

/-- **Evaluation refines unfolding**: in a reachable registry

* evaluation ends: with any room from some bound on it has a result, and the same;
* its result, if not a circular reference, is what unfolding the references finds, and unfolding
  finds nothing else;
* it is a circular reference exactly when unfolding never ends;
* it is none if no constant that the expression leads to leads to itself, however the references
  are spelled. -/
theorem Reachable.evaluate_refines_unfolding {Admitted : Document → Prop} {r : Registry}
    (hr : r.Reachable Admitted) (e : Expr) (type : ValueType) (scope : String) :
    (∃ bound, ∀ room, bound ≤ room →
      (r.evaluateWithin room e type scope).run = some (r.evaluate e type scope)) ∧
    (∀ outcome, (∃ depth, (r.unfolded depth e type scope).run = some outcome) ↔
      r.evaluate e type scope = outcome ∧ ¬ ∃ name, outcome = .error (.circularReference name)) ∧
    ((∃ name, r.evaluate e type scope = .error (.circularReference name)) ↔
      ∀ depth, (r.unfolded depth e type scope).run = none) ∧
    ((∀ c, r.Mentions scope type.base e c → ∀ d, Relation.ReflTransGen r.Refers c d →
        ¬ Relation.TransGen r.Refers d d) →
      ¬ ∃ name, r.evaluate e type scope = .error (.circularReference name)) := by
  have h := hr.indexed
  refine ⟨⟨r.openBound e, fun room => r.run_evaluateWithin_of_le e type scope⟩,
    fun outcome => ⟨?_, ?_⟩, ⟨?_, ?_⟩, ?_⟩
  · rintro ⟨depth, hdepth⟩
    obtain ⟨rfl, hne⟩ := h.evaluate_of_run_unfolded hdepth
    exact ⟨rfl, hne⟩
  · rintro ⟨rfl, hne⟩
    exact exists_run_unfolded hne
  · intro hcircular depth
    rcases hrun : (r.unfolded depth e type scope).run with _ | outcome
    · rfl
    · exact absurd hcircular (h.evaluate_of_run_unfolded hrun).2
  · intro hnever
    by_contra hne
    obtain ⟨depth, hdepth⟩ := exists_run_unfolded hne
    simp [hnever depth] at hdepth
  · intro hacyclic hcircular
    obtain ⟨c, hmentions, d, hreach, hcycle⟩ := h.exists_cycle_of_evaluate hcircular
    exact hacyclic c hmentions d hreach hcycle

/-- An enum with two enumerators that have each other's value. -/
def mutualEnumerators : Document :=
  let loc : Location := ⟨"E.aidl", none⟩
  ⟨[], [⟨⟨loc, "p", "E", "", {}⟩,
    .enum [⟨loc, "A", some (.reference loc "B"), ""⟩, ⟨loc, "B", some (.reference loc "E.A"), ""⟩]
      none {}⟩]⟩

/-- Their evaluation ends with an error about a circular reference, since the unfolding of either
never ends, however deep it may go. -/
theorem unfolded_mutualEnumerators :
    let r := ((empty.addDocument mutualEnumerators).value.completeDocument 0).value.1
    let e := Expr.reference ⟨"E.aidl", none⟩ "p.E.A"
    r.Reachable Document.IsFresh ∧
      ∀ depth, (r.unfolded depth e ⟨.builtin "byte", false⟩ "p.E").run = none := by
  intro r e
  have hr : r.Reachable Document.IsFresh :=
    .completeDocument 0 (.addDocument .empty (by decide +kernel))
  have hcircular : IsCircular (r.evaluate e ⟨.builtin "byte", false⟩ "p.E") := by decide +kernel
  exact ⟨hr, (hr.evaluate_refines_unfolding e _ _).2.2.1.mp hcircular⟩

end Registry

end InterfaceDefinition
