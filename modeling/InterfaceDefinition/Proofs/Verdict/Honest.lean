import InterfaceDefinition.Reporting

/-!
# Honest verdicts

Nothing in the type of a check ties its verdict to what it reports. A check is **honest** when its
verdict is positive exactly when none of its reports is an error, and every error among them belongs
to no advisory, so that no switch can hide it. A check that is abandoned has no verdict, and then
only its errors are restricted.

Checks are written as sequences whose last line joins the verdicts collected on the way. The
notion therefore carries the verdict *so far*: `Honest before` says that the final verdict is
positive exactly when `before` was and no error is reported from here on. With that, sequencing
(`Reporting.Honest.bind`, `Fallible.Honest.bind`) and the check of every element of a list
(`checkEach`) keep honesty, and each check of the library is honest by composition.
-/

namespace InterfaceDefinition

/-! ### The notion -/

/-- A diagnostic that no switch hides: an error that belongs to no advisory. -/
def Diagnostic.IsHard (d : Diagnostic) : Prop :=
  d.isError = true ∧ d.advisory = none

theorem Diagnostic.isHard_error (loc : Location) (code message : String) :
    (Diagnostic.error loc code message).IsHard :=
  ⟨rfl, rfl⟩

theorem Diagnostic.isHard_duplicate (loc previous : Location) (code message : String) :
    (Diagnostic.duplicate loc previous code message).IsHard :=
  ⟨rfl, rfl⟩

/-- An answer, none if the check was abandoned, agrees with what was reported before it, given the
verdict so far. -/
structure HonestVerdict (before : Bool) (answer : Option Bool) (reported : List Diagnostic) :
    Prop where
  eq_true_iff : ∀ verdict ∈ answer,
    verdict = true ↔ before = true ∧ ∀ d ∈ reported, d.isError = false
  isHard : ∀ d ∈ reported, d.isError = true → d.IsHard

/-- A check that always has a verdict is honest. -/
def Reporting.Honest (before : Bool) (r : Reporting Bool) : Prop :=
  HonestVerdict before (some r.value) r.diagnostics

/-- A check that may be abandoned is honest. -/
def Fallible.Honest (before : Bool) (x : Fallible Bool) : Prop :=
  HonestVerdict before x.run.value.toOption x.run.diagnostics

namespace HonestVerdict

variable {before : Bool} {answer : Option Bool} {ds ds' : List Diagnostic}

/-- Reports before an honest part decide the verdict it starts from. -/
theorem append {first : Bool} (h : HonestVerdict true (some first) ds)
    (h' : HonestVerdict (before && first) answer ds') :
    HonestVerdict before answer (ds ++ ds') := by
  constructor
  · intro verdict hv
    -- the final verdict is tied to the second part, its start to the first
    rw [h'.eq_true_iff verdict hv, Bool.and_eq_true, h.eq_true_iff first rfl]
    simp only [List.forall_mem_append, true_and, and_assoc]
  · exact List.forall_mem_append.mpr ⟨h.isHard, h'.isHard⟩

/-- A negative verdict was not given without an error. -/
theorem exists_error (h : HonestVerdict true (some false) ds) : ∃ d ∈ ds, d.isError = true := by
  have hnot : ¬ ∀ d ∈ ds, d.isError = false := by
    intro hall
    exact Bool.false_ne_true ((h.eq_true_iff false rfl).mpr ⟨rfl, hall⟩)
  simpa using hnot

/-- An abandoned part leaves no verdict, whatever the verdict was before. -/
theorem abandoned (h : HonestVerdict true none ds) :
    HonestVerdict before none ds :=
  ⟨by simp, h.isHard⟩

theorem silent : HonestVerdict before (some before) [] :=
  ⟨by simp, by simp⟩

theorem silently_abandoned : HonestVerdict before none [] :=
  ⟨by simp, by simp⟩

/-- One hard error makes the verdict negative. -/
theorem singleton {d : Diagnostic} (h : d.IsHard) :
    HonestVerdict before (some false) [d] := by
  constructor
  · simp [h.1]
  · simpa using fun _ => h

end HonestVerdict

/-! ### Checks with a verdict -/

namespace Reporting.Honest

variable {before : Bool}

protected theorem pure {b : Bool} (h : b = before) : Reporting.Honest before (pure b) :=
  h ▸ HonestVerdict.silent

/-- A part whose answer holds its verdict together with other results. -/
theorem bind_of_verdict {α : Type} {x : Reporting α} {f : α → Reporting Bool} (verdict : α → Bool)
    (hx : HonestVerdict true (some (verdict x.value)) x.diagnostics)
    (hf : ∀ a, Reporting.Honest (before && verdict a) (f a)) : Reporting.Honest before (x >>= f) :=
  hx.append (hf x.value)

theorem bind {x : Reporting Bool} {f : Bool → Reporting Bool} (hx : Reporting.Honest true x)
    (hf : ∀ a, Reporting.Honest (before && a) (f a)) : Reporting.Honest before (x >>= f) :=
  bind_of_verdict id hx hf

theorem reject {d : Diagnostic} (h : d.IsHard) : Reporting.Honest before (Reporting.reject d) :=
  HonestVerdict.singleton h

/-- A check that can fail for one reason is honest when the reason is a hard error. -/
theorem verdict {fault : Option Diagnostic} (h : ∀ d ∈ fault, d.IsHard) :
    Reporting.Honest true (Reporting.verdict fault) := by
  cases fault with
  | none => exact Honest.pure rfl
  | some d => exact reject (h d rfl)

theorem verdict_unless {c : Prop} [Decidable c] {d : Diagnostic} (h : d.IsHard) :
    Reporting.Honest true (Reporting.verdict (if c then none else some d)) :=
  verdict fun d' hd => by
    split at hd
    · simp at hd
    · exact Option.some.inj hd ▸ h

theorem verdict_if {c : Prop} [Decidable c] {d : Diagnostic} (h : d.IsHard) :
    Reporting.Honest true (Reporting.verdict (if c then some d else none)) :=
  verdict fun d' hd => by
    split at hd
    · exact Option.some.inj hd ▸ h
    · simp at hd

theorem verdict_map {α : Type} {fault : Option α} {diagnostic : α → Diagnostic}
    (h : ∀ a, (diagnostic a).IsHard) :
    Reporting.Honest true (Reporting.verdict (fault.map diagnostic)) :=
  verdict fun d hd => by
    obtain ⟨a, -, rfl⟩ := Option.map_eq_some_iff.mp hd
    exact h a

protected theorem checkEach {α : Type} {check : α → Reporting Bool} {xs : List α}
    (h : ∀ x ∈ xs, Reporting.Honest true (check x)) :
    Reporting.Honest true (checkEach check xs) := by
  induction xs with
  | nil => exact Honest.pure rfl
  | cons x xs ih =>
    rw [List.forall_mem_cons] at h
    exact bind h.1 fun a => bind (ih h.2) fun b => Honest.pure (by simp)

end Reporting.Honest

/-! ### Checks that may be abandoned -/

namespace Fallible.Honest

variable {before : Bool}

protected theorem pure {b : Bool} (h : b = before) :
    Fallible.Honest before (pure b : Fallible Bool) :=
  h ▸ HonestVerdict.silent

theorem bind {x : Fallible Bool} {f : Bool → Fallible Bool} (hx : Fallible.Honest true x)
    (hf : ∀ a, Fallible.Honest (before && a) (f a)) : Fallible.Honest before (x >>= f) := by
  rw [Fallible.Honest] at hx ⊢
  cases h : x.run.value with
  | error e =>
    rw [run_bind_of_error h]
    rw [h] at hx
    exact hx.abandoned
  | ok a =>
    rw [run_bind_of_ok h]
    rw [h] at hx
    exact hx.append (hf a)

/-- A part that reports nothing and whose answer is no verdict. -/
theorem bind_silent {α : Type} {answer : Except InternalError α} {f : α → Fallible Bool}
    (hf : ∀ a, answer = .ok a → Fallible.Honest before (f a)) :
    Fallible.Honest before (ExceptT.mk (pure answer) >>= f) := by
  cases answer with
  | error e => exact HonestVerdict.silently_abandoned
  | ok a => exact hf a rfl

theorem abandon (e : InternalError) : Fallible.Honest before (throw e) :=
  HonestVerdict.silently_abandoned

/-- A check that always has a verdict, as part of one that may be abandoned. -/
theorem lift {x : Reporting Bool} (h : Reporting.Honest before x) :
    Fallible.Honest before (liftM x) := by
  have hrun : (liftM x : Fallible Bool).run = ⟨.ok x.value, x.diagnostics ++ []⟩ := rfl
  rw [Fallible.Honest, hrun, List.append_nil]
  exact h

/-- Advice changes no verdict. -/
theorem advise {d : Diagnostic} {x : Fallible Bool} (h : d.isError = false)
    (hx : Fallible.Honest before x) :
    Fallible.Honest before (do liftM (Reporting.report d); x) := by
  have hrun : (do liftM (Reporting.report d); x : Fallible Bool).run =
      ⟨x.run.value, [d] ++ x.run.diagnostics⟩ := rfl
  have hd : HonestVerdict true (some true) [d] := ⟨by simp [h], by simp [h]⟩
  rw [Fallible.Honest, hrun]
  exact hd.append (by rw [Bool.and_true]; exact hx)

/-- A part that only runs while the verdict is positive. -/
theorem guard {a : Bool} {x : Fallible Bool} (h : Fallible.Honest before x) :
    Fallible.Honest (before && a) (if !a then pure false else x) := by
  cases a with
  | false => exact Honest.pure (by simp)
  | true => simpa using h

theorem while_positive {a : Bool} {x : Fallible Bool} (h : Fallible.Honest before x) :
    Fallible.Honest (before && a) (if a then x else pure false) := by
  cases a with
  | false => exact Honest.pure (by simp)
  | true => simpa using h

protected theorem checkEach {α : Type} {check : α → Fallible Bool} {xs : List α}
    (h : ∀ x ∈ xs, Fallible.Honest true (check x)) : Fallible.Honest true (checkEach check xs) := by
  induction xs with
  | nil => exact Honest.pure rfl
  | cons x xs ih =>
    rw [List.forall_mem_cons] at h
    exact bind h.1 fun a => bind (ih h.2) fun b => Honest.pure (by simp)

end Fallible.Honest

end InterfaceDefinition
