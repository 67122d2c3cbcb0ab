import InterfaceDefinition.Diagnostic
import InterfaceDefinition.InternalError

/-!
# Reporting

A check answers with a verdict and reports on its way there. `Reporting α` is an answer with the
diagnostics reported for it, in order and with every advisory included; `Fallible α` may instead be
abandoned on an internal error, and then too keeps what was reported before.

`checkEach` is the one way in which checks of several parts are joined: every part is checked, and
all must pass (`value_checkEach`), and the reports of the parts follow each other
(`diagnostics_checkEach`).
-/

namespace InterfaceDefinition

/-- An answer and the diagnostics reported on the way to it, in order. -/
structure Reporting (α : Type) where
  value : α
  diagnostics : List Diagnostic := []

namespace Reporting

instance : Monad Reporting where
  pure a := ⟨a, []⟩
  bind r f :=
    let next := f r.value
    ⟨next.value, r.diagnostics ++ next.diagnostics⟩

@[simp] theorem pure_def {α : Type} (a : α) : (pure a : Reporting α) = ⟨a, []⟩ := rfl

@[simp] theorem bind_def {α β : Type} (r : Reporting α) (f : α → Reporting β) :
    r >>= f = ⟨(f r.value).value, r.diagnostics ++ (f r.value).diagnostics⟩ := rfl

instance : LawfulMonad Reporting :=
  LawfulMonad.mk' Reporting (fun r => by cases r; simp [Functor.map]) (fun _ _ => by simp)
    (fun _ _ _ => by simp)

/-- Reports a diagnostic and nothing else. -/
def report (d : Diagnostic) : Reporting Unit :=
  ⟨(), [d]⟩

/-- A verdict that reports its reason. -/
def reject (d : Diagnostic) : Reporting Bool :=
  ⟨false, [d]⟩

/-- The verdict of a check that can fail for at most one reason. -/
def verdict (fault : Option Diagnostic) : Reporting Bool :=
  match fault with
  | none => pure true
  | some d => reject d

@[simp] theorem value_verdict (fault : Option Diagnostic) :
    (verdict fault).value = fault.isNone := by
  cases fault <;> rfl

@[simp] theorem diagnostics_verdict (fault : Option Diagnostic) :
    (verdict fault).diagnostics = fault.toList := by
  cases fault <;> rfl

end Reporting

/-- There is an answer exactly when one is left after the error is dropped. -/
theorem toOption_eq_some_iff {ε α : Type} {x : Except ε α} {a : α} :
    x.toOption = some a ↔ x = .ok a := by
  cases x with
  | error e => simp [Except.toOption]
  | ok b => simp [Except.toOption]

/-- An answer, or the internal error for which it was abandoned, with what was reported so far. -/
abbrev Fallible (α : Type) := ExceptT InternalError Reporting α

namespace Fallible

variable {α β : Type} {x : Fallible α} {f : α → Fallible β}

/-- What follows an abandoned part is not run. -/
theorem run_bind_of_error {e : InternalError} (h : x.run.value = .error e) :
    (x >>= f).run = ⟨.error e, x.run.diagnostics⟩ := by
  rw [ExceptT.run_bind, Reporting.bind_def, h]
  simp

/-- What follows a part that has an answer is run with it, and reports behind it. -/
theorem run_bind_of_ok {a : α} (h : x.run.value = .ok a) :
    (x >>= f).run = ⟨(f a).run.value, x.run.diagnostics ++ (f a).run.diagnostics⟩ := by
  rw [ExceptT.run_bind, Reporting.bind_def, h]

end Fallible

/-- Checks every element, the later ones also when an earlier one failed, and passes when all do. -/
def checkEach {m : Type → Type} {α : Type} [Monad m] (check : α → m Bool) : List α → m Bool
  | [] => pure true
  | x :: xs => do
    let here ← check x
    let rest ← checkEach check xs
    return here && rest

/-- A check of every element passes when the checks of all elements do. -/
@[simp] theorem value_checkEach {α : Type} (check : α → Reporting Bool) (xs : List α) :
    (checkEach check xs).value = xs.all fun x => (check x).value := by
  induction xs with
  | nil => rfl
  | cons x xs ih => simp [checkEach, ih]

/-- A check of every element reports what the checks of the elements report, in order. -/
@[simp] theorem diagnostics_checkEach {α : Type} (check : α → Reporting Bool) (xs : List α) :
    (checkEach check xs).diagnostics = xs.flatMap fun x => (check x).diagnostics := by
  induction xs with
  | nil => rfl
  | cons x xs ih => simp [checkEach, ih]

end InterfaceDefinition
