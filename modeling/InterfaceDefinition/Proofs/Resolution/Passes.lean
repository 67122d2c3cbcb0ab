import InterfaceDefinition.Resolution

/-!
# Running passes

What a pass does from a given progress: its steps in order (`Pass.run_bind`), each of which may
read and change the progress and report.
-/

namespace InterfaceDefinition

namespace Pass

variable {α β : Type} {p : Progress}

@[simp] theorem run_pure (a : α) : (pure a : Pass α).run p = ⟨(a, p), []⟩ := rfl

/-- A step continues with the answer and the progress of the steps before it. -/
theorem run_bind (x : Pass α) (f : α → Pass β) :
    (x >>= f).run p =
      let next := (f (x.run p).value.1).run (x.run p).value.2
      ⟨next.value, (x.run p).diagnostics ++ next.diagnostics⟩ := rfl

/-- Reporting leaves the progress as it is. -/
@[simp] theorem run_lift (x : Reporting α) :
    (liftM x : Pass α).run p = ⟨(x.value, p), x.diagnostics⟩ := by
  have h : (liftM x : Pass α).run p = ⟨(x.value, p), x.diagnostics ++ []⟩ := rfl
  rw [h, List.append_nil]

/-- Nothing happens once the pass has ended. -/
@[simp] theorem run_guarded_error (unchanged : α) (step : Pass α) (e : InternalError) :
    (guarded unchanged step).run (.error e) = ⟨(unchanged, .error e), []⟩ := rfl

@[simp] theorem run_guarded_ok (unchanged : α) (step : Pass α) (b : Bool) :
    (guarded unchanged step).run (.ok b) = step.run (.ok b) := rfl

end Pass

end InterfaceDefinition
