import InterfaceDefinition.Reporting

/-!
# Why a check is abandoned

`Fallible.cause?` is the internal error for which a check is abandoned, if it is. A sequence is
abandoned for the first cause in it; in particular a check of every element is abandoned for the
cause of the first element that has one (`Fallible.cause?_checkEach`), and a sequence of parts that
complete, each of them whatever the verdicts before it, completes.
-/

namespace InterfaceDefinition

namespace Fallible

variable {α β : Type}

/-- The internal error for which a check is abandoned. -/
def cause? (x : Fallible α) : Option InternalError :=
  match x.run.value with
  | .error e => some e
  | .ok _ => none

/-- A check that is not abandoned. -/
def Completes (x : Fallible α) : Prop :=
  x.cause? = none

/-- The cause of a check is the internal error that it is abandoned with, and it has none otherwise.
-/
theorem cause?_eq_some_iff {x : Fallible α} {e : InternalError} :
    x.cause? = some e ↔ x.run.value = .error e := by
  rw [cause?]
  cases x.run.value <;> simp

theorem Completes.exists_value {x : Fallible α} (h : x.Completes) :
    ∃ a, x.run.value = .ok a := by
  unfold Completes cause? at h
  cases hx : x.run.value with
  | error e => simp [hx] at h
  | ok a => exact ⟨a, rfl⟩

/-- Behind a check that completes, the cause of a sequence is that of its second half. -/
theorem cause?_bind_of_ok {x : Fallible α} {f : α → Fallible β} {a : α}
    (h : x.run.value = .ok a) : (x >>= f).cause? = (f a).cause? := by
  unfold cause?
  rw [run_bind_of_ok h]

/-- What abandons the first half of a sequence abandons the whole with the same error: the second
half is never reached. -/
theorem cause?_bind_of_some {x : Fallible α} {f : α → Fallible β} {e : InternalError}
    (h : x.cause? = some e) : (x >>= f).cause? = some e := by
  rw [cause?_eq_some_iff] at h ⊢
  rw [run_bind_of_error h]

namespace Completes

protected theorem pure (a : α) : (pure a : Fallible α).Completes := rfl

theorem lift (x : Reporting α) : (liftM x : Fallible α).Completes := rfl

theorem of_ok {answer : Except InternalError α} {a : α} (h : answer = .ok a) :
    Completes (ExceptT.mk (pure answer)) := by
  rw [h]
  rfl

theorem bind {x : Fallible α} {f : α → Fallible β} (hx : x.Completes)
    (hf : ∀ a, (f a).Completes) : (x >>= f).Completes := by
  obtain ⟨a, ha⟩ := hx.exists_value
  exact (cause?_bind_of_ok ha).trans (hf a)

end Completes

/-- A check of every element is abandoned at the first element whose check is. -/
theorem cause?_checkEach (check : α → Fallible Bool) (xs : List α) :
    (checkEach check xs).cause? = xs.findSome? fun x => (check x).cause? := by
  induction xs with
  | nil => rfl
  | cons x xs ih =>
    rw [List.findSome?_cons, ← ih, checkEach]
    cases hx : (check x).cause? with
    | some e => exact cause?_bind_of_some hx
    | none =>
      obtain ⟨a, ha⟩ := Completes.exists_value hx
      rw [cause?_bind_of_ok ha]
      dsimp only
      -- the verdict of this element does not matter, the rest is checked in any case
      cases hxs : (checkEach check xs).cause? with
      | some e => exact cause?_bind_of_some hxs
      | none => exact Completes.bind hxs fun _ => .pure _

/-- The check of a list completes when those of its elements do, whatever their verdicts are. -/
theorem Completes.checkEach {check : α → Fallible Bool} {xs : List α}
    (h : ∀ x ∈ xs, (check x).Completes) : (checkEach check xs).Completes := by
  rw [Completes, cause?_checkEach, List.findSome?_eq_none_iff]
  exact h

end Fallible

end InterfaceDefinition
