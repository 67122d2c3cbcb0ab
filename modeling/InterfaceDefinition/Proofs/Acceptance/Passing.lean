import InterfaceDefinition.Proofs.Abandonment.Cause

/-!
# Checks that pass

A check that may be abandoned passes when it has an answer and the answer is positive. Whether it
passes is known from its parts, one combinator at a time: a check with a part in front of it passes
if the part has an answer with which the rest passes (`Fallible.passes_bind_iff`), and so a check
that goes on only behind a positive part passes when both do (`Fallible.passes_guard_iff`), and a
check of every element when the checks of all elements do (`Fallible.passes_checkEach_iff`).

A check **decides** a condition when it passes exactly under it. Most checks collect verdicts and
join them in their last line, so the notion carries the verdict so far: `Decides before` says that
the check passes exactly when `before` was positive and the condition holds. Each line of a check
then adds its own condition (`Fallible.Decides.bind`), whichever lines failed above it. What a check
has reported when it passes is followed in the same way (`Fallible.Reports`).
-/

namespace InterfaceDefinition

namespace Fallible

/-- Whether a check that may be abandoned passes. -/
def passes (x : Fallible Bool) : Bool :=
  x.run.value.toOption == some true

variable {α : Type} {x y : Fallible Bool}

theorem passes_iff : x.passes = true ↔ x.run.value = .ok true := by
  rw [passes, beq_iff_eq, toOption_eq_some_iff]

@[simp] theorem passes_pure (b : Bool) : (pure b : Fallible Bool).passes = b := by
  cases b <;> rfl

@[simp] theorem passes_lift (x : Reporting Bool) : (liftM x : Fallible Bool).passes = x.value := by
  have hrun : (liftM x : Fallible Bool).run.value = .ok x.value := rfl
  rw [passes, hrun]
  cases x.value <;> rfl

/-- A check with a part in front of it passes if the part has an answer with which the rest does. -/
theorem passes_bind_iff {x : Fallible α} {f : α → Fallible Bool} :
    (x >>= f).passes = true ↔ ∃ a, x.run.value = .ok a ∧ (f a).passes = true := by
  cases h : x.run.value with
  | error e =>
    have hbind : (x >>= f).run.value = .error e := by rw [run_bind_of_error h]
    rw [passes_iff, hbind]
    constructor
    · intro hpasses
      cases hpasses
    · rintro ⟨a, ha, -⟩
      cases ha
  | ok a =>
    have hbind : (x >>= f).run.value = (f a).run.value := by rw [run_bind_of_ok h]
    rw [passes_iff, hbind, ← passes_iff]
    constructor
    · exact fun hpasses => ⟨a, rfl, hpasses⟩
    · rintro ⟨_, ha, hpasses⟩
      cases ha
      exact hpasses

/-- Two parts that are both checked must both pass. -/
theorem passes_and_iff :
    (x >>= fun a => y >>= fun b => pure (a && b)).passes = true ↔
      x.passes = true ∧ y.passes = true := by
  simp only [passes_bind_iff, passes_pure, Bool.and_eq_true, exists_eq_right_right]
  simp only [passes_iff]

/-- What is checked only behind a positive part must pass, and the part too. -/
theorem passes_guard_iff :
    (x >>= fun a => if !a then pure false else y).passes = true ↔
      x.passes = true ∧ y.passes = true := by
  rw [passes_bind_iff, passes_iff]
  constructor
  · rintro ⟨a, ha, h⟩
    cases a with
    | false => simp at h
    | true => exact ⟨ha, by simpa using h⟩
  · rintro ⟨hx, hy⟩
    exact ⟨true, hx, by simpa using hy⟩

/-- A check of every element passes when the checks of all elements do. -/
theorem passes_checkEach_iff {check : α → Fallible Bool} {xs : List α} :
    (checkEach check xs).passes = true ↔ ∀ x ∈ xs, (check x).passes = true := by
  induction xs with
  | nil => simp [checkEach]
  | cons x xs ih => rw [checkEach, List.forall_mem_cons, ← ih, passes_and_iff]

/-- When no part is abandoned, a check of every part is known from the checks of the parts. -/
theorem run_checkEach {check : α → Fallible Bool} {xs : List α}
    (h : ∀ x ∈ xs, (check x).Completes) :
    (checkEach check xs).run =
      ⟨.ok (xs.all fun x => (check x).passes), xs.flatMap fun x => (check x).run.diagnostics⟩ := by
  induction xs with
  | nil => rfl
  | cons x xs ih =>
    rw [List.forall_mem_cons] at h
    obtain ⟨b, hb⟩ := h.1.exists_value
    have hpasses : (check x).passes = b := by simp [passes, hb, Except.toOption]
    have hrest : (checkEach check xs).run.value = .ok (xs.all fun x => (check x).passes) := by
      rw [ih h.2]
    rw [checkEach, run_bind_of_ok hb, run_bind_of_ok hrest, ih h.2]
    simp [hpasses]

/-! ### Conditions that checks decide -/

/-- Given the verdict so far, a check passes exactly under a condition. -/
def Decides (before : Bool) (x : Fallible Bool) (P : Prop) : Prop :=
  x.passes = true ↔ before = true ∧ P

namespace Decides

variable {before : Bool} {P Q : Prop}

/-- Nothing was decided before the first line of a check. -/
theorem passes_iff (h : Decides true x P) : x.passes = true ↔ P := by
  rw [Decides] at h
  rw [h, eq_self_iff_true, true_and]

theorem congr (h : Decides before x P) (hPQ : P ↔ Q) : Decides before x Q := by
  rw [Decides] at h ⊢
  rw [h, hPQ]

protected theorem pure {b : Bool} (h : b = before) : Decides before (pure b) True := by
  rw [Decides, passes_pure, h, and_true]

/-- A part in front adds its condition. -/
theorem bind {f : Bool → Fallible Bool} (hx : Decides true x P)
    (hf : ∀ a, Decides (before && a) (f a) Q) : Decides before (x >>= f) (P ∧ Q) := by
  rw [Decides, passes_bind_iff]
  constructor
  · rintro ⟨a, ha, hrest⟩
    obtain ⟨hboth, hQ⟩ := (hf a).mp hrest
    obtain ⟨hbefore, rfl⟩ := Bool.and_eq_true_iff.mp hboth
    exact ⟨hbefore, hx.passes_iff.mp (Fallible.passes_iff.mpr ha), hQ⟩
  · rintro ⟨hbefore, hP, hQ⟩
    have ha : x.run.value = .ok true := Fallible.passes_iff.mp (hx.passes_iff.mpr hP)
    exact ⟨true, ha, (hf true).mpr ⟨by simp [hbefore], hQ⟩⟩

/-- The last part before the verdicts are joined. -/
theorem last {f : Bool → Fallible Bool} (hx : Decides true x P)
    (hf : ∀ a, f a = pure (before && a)) : Decides before (x >>= f) P := by
  have hjoined : Decides before (x >>= f) (P ∧ True) := by
    refine hx.bind fun a => ?_
    rw [hf a]
    exact .pure rfl
  exact hjoined.congr (iff_of_eq (and_true P))

/-- A part in front whose answer is no verdict must have one. -/
theorem bind_answer {answer : Except InternalError α} {f : α → Fallible Bool} {Q : α → Prop}
    (hf : ∀ a, answer = .ok a → Decides before (f a) (Q a)) :
    Decides before (ExceptT.mk (pure answer) >>= f) (∃ a, answer = .ok a ∧ Q a) := by
  rw [Decides, passes_bind_iff]
  have hrun : (ExceptT.mk (pure answer) : Fallible α).run.value = answer := rfl
  rw [hrun]
  constructor
  · rintro ⟨a, ha, hrest⟩
    obtain ⟨hbefore, hQ⟩ := (hf a ha).mp hrest
    exact ⟨hbefore, a, ha, hQ⟩
  · rintro ⟨hbefore, a, ha, hQ⟩
    exact ⟨a, ha, (hf a ha).mpr ⟨hbefore, hQ⟩⟩

theorem lift {x : Reporting Bool} (h : x.value = true ↔ P) : Decides true (liftM x) P := by
  rw [Decides, passes_lift, h, eq_self_iff_true, true_and]

/-- A check that can fail for one reason passes when there is none. -/
theorem verdict {fault : Option Diagnostic} (h : fault = none ↔ P) :
    Decides true (liftM (Reporting.verdict fault)) P :=
  lift (by rw [Reporting.value_verdict, Option.isNone_iff_eq_none, h])

theorem reject {d : Diagnostic} : Decides before (liftM (Reporting.reject d)) False := by
  simp [Decides, Reporting.reject]

theorem abandon {e : InternalError} : Decides before (throw e) False := by
  rw [Decides, Fallible.passes_iff, and_false, iff_false]
  intro h
  cases h

/-- A part that only runs while the verdict is positive. -/
theorem while_positive {a : Bool} (h : Decides before x P) :
    Decides (before && a) (if a then x else pure false) P := by
  cases a with
  | false => simp [Decides]
  | true => simpa using h

theorem guard {a : Bool} (h : Decides before x P) :
    Decides (before && a) (if !a then pure false else x) P := by
  cases a with
  | false => simp [Decides]
  | true => simpa using h

/-- Advice changes no verdict. -/
theorem advise {d : Diagnostic} (h : Decides before x P) :
    Decides before (do liftM (Reporting.report d); x) P :=
  h

protected theorem checkEach {check : α → Fallible Bool} {P : α → Prop} {xs : List α}
    (h : ∀ x ∈ xs, Decides true (check x) (P x)) :
    Decides true (checkEach check xs) (∀ x ∈ xs, P x) := by
  rw [Decides, passes_checkEach_iff, eq_self_iff_true, true_and]
  exact forall₂_congr fun x hx => (h x hx).passes_iff

end Decides

end Fallible

/-! ### What passing checks report -/

/-- A check that reports nothing if its verdict is positive. -/
def Reporting.Silent (x : Reporting Bool) : Prop :=
  x.value = true → x.diagnostics = []

namespace Reporting.Silent

/-- A check that can fail for one reason reports nothing else. -/
theorem verdict {fault : Option Diagnostic} : Silent (Reporting.verdict fault) := by
  cases fault with
  | none => exact fun _ => rfl
  | some d => exact fun h => absurd h Bool.false_ne_true

protected theorem checkEach {α : Type} {check : α → Reporting Bool} {xs : List α}
    (h : ∀ x ∈ xs, (check x).Silent) : Silent (checkEach check xs) := by
  intro hvalue
  rw [value_checkEach, List.all_eq_true] at hvalue
  rw [diagnostics_checkEach, List.flatMap_eq_nil_iff]
  exact fun x hx => h x hx (hvalue x hx)

/-- Two parts that are both checked. -/
theorem and {x y : Reporting Bool} (hx : x.Silent) (hy : y.Silent) :
    Silent (x >>= fun a => y >>= fun b => pure (a && b)) := by
  intro hvalue
  obtain ⟨ha, hb⟩ := Bool.and_eq_true_iff.mp hvalue
  simp [hx ha, hy hb]

end Reporting.Silent

namespace Fallible

/-- Given the verdict so far, a check that passes has reported exactly the given diagnostics. -/
def Reports (before : Bool) (x : Fallible Bool) (ds : List Diagnostic) : Prop :=
  x.passes = true → before = true ∧ x.run.diagnostics = ds

namespace Reports

variable {before : Bool} {x : Fallible Bool} {ds ds' : List Diagnostic}

protected theorem pure {b : Bool} (h : b = before) : Reports before (pure b) [] :=
  fun hpasses => ⟨by rwa [passes_pure, h] at hpasses, rfl⟩

theorem bind {f : Bool → Fallible Bool} (hx : Reports true x ds)
    (hf : ∀ a, Reports (before && a) (f a) ds') : Reports before (x >>= f) (ds ++ ds') := by
  intro hpasses
  obtain ⟨a, ha, hrest⟩ := passes_bind_iff.mp hpasses
  obtain ⟨hboth, hdiagnostics⟩ := hf a hrest
  obtain ⟨hbefore, rfl⟩ := Bool.and_eq_true_iff.mp hboth
  rw [run_bind_of_ok ha, hdiagnostics, (hx (passes_iff.mpr ha)).2]
  exact ⟨hbefore, rfl⟩

/-- A part in front that reports nothing and whose answer is no verdict. -/
theorem bind_answer {α : Type} {answer : Except InternalError α} {f : α → Fallible Bool}
    (hf : ∀ a, answer = .ok a → Reports before (f a) ds) :
    Reports before (ExceptT.mk (pure answer) >>= f) ds := by
  intro hpasses
  obtain ⟨a, ha, hrest⟩ := passes_bind_iff.mp hpasses
  obtain ⟨hbefore, hdiagnostics⟩ := hf a ha hrest
  rw [run_bind_of_ok ha]
  exact ⟨hbefore, hdiagnostics⟩

theorem lift {x : Reporting Bool} (h : x.Silent) : Reports true (liftM x) [] := by
  intro hpasses
  rw [passes_lift] at hpasses
  have hrun : (liftM x : Fallible Bool).run.diagnostics = x.diagnostics ++ [] := rfl
  rw [hrun, h hpasses]
  exact ⟨rfl, rfl⟩

theorem guard {a : Bool} (h : Reports before x ds) :
    Reports (before && a) (if !a then pure false else x) ds := by
  cases a with
  | false => exact fun hpasses => absurd hpasses (by simp)
  | true => simpa using h

theorem while_positive {a : Bool} (h : Reports before x ds) :
    Reports (before && a) (if a then x else pure false) ds := by
  cases a with
  | false => exact fun hpasses => absurd hpasses (by simp)
  | true => simpa using h

/-- A part in front that reports nothing. -/
theorem bind_silent {f : Bool → Fallible Bool} (hx : Reports true x [])
    (hf : ∀ a, Reports (before && a) (f a) ds) : Reports before (x >>= f) ds :=
  hx.bind hf

/-- A part in front of parts that report nothing. -/
theorem before_silent {f : Bool → Fallible Bool} (hx : Reports true x ds)
    (hf : ∀ a, Reports (before && a) (f a) []) : Reports before (x >>= f) ds :=
  List.append_nil ds ▸ hx.bind hf

/-- The last part before the verdicts are joined. -/
theorem last {f : Bool → Fallible Bool} (hx : Reports true x ds)
    (hf : ∀ a, f a = pure (before && a)) : Reports before (x >>= f) ds :=
  hx.before_silent fun a => hf a ▸ .pure rfl

theorem advise {d : Diagnostic} (h : Reports before x ds) :
    Reports before (do liftM (Reporting.report d); x) (d :: ds) := by
  intro hpasses
  obtain ⟨hbefore, hdiagnostics⟩ := h hpasses
  exact ⟨hbefore, congrArg (d :: ·) hdiagnostics⟩

theorem reject {d : Diagnostic} : Reports before (liftM (Reporting.reject d)) ds := by
  intro hpasses
  rw [passes_lift] at hpasses
  cases hpasses

theorem abandon {e : InternalError} : Reports before (throw e) ds := by
  intro hpasses
  cases passes_iff.mp hpasses

/-- A check of every element reports what the checks of the elements do, in order. -/
protected theorem checkEach {α : Type} {check : α → Fallible Bool} {f : α → List Diagnostic}
    {xs : List α} (h : ∀ x ∈ xs, Reports true (check x) (f x)) :
    Reports true (checkEach check xs) (xs.flatMap f) := by
  induction xs with
  | nil => exact .pure rfl
  | cons x xs ih =>
    rw [List.forall_mem_cons] at h
    rw [InterfaceDefinition.checkEach, List.flatMap_cons]
    exact h.1.bind fun _ => (ih h.2).last fun _ => rfl

theorem checkEach_silent {α : Type} {check : α → Fallible Bool} {xs : List α}
    (h : ∀ x ∈ xs, Reports true (check x) []) :
    Reports true (InterfaceDefinition.checkEach check xs) [] := by
  have hall := Reports.checkEach h
  rwa [List.flatMap_eq_nil_iff.mpr fun _ _ => rfl] at hall

end Reports

end Fallible

end InterfaceDefinition
