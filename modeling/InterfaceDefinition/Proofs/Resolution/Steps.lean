import InterfaceDefinition.Proofs.Resolution.Passes

/-!
# Passes as runs of steps

A pass over a list goes through the elements in order: each step turns an element into another one,
moves the progress on and reports. `Pass.Steps R` is such a run of steps of a relation `R`, and
`Pass.Takes R a x` says that the pass `x` takes the element `a` by a step of `R`, from whatever
progress it starts.

Structures are traversed through a *view*, the list of the elements in them that the pass changes:
a pass that takes the view of each part by a run of steps takes the view of the whole by the runs
one after the other (`Pass.Takes.mapM`).
-/

namespace InterfaceDefinition

namespace Pass

/-- What a step may do: the element and the progress before it, the element and the progress after
it, and what it reports. -/
abbrev StepRel (α : Type) : Type :=
  α → Progress → α → Progress → List Diagnostic → Prop

/-- Steps through a list, from the first element to the last. -/
inductive Steps {α : Type} (R : StepRel α) :
    List α → Progress → List α → Progress → List Diagnostic → Prop
  | nil (p : Progress) : Steps R [] p [] p []
  | cons {a b : α} {as bs : List α} {p p' p'' : Progress} {ds ds' : List Diagnostic}
      (head : R a p b p' ds) (tail : Steps R as p' bs p'' ds') :
      Steps R (a :: as) p (b :: bs) p'' (ds ++ ds')

namespace Steps

variable {α : Type} {R R' : StepRel α} {as bs as' bs' : List α} {p p' p'' : Progress}
  {ds ds' : List Diagnostic}

/-- Steps over two lists in turn are steps over both, with what was reported one behind the other.
-/
theorem append (h : Steps R as p bs p' ds) (h' : Steps R as' p' bs' p'' ds') :
    Steps R (as ++ as') p (bs ++ bs') p'' (ds ++ ds') := by
  induction h with
  | nil => exact h'
  | cons head _ ih =>
    rw [List.append_assoc]
    exact .cons head (ih h')

theorem isEmpty_eq (h : Steps R as p bs p' ds) : bs.isEmpty = as.isEmpty := by
  cases h <;> rfl

theorem mono (hR : ∀ a p b p' ds, R a p b p' ds → R' a p b p' ds) (h : Steps R as p bs p' ds) :
    Steps R' as p bs p' ds := by
  induction h with
  | nil p => exact .nil p
  | cons head _ ih => exact .cons (hR _ _ _ _ _ head) ih

/-- Every element after the run comes from one before it, by a step. -/
theorem exists_of_mem (h : Steps R as p bs p' ds) {b : α} (hb : b ∈ bs) :
    ∃ a ∈ as, ∃ p p' ds, R a p b p' ds := by
  induction h with
  | nil => simp at hb
  | cons head _ ih =>
    rcases List.mem_cons.mp hb with rfl | hb
    · exact ⟨_, List.mem_cons_self, _, _, _, head⟩
    · obtain ⟨a, ha, hstep⟩ := ih hb
      exact ⟨a, List.mem_cons_of_mem _ ha, hstep⟩

/-- What every step keeps is the same at every position. -/
theorem map_eq {β : Type} {f : α → β} (hf : ∀ a p b p' ds, R a p b p' ds → f b = f a)
    (h : Steps R as p bs p' ds) : bs.map f = as.map f := by
  induction h with
  | nil => rfl
  | cons head _ ih => rw [List.map_cons, List.map_cons, hf _ _ _ _ _ head, ih]

/-- What is true of the progress at the end of a run is traced back through the steps to its
beginning, when each step needs it before to have it afterwards. What the steps then make of the
elements is so for all of them. What is known of all reports of the run may be used at each step. -/
theorem traced_back_reporting {E : Diagnostic → Prop} {G : Progress → Prop} {Q : α → Prop}
    (hR : ∀ a p b p' ds, R a p b p' ds → (∀ d ∈ ds, E d) → G p' → G p ∧ Q b)
    (h : Steps R as p bs p' ds) (hds : ∀ d ∈ ds, E d) (hp' : G p') : G p ∧ ∀ b ∈ bs, Q b := by
  induction h with
  | nil => exact ⟨hp', by simp⟩
  | cons head _ ih =>
    obtain ⟨hfirst, hrest⟩ := List.forall_mem_append.mp hds
    obtain ⟨hmiddle, htail⟩ := ih hrest hp'
    obtain ⟨hstart, hhead⟩ := hR _ _ _ _ _ head hfirst hmiddle
    exact ⟨hstart, List.forall_mem_cons.mpr ⟨hhead, htail⟩⟩

/-- The same where nothing need be known of the reports. -/
theorem traced_back {G : Progress → Prop} {Q : α → Prop}
    (hR : ∀ a p b p' ds, R a p b p' ds → G p' → G p ∧ Q b) (h : Steps R as p bs p' ds)
    (hp' : G p') : G p ∧ ∀ b ∈ bs, Q b :=
  h.traced_back_reporting (E := fun _ => True)
    (fun a p b p' ds hstep _ => hR a p b p' ds hstep) (fun _ _ => trivial) hp'

/-- Where each step reports what the element that it leaves calls for, so does a run. What is true
of the progress at the end is traced back to the beginning again. -/
theorem reports_eq {G : Progress → Prop} {report : α → List Diagnostic}
    (hR : ∀ a p b p' ds, R a p b p' ds → G p' → G p ∧ ds = report b) (h : Steps R as p bs p' ds)
    (hp' : G p') : G p ∧ ds = bs.flatMap report := by
  induction h with
  | nil => exact ⟨hp', rfl⟩
  | cons head _ ih =>
    obtain ⟨hmiddle, htail⟩ := ih hp'
    obtain ⟨hstart, hhead⟩ := hR _ _ _ _ _ head hmiddle
    exact ⟨hstart, by rw [List.flatMap_cons, hhead, htail]⟩

/-- What is true of the reports of each step is true of those of the run. -/
theorem forall_reports {E : Diagnostic → Prop}
    (hR : ∀ a p b p' ds, R a p b p' ds → ∀ d ∈ ds, E d) (h : Steps R as p bs p' ds) :
    ∀ d ∈ ds, E d := by
  induction h with
  | nil => simp
  | cons head _ ih => exact List.forall_mem_append.mpr ⟨hR _ _ _ _ _ head, ih⟩

/-- After an internal error nothing happens any more. -/
theorem ended {e : InternalError} (hR : ∀ a ∈ as, R a (.error e) a (.error e) []) :
    Steps R as (.error e) as (.error e) [] := by
  induction as with
  | nil => exact .nil _
  | cons a as ih =>
    rw [List.forall_mem_cons] at hR
    exact .cons hR.1 (ih hR.2)

end Steps

/-- A run of steps through the part of a structure that a view shows. -/
def Through {α β : Type} (view : β → List α) (R : StepRel α) : StepRel β :=
  fun b p c p' ds => Steps R (view b) p (view c) p' ds

/-- Runs through the parts of a list make a run through the whole. -/
theorem Steps.flatMap {α β : Type} {R : StepRel α} {view : β → List α} {bs cs : List β}
    {p p' : Progress} {ds : List Diagnostic} (h : Steps (Through view R) bs p cs p' ds) :
    Through (·.flatMap view) R bs p cs p' ds := by
  induction h with
  | nil p => exact .nil p
  | cons head _ ih => exact head.append ih

/-! ### Passes that take steps -/

/-- A pass takes an element by a step of a relation, from whatever progress it starts. -/
def Takes {α : Type} (R : StepRel α) (a : α) (x : Pass α) : Prop :=
  ∀ p, R a p (x.run p).value.1 (x.run p).value.2 (x.run p).diagnostics

/-- What is made of an answer belongs to the step that gives it. -/
theorem Takes.bind_pure {α β : Type} {R : StepRel β} {b : β} {x : Pass α} {g : α → β}
    (h : ∀ p, R b p (g (x.run p).value.1) (x.run p).value.2 (x.run p).diagnostics) :
    Takes R b (x >>= fun a => pure (g a)) := by
  intro p
  rw [run_bind]
  simp only [run_pure, List.append_nil]
  exact h p

/-- Behind the guard a pass takes the same steps, and one that leaves everything as it is once the
pass has ended. -/
theorem Takes.guarded {α : Type} {R : StepRel α} {a : α} {x : Pass α} (h : Takes R a x)
    (hended : ∀ e, R a (.error e) a (.error e) []) : Takes R a (Pass.guarded a x) := by
  intro p
  cases p with
  | error e => exact hended e
  | ok b => exact h (.ok b)

/-- A pass over a list takes its elements one after the other. -/
theorem Takes.mapM {α : Type} {R : StepRel α} {f : α → Pass α} {as : List α}
    (h : ∀ a ∈ as, Takes R a (f a)) : Takes (Steps R) as (as.mapM f) := by
  induction as with
  | nil => exact fun p => .nil p
  | cons a as ih =>
    rw [List.forall_mem_cons] at h
    intro p
    rw [List.mapM_cons, run_bind, run_bind]
    simp only [run_pure, List.append_nil]
    -- the rest starts from the progress that the first element leaves
    exact .cons (h.1 p) (ih h.2 _)

end Pass

end InterfaceDefinition
