import InterfaceDefinition.Proofs.Resolution.Documents
import Mathlib.Data.List.Perm.Basic

/-!
# Passes after a failure

A failure that was noted before does not matter to a pass: it finds and reports the same, and notes
its own failures on top (`Pass.Uniform`). Both passes over declarations are uniform, since they are
put together from steps that are (`Decl.uniform_resolve`, `Decl.uniform_complete`).

So what a pass makes of a list whose elements do not end it is known from what it makes of each
element by itself, in whatever order it comes to them (`Pass.run_mapM_guarded`,
`Pass.outcomes_perm`). In particular resolution of a document without resolved names and completion
of any document are known from each declaration (`Registry.resolveDocument_eq`,
`Registry.completeDocument_eq`).
-/

namespace InterfaceDefinition

open Pass

namespace Pass

variable {α β : Type}

/-- A pass that does the same after a failure as before one, and that leaves a pass that has ended
ended. -/
structure Uniform (pass : Pass α) : Prop where
  run_ok : ∀ b, pass.run (.ok b) =
    ⟨(pass.start.value.1, pass.start.value.2.map (b && ·)), pass.start.diagnostics⟩
  run_error : ∀ e, ∃ e', (pass.run (.error e)).value.2 = .error e'

namespace Uniform

protected theorem pure (a : α) : Uniform (pure a : Pass α) where
  run_ok b := by simp [start, Except.map]
  run_error e := ⟨e, rfl⟩

theorem lift (x : Reporting α) : Uniform (liftM x : Pass α) where
  run_ok b := by simp [start, Except.map]
  run_error e := ⟨e, by simp⟩

theorem fail : Uniform Pass.fail where
  run_ok b := by
    have hrun : ∀ b, Pass.fail.run (.ok b) = ⟨((), .ok false), []⟩ := fun _ => rfl
    simp [start, hrun, Except.map]
  run_error e := ⟨e, rfl⟩

theorem abort (e : InternalError) : Uniform (Pass.abort e) where
  run_ok _ := rfl
  run_error _ := ⟨e, rfl⟩

/-- Both halves of a sequence go on in the same way from whatever progress they find. -/
theorem bind {pass : Pass α} {next : α → Pass β} (h : pass.Uniform)
    (hnext : ∀ a, (next a).Uniform) : (pass >>= next).Uniform where
  run_ok b := by
    have hstart := h.run_ok b
    rcases heq : pass.start with ⟨⟨a, p⟩, ds⟩
    rw [heq] at hstart
    have hrun : (pass >>= next).start =
        ⟨((next a).run p).value, ds ++ ((next a).run p).diagnostics⟩ := by
      rw [start, run_bind, show pass.run (.ok true) = _ from heq]
    rw [run_bind, hstart, hrun]
    cases p with
    | error e =>
      -- the rest keeps the pass ended, so no failure is noted on top
      obtain ⟨e', he'⟩ := (hnext a).run_error e
      simp only [Except.map, he']
      rw [← he']
    | ok c =>
      simp only [Except.map, (hnext a).run_ok c, (hnext a).run_ok (b && c)]
      cases (next a).start.value.2 <;> simp [Bool.and_assoc]
  run_error e := by
    obtain ⟨e', he'⟩ := h.run_error e
    rw [run_bind, he']
    exact (hnext _).run_error e'

/-- The guard looks only at whether the pass has ended before, so a guarded pass is uniform when the
pass behind the guard is. -/
theorem guarded {unchanged : α} {pass : Pass α} (h : pass.Uniform) :
    (Pass.guarded unchanged pass).Uniform where
  run_ok b := by
    rw [run_guarded_ok, start, run_guarded_ok]
    exact h.run_ok b
  run_error e := ⟨e, rfl⟩

/-- By induction on the list, as each step is uniform and hands its progress on. -/
theorem mapM {step : α → Pass β} (h : ∀ a, (step a).Uniform) (as : List α) :
    (as.mapM step).Uniform := by
  induction as with
  | nil => exact .pure []
  | cons a as ih =>
    rw [List.mapM_cons]
    exact .bind (h a) fun _ => .bind ih fun _ => .pure _

end Uniform

/-! ### Passes over lists -/

/-- Whether a pass succeeds from its beginning. -/
def succeeds (pass : Pass α) : Bool :=
  pass.start.value.2.toOption == some true

/-- A pass succeeds when it ends with a positive verdict. -/
theorem succeeds_iff {pass : Pass α} : pass.succeeds = true ↔ pass.start.value.2 = .ok true := by
  rw [succeeds, beq_iff_eq, toOption_eq_some_iff]

variable {step : α → Pass α} {as : List α}

/-- What a pass makes of a list after a failure or before one. -/
theorem run_mapM_guarded (huniform : ∀ a, (step a).Uniform)
    (hok : ∀ a ∈ as, ∃ b, (step a).start.value.2 = .ok b) (b : Bool) :
    (as.mapM fun a => Pass.guarded a (step a)).run (.ok b) =
      ⟨(as.map fun a => (step a).start.value.1, .ok (b && as.all fun a => (step a).succeeds)),
        as.flatMap fun a => (step a).start.diagnostics⟩ := by
  induction as generalizing b with
  | nil => simp
  | cons a as ih =>
    rw [List.forall_mem_cons] at hok
    obtain ⟨⟨c, hc⟩, hok⟩ := hok
    have hsucceeds : (step a).succeeds = c := by simp [succeeds, hc, Except.toOption]
    rw [List.mapM_cons, run_bind, run_guarded_ok, (huniform a).run_ok b, hc, run_bind]
    simp only [Except.map, ih hok, run_pure, hsucceeds, List.map_cons, List.all_cons,
      List.flatMap_cons, List.append_nil, Bool.and_assoc]

/-- Two passes that agree on every element succeed together on a list in two orders, and report the
same up to order. -/
theorem outcomes_perm (pass pass' : α → Pass β) {as as' : List α} (hperm : as.Perm as')
    (h : ∀ a ∈ as, (pass' a).start.value.2 = (pass a).start.value.2 ∧
      (pass' a).start.diagnostics = (pass a).start.diagnostics) :
    (as'.all fun a => (pass' a).succeeds) = (as.all fun a => (pass a).succeeds) ∧
      (as.flatMap fun a => (pass a).start.diagnostics).Perm
        (as'.flatMap fun a => (pass' a).start.diagnostics) := by
  refine ⟨?_, hperm.flatMap fun a ha => .of_eq (h a ha).2.symm⟩
  rw [← hperm.all_eq, Bool.eq_iff_iff, List.all_eq_true, List.all_eq_true]
  refine forall₂_congr fun a ha => ?_
  simp only [succeeds, (h a ha).1]

end Pass

/-! ### Resolution -/

namespace TypeSpec

theorem uniform_resolveName (resolver : Resolver) (loc : Location) (name : TypeName) :
    (resolveName resolver loc name).Uniform := by
  rw [resolveName]
  split
  · exact .bind (.abort _) fun _ => .pure _
  · refine .bind (.lift _) fun resolution => ?_
    cases resolution with
    | some resolution => exact .pure _
    | none => exact .bind (.lift _) fun _ => .bind .fail fun _ => .pure _

mutual

theorem uniform_resolve (resolver : Resolver) : (t : TypeSpec) → (t.resolve resolver).Uniform
  | ⟨loc, base, arguments, isArray, annotations, comments⟩ => by
    rw [resolve]
    exact .bind (.guarded (uniform_resolveName ..)) fun _ =>
      .bind (uniform_resolveAll resolver arguments) fun _ => .pure _

theorem uniform_resolveAll (resolver : Resolver) :
    (ts : List TypeSpec) → (resolveAll resolver ts).Uniform
  | [] => by
    rw [resolveAll]
    exact .pure _
  | t :: rest => by
    rw [resolveAll]
    exact .bind (uniform_resolve resolver t) fun _ =>
      .bind (uniform_resolveAll resolver rest) fun _ => .pure _

end

end TypeSpec

section Traversals

variable {f : TypeSpec → Pass TypeSpec} (hf : ∀ t, (f t).Uniform)
include hf

theorem Members.uniform_mapTypesM (ms : Members) : (ms.mapTypesM f).Uniform :=
  .bind (.mapM (fun _ => .bind (hf _) fun _ => .pure _) _) fun _ =>
    .bind (.mapM (fun _ => .bind (hf _) fun _ => .pure _) _) fun _ =>
      .bind (.mapM (fun _ => .bind (hf _) fun _ =>
        .bind (.mapM (fun _ => .bind (hf _) fun _ => .pure _) _) fun _ => .pure _) _) fun _ =>
          .pure _

theorem Decl.uniform_mapTypesM (d : Decl) : (d.mapTypesM f).Uniform := by
  obtain ⟨header, body⟩ := d
  cases body with
  | parcelable => exact .pure _
  | structured _ members => exact .bind (members.uniform_mapTypesM hf) fun _ => .pure _
  | union _ members => exact .bind (members.uniform_mapTypesM hf) fun _ => .pure _
  | enum _ _ members => exact .bind (members.uniform_mapTypesM hf) fun _ => .pure _
  | interface _ members => exact .bind (members.uniform_mapTypesM hf) fun _ => .pure _

end Traversals

/-- What resolution makes of a declaration does not depend on those that were resolved before, as
long as none of them ended the pass. -/
theorem Decl.uniform_resolve (r : Registry) (imports : List Import) (d : Decl) :
    (d.resolve r imports).Uniform :=
  d.uniform_mapTypesM (TypeSpec.uniform_resolve _)

/-! ### Completion -/

theorem AnnotationSet.uniform_backing (s : AnnotationSet) : s.backing.Uniform := by
  rw [backing]
  cases s.get? .backing with
  | none => exact .pure _
  | some a =>
    refine .bind (.lift _) fun valid => ?_
    split
    · cases a.paramString? "type" with
      | some name => exact .pure _
      | none => exact .bind (.abort _) fun _ => .pure _
    · exact .bind .fail fun _ => .pure _

/-- What completion makes of a declaration does not depend on the others either. -/
theorem Decl.uniform_complete (r : Registry) (imports : List Import) (d : Decl) :
    (d.complete r imports).Uniform := by
  obtain ⟨header, body⟩ := d
  cases body with
  | enum enumerators old members =>
    refine .bind header.annotations.uniform_backing fun backing => ?_
    cases backing with
    | none => exact .pure _
    | some backing =>
      dsimp only
      split
      · exact .bind (.abort _) fun _ => .pure _
      · split
        · exact .pure _
        · exact .bind (.lift _) fun _ => .pure _
  | _ => exact .pure _

/-! ### Documents -/

/-- A declaration without resolved names does not end resolution. -/
theorem Decl.exists_start_resolve {r : Registry} {imports : List Import} {d : Decl}
    (h : ∀ t ∈ d.nodes, t.base.isResolved = false) :
    ∃ b, (d.resolve r imports).start.value.2 = .ok b := by
  obtain ⟨hsteps, -⟩ := d.takes_resolve r imports (.ok true)
  have hany : Steps TypeSpec.AnyResolveStep _ _ _ _ _ :=
    hsteps.mono fun _ _ _ _ _ hname => ⟨_, hname⟩
  have hprogress := hany.progress_of_ok rfl
  rw [List.find?_eq_none.mpr fun t ht => by simp [h t ht]] at hprogress
  exact hprogress

/-- No declaration ends completion. -/
theorem Decl.exists_start_complete (r : Registry) (imports : List Import) (d : Decl) :
    ∃ b, (d.complete r imports).start.value.2 = .ok b :=
  (d.takes_complete r imports (.ok true)).exists_progress_of_ok rfl

namespace Registry

variable {r : Registry} {number : Nat} {doc : Document} (hdoc : r.document? number = some doc)
include hdoc

/-- A pass that no declaration of the document ends, from what it makes of each declaration. -/
theorem runPass_eq (step : List Import → Decl → Pass Decl)
    (huniform : ∀ d, (step doc.imports d).Uniform)
    (hok : ∀ d ∈ doc.decls, ∃ b, (step doc.imports d).start.value.2 = .ok b) :
    r.runPass number step =
      ⟨(r.withDecls number doc (doc.decls.map fun d => (step doc.imports d).start.value.1),
          .ok (doc.decls.all fun d => (step doc.imports d).succeeds)),
        doc.decls.flatMap fun d => (step doc.imports d).start.diagnostics⟩ := by
  have hrun := run_mapM_guarded huniform hok true
  rw [runPass_of_some hdoc, start, hrun]
  simp only [Bool.true_and]

/-- Resolution of a document without resolved names, from what it makes of each declaration. -/
theorem resolveDocument_eq (hfresh : ∀ d ∈ doc.decls, ∀ t ∈ d.nodes, t.base.isResolved = false) :
    r.resolveDocument number =
      ⟨(r.withDecls number doc (doc.decls.map fun d => (d.resolve r doc.imports).start.value.1),
          .ok (doc.decls.all fun d => (d.resolve r doc.imports).succeeds)),
        doc.decls.flatMap fun d => (d.resolve r doc.imports).start.diagnostics⟩ :=
  runPass_eq hdoc (Decl.resolve r) (Decl.uniform_resolve r doc.imports)
    fun d hd => Decl.exists_start_resolve (hfresh d hd)

/-- Completion of a document, from what it makes of each declaration. -/
theorem completeDocument_eq :
    r.completeDocument number =
      ⟨(r.withDecls number doc (doc.decls.map fun d => (d.complete r doc.imports).start.value.1),
          .ok (doc.decls.all fun d => (d.complete r doc.imports).succeeds)),
        doc.decls.flatMap fun d => (d.complete r doc.imports).start.diagnostics⟩ :=
  runPass_eq hdoc (Decl.complete r) (Decl.uniform_complete r doc.imports)
    fun d _ => d.exists_start_complete r doc.imports

end Registry

end InterfaceDefinition
