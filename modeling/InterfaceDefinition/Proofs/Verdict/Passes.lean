import InterfaceDefinition.Proofs.Resolution.Passes
import InterfaceDefinition.Proofs.Verdict.Checks

/-!
# Failing passes say so

A pass is **vocal** when it never turns to failure without reporting an error, and its errors
belong to no advisory. This is weaker than honesty: completion reports a backing type that stands
for nothing and goes on as if nothing had failed. Resolution and completion are vocal
(`Registry.vocal_resolveDocument`, `Registry.vocal_completeDocument`), also where they are ended by
an internal error.
-/

namespace InterfaceDefinition

/-- Whether the progress is that of a pass in which something failed. -/
def Progress.Failed (p : Progress) : Prop :=
  p = .ok false

/-- What is reported accounts for a change of progress. -/
structure VocalStep (before after : Progress) (reported : List Diagnostic) : Prop where
  exists_error : after.Failed → before.Failed ∨ ∃ d ∈ reported, d.isError = true
  isHard : ∀ d ∈ reported, d.isError = true → d.IsHard

/-- A pass that reports an error when it turns to failure. -/
def Pass.Vocal {α : Type} (pass : Pass α) : Prop :=
  ∀ p, VocalStep p (pass.run p).value.2 (pass.run p).diagnostics

namespace VocalStep

variable {p p' p'' : Progress} {ds ds' : List Diagnostic}

theorem append (h : VocalStep p p' ds) (h' : VocalStep p' p'' ds') :
    VocalStep p p'' (ds ++ ds') := by
  refine ⟨fun hfailed => ?_, List.forall_mem_append.mpr ⟨h.isHard, h'.isHard⟩⟩
  -- the failure was noted in one of the two parts, or before both
  rcases h'.exists_error hfailed with hmiddle | ⟨d, hd, herror⟩
  · rcases h.exists_error hmiddle with hfirst | ⟨d, hd, herror⟩
    · exact .inl hfirst
    · exact .inr ⟨d, List.mem_append_left _ hd, herror⟩
  · exact .inr ⟨d, List.mem_append_right _ hd, herror⟩

theorem unchanged (h : ∀ d ∈ ds, d.isError = true → d.IsHard) : VocalStep p p ds :=
  ⟨.inl, h⟩

theorem ended (e : InternalError) : VocalStep p (.error e) [] :=
  ⟨fun h => by simp [Progress.Failed] at h, by simp⟩

/-- After a hard error any progress is accounted for. -/
theorem of_mem {d : Diagnostic} (hd : d ∈ ds) (herror : d.isError = true)
    (h : ∀ d ∈ ds, d.isError = true → d.IsHard) : VocalStep p p' ds :=
  ⟨fun _ => .inr ⟨d, hd, herror⟩, h⟩

end VocalStep

namespace Pass.Vocal

variable {α β : Type}

protected theorem pure (a : α) : (pure a : Pass α).Vocal := fun _ =>
  VocalStep.unchanged (by simp)

theorem bind {x : Pass α} {f : α → Pass β} (hx : x.Vocal) (hf : ∀ a, (f a).Vocal) :
    (x >>= f).Vocal := fun p =>
  (hx p).append (hf _ _)

theorem abort (e : InternalError) : (Pass.abort e).Vocal := fun _ =>
  VocalStep.ended e

theorem lift {x : Reporting α} (h : ∀ d ∈ x.diagnostics, d.isError = true → d.IsHard) :
    (liftM x : Pass α).Vocal := fun p => by
  rw [Pass.run_lift]
  exact VocalStep.unchanged h

theorem guarded {a : α} {x : Pass α} (h : x.Vocal) : (Pass.guarded a x).Vocal := fun p => by
  cases p with
  | error e => exact VocalStep.unchanged (by simp)
  | ok b => exact h (.ok b)

/-- A failure is noted behind the error that reports it. -/
theorem reported_fail {d : Diagnostic} (h : d.IsHard) (a : α) :
    (do liftM (Reporting.report d); Pass.fail; return a : Pass α).Vocal := fun p => by
  have hrun : (do liftM (Reporting.report d); Pass.fail; return a : Pass α).run p =
      ⟨(a, p.map fun _ => false), [d]⟩ := rfl
  rw [hrun]
  exact VocalStep.of_mem (List.mem_singleton_self d) h.1 (by simpa using fun _ => h)

protected theorem mapM {f : α → Pass β} {xs : List α} (h : ∀ x ∈ xs, (f x).Vocal) :
    (xs.mapM f).Vocal := by
  induction xs with
  | nil => exact Vocal.pure []
  | cons x xs ih =>
    rw [List.forall_mem_cons] at h
    rw [List.mapM_cons]
    exact bind h.1 fun _ => bind (ih h.2) fun _ => Vocal.pure _

end Pass.Vocal

/-! ### Resolution -/

/-- Ambiguous imports are the only thing that reading a name reports. -/
theorem Import.isHard_of_mem_resolveName {imports : List Import} {name : String} {d : Diagnostic}
    (h : d ∈ (resolveName imports name).diagnostics) : d.IsHard := by
  rw [resolveName] at h
  split at h
  · simp at h
  · split at h
    · obtain rfl := List.mem_singleton.mp h
      exact Diagnostic.isHard_error ..
    · simp at h

theorem Registry.isHard_of_mem_resolver {r : Registry} {imports : List Import} {package : String}
    {typeParams : List String} {name : String} {d : Diagnostic}
    (h : d ∈ (r.resolver imports package typeParams name).diagnostics) : d.IsHard := by
  rw [resolver] at h
  split at h
  · simp at h
  · rw [Reporting.bind_def] at h
    rcases List.mem_append.mp h with h | h
    · exact Import.isHard_of_mem_resolveName h
    · split at h <;> simp at h

namespace TypeSpec

variable {resolver : Resolver}

theorem vocal_resolveName (hr : ∀ name, ∀ d ∈ (resolver name).diagnostics, d.IsHard)
    (loc : Location) (name : TypeName) :
    (resolveName resolver loc name).Vocal := by
  rw [resolveName]
  split
  · exact .bind (.abort _) fun _ => .pure _
  · refine .bind (.lift fun d hd _ => hr _ d hd) fun answer => ?_
    cases answer with
    | some resolution => exact .pure _
    | none => exact .reported_fail (Diagnostic.isHard_error ..) name

mutual

theorem vocal_resolve (hr : ∀ name, ∀ d ∈ (resolver name).diagnostics, d.IsHard) :
    (t : TypeSpec) → (t.resolve resolver).Vocal
  | ⟨loc, base, arguments, _, _, _⟩ => by
    rw [resolve]
    exact .bind (.guarded (vocal_resolveName hr loc base)) fun _ =>
      .bind (vocal_resolveAll hr arguments) fun _ => .pure _

theorem vocal_resolveAll (hr : ∀ name, ∀ d ∈ (resolver name).diagnostics, d.IsHard) :
    (ts : List TypeSpec) → (resolveAll resolver ts).Vocal
  | [] => by
    rw [resolveAll]
    exact .pure []
  | t :: rest => by
    rw [resolveAll]
    exact .bind (vocal_resolve hr t) fun _ => .bind (vocal_resolveAll hr rest) fun _ => .pure _

end

end TypeSpec

theorem Members.vocal_mapTypesM {f : TypeSpec → Pass TypeSpec} (h : ∀ t, (f t).Vocal)
    (ms : Members) : (ms.mapTypesM f).Vocal :=
  .bind (.mapM fun field _ => .bind (h field.type) fun _ => .pure _) fun _ =>
    .bind (.mapM fun const _ => .bind (h const.type) fun _ => .pure _) fun _ =>
      .bind (.mapM fun method _ =>
        .bind (h method.returnType) fun _ =>
          .bind (.mapM fun arg _ => .bind (h arg.type) fun _ => .pure _) fun _ => .pure _)
        fun _ => .pure _

theorem Decl.vocal_mapTypesM {f : TypeSpec → Pass TypeSpec} (h : ∀ t, (f t).Vocal) (d : Decl) :
    (d.mapTypesM f).Vocal := by
  rw [mapTypesM]
  split
  · exact .pure d
  · exact .bind (Members.vocal_mapTypesM h _) fun _ => .pure _
  · exact .bind (Members.vocal_mapTypesM h _) fun _ => .pure _
  · exact .bind (Members.vocal_mapTypesM h _) fun _ => .pure _
  · exact .bind (Members.vocal_mapTypesM h _) fun _ => .pure _

theorem Decl.vocal_resolve (r : Registry) (imports : List Import) (d : Decl) :
    (d.resolve r imports).Vocal :=
  d.vocal_mapTypesM (TypeSpec.vocal_resolve fun _ _ => Registry.isHard_of_mem_resolver)

/-! ### Completion -/

/-- An annotation that is not valid has been reported when the failure is noted. -/
theorem AnnotationSet.vocal_backing (s : AnnotationSet) : s.backing.Vocal := by
  rw [backing]
  split
  · exact .pure _
  · next a _ =>
    have ha := a.honest_check
    intro p
    rw [Pass.run_bind, Pass.run_lift]
    cases hv : a.check.value with
    | true =>
      refine VocalStep.append (VocalStep.unchanged ha.isHard) ?_
      dsimp only
      rw [if_pos rfl]
      split
      · exact Pass.Vocal.pure _ p
      · exact Pass.Vocal.bind (.abort _) (fun _ => .pure _) p
    | false =>
      -- the verdict is negative, so one of the reports is an error
      have hnegative : HonestVerdict true (some false) a.check.diagnostics := by
        rwa [Reporting.Honest, hv] at ha
      obtain ⟨d, hd, hne⟩ := hnegative.exists_error
      refine VocalStep.of_mem (List.mem_append_left _ hd) hne ?_
      exact List.forall_mem_append.mpr ⟨ha.isHard, fun d hd => nomatch hd⟩

theorem Decl.vocal_complete (r : Registry) (imports : List Import) (d : Decl) :
    (d.complete r imports).Vocal := by
  rw [complete]
  split
  · refine .bind (AnnotationSet.vocal_backing _) fun answer => ?_
    cases answer with
    | none => exact .pure d
    | some backing =>
      dsimp only
      split
      · exact .bind (.abort _) fun _ => .pure d
      · split
        · exact .pure _
        -- a backing type that stands for nothing is reported, without noting a failure
        · exact .bind (.lift (by simp [Reporting.report, Header.invalidBacking,
            Diagnostic.isHard_error])) fun _ => .pure _
  · exact .pure d

/-! ### Documents -/

namespace Registry

theorem vocal_runPass (r : Registry) (number : Nat) {step : List Import → Decl → Pass Decl}
    (h : ∀ imports d, (step imports d).Vocal) :
    VocalStep (.ok true) (r.runPass number step).value.2 (r.runPass number step).diagnostics := by
  rw [runPass]
  split
  · exact VocalStep.ended _
  · next doc _ =>
    have hpass : (doc.decls.mapM fun d => Pass.guarded d (step doc.imports d)).Vocal :=
      .mapM fun d _ => .guarded (h doc.imports d)
    exact (hpass (.ok true)).append (VocalStep.unchanged (by simp))

theorem vocal_resolveDocument (r : Registry) (number : Nat) :
    VocalStep (.ok true) (r.resolveDocument number).value.2
      (r.resolveDocument number).diagnostics :=
  r.vocal_runPass number fun imports d => d.vocal_resolve r imports

theorem vocal_completeDocument (r : Registry) (number : Nat) :
    VocalStep (.ok true) (r.completeDocument number).value.2
      (r.completeDocument number).diagnostics :=
  r.vocal_runPass number fun imports d => d.vocal_complete r imports

end Registry

end InterfaceDefinition
