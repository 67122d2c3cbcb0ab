import InterfaceDefinition.Proofs.Annotation.Params
import InterfaceDefinition.Proofs.Resolution.Names

/-!
# Completion, declaration by declaration

Completion gives every enum a backing type, read from a name that its annotation or the default
gives, and leaves every other declaration as it is (`Decl.CompleteStep`). It is never ended by an
internal error of its own: an annotation that passed its check names a type, and that name is not
resolved before. So after a success every enum has a backing type
(`Pass.Steps.backing_of_ok_true`).
-/

namespace InterfaceDefinition

open Pass

/-- A type that is a mere name, and resolved. -/
structure TypeSpec.IsResolvedName (t : TypeSpec) : Prop where
  arguments : t.arguments = []
  isArray : t.isArray = false
  isResolved : t.base.isResolved = true

/-- What completion does with a declaration. -/
inductive Decl.CompleteStep (r : Registry) (imports : List Import) :
    Decl → Progress → Decl → Progress → List Diagnostic → Prop
  /-- The pass has ended before. -/
  | ended (d : Decl) (e : InternalError) : CompleteStep r imports d (.error e) d (.error e) []
  /-- Only enums have backing types. -/
  | other {d : Decl} (b : Bool) (h : d.kind ≠ .enum) :
      CompleteStep r imports d (.ok b) d (.ok b) []
  /-- The annotation that should name the backing type is not valid. -/
  | invalid (d : Decl) (b : Bool) (ds : List Diagnostic) :
      CompleteStep r imports d (.ok b) d (.ok false) ds
  /-- The name of the backing type is read like a name in the declaration, and kept also when it
  stands for nothing, which is then reported. -/
  | filled {d : Decl} (b : Bool) {enumerators : List Enumerator} {old : Option TypeSpec}
      {members : Members} {loc : Location} {name : String} {backing : TypeSpec} {resolved : Bool}
      {ds ds' : List Diagnostic}
      (hbody : d.body = .enum enumerators old members)
      (hrun : Through TypeSpec.nodes
        (TypeSpec.ResolveStep (r.resolver imports d.header.package []))
        (.named loc name) (.ok true) backing (.ok resolved) ds')
      (hnamed : ∃ base, backing = { TypeSpec.named loc name with base })
      (hreported : resolved = false → ∃ e ∈ ds, e.isError = true) :
      CompleteStep r imports d (.ok b) { d with body := .enum enumerators (some backing) members }
        (.ok b) ds

namespace Decl.CompleteStep

variable {r : Registry} {imports : List Import} {d d' : Decl} {p p' : Progress}
  {ds : List Diagnostic}

/-- Completion gives an enum its backing type, and nothing else about a declaration is changed by
it. -/
theorem shell_eq (h : CompleteStep r imports d p d' p' ds) : d'.shell = d.shell := by
  cases h with
  | ended => rfl
  | other => rfl
  | invalid => rfl
  | filled b hbody =>
    obtain ⟨header, body⟩ := d
    cases hbody
    rfl

theorem nodes_eq (h : CompleteStep r imports d p d' p' ds) : d'.nodes = d.nodes := by
  cases h with
  | ended => rfl
  | other => rfl
  | invalid => rfl
  | filled b hbody =>
    obtain ⟨header, body⟩ := d
    cases hbody
    rfl

/-- Completion may fail with a report, but there is no internal error that it ends with. -/
theorem exists_progress_of_ok {b : Bool} (h : CompleteStep r imports d p d' p' ds)
    (hp : p = .ok b) : ∃ b', p' = .ok b' := by
  cases h with
  | ended => cases hp
  | other b => exact ⟨b, rfl⟩
  | invalid => exact ⟨false, rfl⟩
  | filled b => exact ⟨b, rfl⟩

/-- Success keeps a success, and an enum has a backing type. -/
theorem backing_of_ok_true (h : CompleteStep r imports d p d' p' ds) (hp' : p' = .ok true) :
    p = .ok true ∧ (d'.kind = .enum → d'.backing?.isSome) := by
  cases h with
  | ended => cases hp'
  | other b h => exact ⟨hp', fun henum => absurd henum h⟩
  | invalid => cases hp'
  | filled b hbody => exact ⟨hp', fun _ => rfl⟩

/-- Success keeps a success, and the names in a backing type mean what they are read as. -/
theorem resolution_of_ok_true (h : CompleteStep r imports d p d' p' ds) (hp' : p' = .ok true) :
    p = .ok true ∧ ∀ backing ∈ d'.backing?, ∀ t ∈ backing.nodes, t.base.resolution =
      (r.resolver imports d'.header.package [] t.base.written).value := by
  cases h with
  | ended => cases hp'
  | other b hkind =>
    refine ⟨hp', fun backing hbacking => ?_⟩
    have hnone : d.backing? = none := by
      obtain ⟨header, body⟩ := d
      cases body with
      | enum => exact absurd rfl hkind
      | _ => rfl
    simp [hnone] at hbacking
  | invalid => cases hp'
  | @filled _ _ _ _ _ _ filled _ _ _ hbody hrun =>
    refine ⟨hp', fun backing hbacking => ?_⟩
    obtain rfl : filled = backing := Option.some.inj hbacking
    exact (Steps.resolution_of_ok hrun rfl).2

/-- Success keeps a success, and if no error is reported an enum has a backing type that is a
resolved name. -/
theorem backing_of_silent (h : CompleteStep r imports d p d' p' ds)
    (hsilent : ∀ e ∈ ds, e.isError = false) (hp' : p' = .ok true) :
    p = .ok true ∧ (d'.kind = .enum → ∃ backing ∈ d'.backing?, backing.IsResolvedName) := by
  cases h with
  | ended => cases hp'
  | other b hkind => exact ⟨hp', fun henum => absurd henum hkind⟩
  | invalid => cases hp'
  | @filled _ _ _ _ _ _ backing resolved _ _ hbody hrun hnamed hreported =>
    have hresolved : resolved = true := by
      rw [← Bool.not_eq_false]
      intro hfailed
      obtain ⟨e, he, herror⟩ := hreported hfailed
      simp [hsilent e he] at herror
    have hnodes := Steps.resolved_of_ok_true (hrun.mono fun _ _ _ _ _ h => ⟨_, h⟩)
      (congrArg Except.ok hresolved)
    obtain ⟨base, rfl⟩ := hnamed
    exact ⟨hp', fun _ => ⟨_, rfl, rfl, rfl, hnodes.2 _ (TypeSpec.self_mem_nodes _)⟩⟩

/-- The backing type is the old one, or every name in it has no meaning or one that was found. -/
theorem forall_base {P : TypeName → Prop} (h : CompleteStep r imports d p d' p' ds)
    (hold : ∀ t ∈ d.backing?, ∀ n ∈ t.nodes, P n.base) (hnew : ∀ written, P ⟨written, none⟩)
    (hfound : ∀ written resolution,
      (r.resolver imports d.header.package [] written).value = some resolution →
        P ⟨written, some resolution⟩) :
    ∀ t ∈ d'.backing?, ∀ n ∈ t.nodes, P n.base := by
  cases h with
  | ended => exact hold
  | other => exact hold
  | invalid => exact hold
  | @filled _ _ _ _ _ _ backing _ _ _ hbody hrun =>
    intro t ht
    have ht : backing = t := Option.some.inj ht
    subst ht
    refine Steps.forall_base hrun ?_ hfound
    intro n hn
    obtain rfl : n = .named _ _ := by simpa [TypeSpec.nodes_eq, TypeSpec.named] using hn
    exact hnew _

end Decl.CompleteStep

/-! ### Runs -/

namespace Pass.Steps

variable {r : Registry} {imports : List Import} {decls decls' : List Decl} {p p' : Progress}
  {ds : List Diagnostic}

/-- The same holds of the completion of all declarations in turn. -/
theorem complete_progress_of_ok {b : Bool}
    (h : Steps (Decl.CompleteStep r imports) decls p decls' p' ds) (hp : p = .ok b) :
    ∃ b', p' = .ok b' := by
  induction h generalizing b with
  | nil => exact ⟨b, hp⟩
  | cons head _ ih =>
    obtain ⟨b', hb'⟩ := head.exists_progress_of_ok hp
    exact ih hb'

/-- After a run that succeeds every enum has a backing type. -/
theorem backing_of_ok_true (h : Steps (Decl.CompleteStep r imports) decls p decls' p' ds)
    (hp' : p' = .ok true) :
    p = .ok true ∧ ∀ d ∈ decls', d.kind = .enum → d.backing?.isSome :=
  h.traced_back (G := fun p => p = .ok true)
    (fun _ _ _ _ _ hstep hp' => hstep.backing_of_ok_true hp') hp'

/-- After a run that succeeds the names in backing types mean what they are read as, where there are
no type parameters. -/
theorem resolution_of_ok_true (h : Steps (Decl.CompleteStep r imports) decls p decls' p' ds)
    (hp' : p' = .ok true) :
    p = .ok true ∧ ∀ d ∈ decls', ∀ backing ∈ d.backing?, ∀ t ∈ backing.nodes, t.base.resolution =
      (r.resolver imports d.header.package [] t.base.written).value :=
  h.traced_back (G := fun p => p = .ok true)
    (fun _ _ _ _ _ hstep hp' => hstep.resolution_of_ok_true hp') hp'

end Pass.Steps

/-! ### One declaration -/

/-- The annotations of an enum name a backing type, or the failure is noted; an annotation that
passed its check always names one. -/
theorem AnnotationSet.backing_cases (s : AnnotationSet) (b : Bool) :
    (∃ loc name ds, s.backing.run (.ok b) = ⟨(some (.named loc name), .ok b), ds⟩) ∨
      ∃ ds, s.backing.run (.ok b) = ⟨(none, .ok false), ds⟩ := by
  rw [backing]
  cases hget : s.get? .backing with
  | none => exact .inl ⟨_, _, _, rfl⟩
  | some a =>
    dsimp only
    rw [run_bind, run_lift]
    cases hvalid : a.check.value with
    | false => exact .inr ⟨_, rfl⟩
    | true =>
      have hkind : a.kind = .backing := by simpa using List.find?_some hget
      -- the schema of the backing annotation requires the parameter that is read
      have hname : (a.paramString? "type").isSome := by
        have hrules : a.IsValid := Annotation.value_check_iff.mp hvalid
        refine Annotation.isSome_paramString?_of_required hrules ?_ ?_
        · rw [hkind]
          exact List.mem_singleton_self _
        · unfold Annotation.paramType?
          rw [hkind]
          rfl
      obtain ⟨name, hname⟩ := Option.isSome_iff_exists.mp hname
      refine .inl ⟨a.location, name, a.check.diagnostics ++ [], ?_⟩
      simp only [hname]
      rfl

/-- A name that is just made up is read without an internal error. -/
theorem TypeSpec.start_resolve_named (resolver : Resolver) (loc : Location) (name : String) :
    ∃ backing resolved ds,
      Pass.start ((named loc name).resolve resolver) = ⟨(backing, .ok resolved), ds⟩ ∧
        (∃ base, backing = { named loc name with base }) ∧
        Through nodes (ResolveStep resolver) (named loc name) (.ok true) backing (.ok resolved)
          ds := by
  have hrun := takes_resolve resolver (named loc name) (.ok true)
  rw [show ((named loc name).resolve resolver).run (.ok true) = Pass.start _ from rfl] at hrun
  have hany : Steps AnyResolveStep _ _ _ _ _ := hrun.mono fun _ _ _ _ _ h => ⟨resolver, h⟩
  have hnodes : (named loc name).nodes = [named loc name] := by simp [nodes_eq, named]
  have hprogress := hany.progress_of_ok rfl
  rw [hnodes] at hprogress
  -- a name without a meaning does not end the pass
  obtain ⟨resolved, hresolved⟩ : ∃ b,
      (Pass.start ((named loc name).resolve resolver)).value.2 = .ok b := by
    simpa [named, TypeName.isResolved] using hprogress
  refine ⟨_, resolved, _, ?_, ⟨_, rfl⟩, hresolved ▸ hrun⟩
  exact congrArg (fun progress => Reporting.mk (_, progress) _) hresolved

/-- Completion takes a declaration by one step. -/
theorem Decl.takes_complete (r : Registry) (imports : List Import) (d : Decl) :
    Takes (CompleteStep r imports) d (guarded d (d.complete r imports)) := by
  intro p
  cases p with
  | error e => exact .ended d e
  | ok b =>
    rw [run_guarded_ok]
    rw [complete]
    cases hbody : d.body with
    | enum enumerators old members =>
      dsimp only
      rw [run_bind]
      rcases d.annotations.backing_cases b with ⟨loc, name, ds, hbacking⟩ | ⟨ds, hbacking⟩
      · obtain ⟨backing, resolved, ds', hstart, hnamed, hrun⟩ :=
          TypeSpec.start_resolve_named (r.resolver imports d.header.package []) loc name
        simp only [hbacking, hstart]
        cases resolved with
        | true => exact .filled b hbody hrun hnamed (by simp)
        | false =>
          refine .filled b hbody hrun hnamed fun _ => ⟨d.header.invalidBacking backing, ?_, rfl⟩
          exact List.mem_append_right ds List.mem_cons_self
      · rw [hbacking]
        exact .invalid d b _
    | _ => exact .other b (by simp [kind, hbody])

end InterfaceDefinition
