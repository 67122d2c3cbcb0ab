import InterfaceDefinition.Proofs.Resolution.Nodes

/-!
# Resolution, name by name

Resolution comes to the nodes of a document in order. At each of them it takes one step
(`TypeSpec.ResolveStep`): the name is given the meaning that its resolver finds, or is reported, or
ends the pass because it has a meaning already; once the pass has ended, nothing changes. A whole
run is therefore known from its nodes: it ends at the first one that is resolved already
(`Pass.Steps.progress_of_ok`), it succeeds only if all of them are resolved afterwards
(`Pass.Steps.resolved_of_ok_true`), unless it is ended every name means afterwards what the resolver
says (`Pass.Steps.resolution_of_ok`), and every name it leaves is an old one or one with a meaning
that the resolver found (`Pass.Steps.forall_base`).
-/

namespace InterfaceDefinition

open Pass

/-! ### One name -/

/-- What resolution does at a node. -/
inductive TypeSpec.ResolveStep (resolver : Resolver) :
    TypeSpec → Progress → TypeSpec → Progress → List Diagnostic → Prop
  /-- The pass has ended before. -/
  | ended {t t' : TypeSpec} (e : InternalError) (hbase : t'.base = t.base) :
      ResolveStep resolver t (.error e) t' (.error e) []
  /-- The name has a meaning already, which ends the pass. -/
  | again {t t' : TypeSpec} (b : Bool) (h : t.base.isResolved = true) (hbase : t'.base = t.base) :
      ResolveStep resolver t (.ok b) t' (.error (.alreadyResolved t.location t.name)) []
  /-- The resolver knows a meaning. -/
  | found {t t' : TypeSpec} (b : Bool) {resolution : Resolution}
      (h : t.base.resolution = none)
      (hfound : (resolver t.base.written).value = some resolution)
      (hbase : t'.base = { t.base with resolution := some resolution }) :
      ResolveStep resolver t (.ok b) t' (.ok b) (resolver t.base.written).diagnostics
  /-- The resolver knows none. -/
  | missing {t t' : TypeSpec} (b : Bool) (h : t.base.resolution = none)
      (hmissing : (resolver t.base.written).value = none) (hbase : t'.base = t.base) :
      ResolveStep resolver t (.ok b) t' (.ok false)
        ((resolver t.base.written).diagnostics ++
          [TypeSpec.unresolvedName t.location t.base.written])

namespace TypeSpec.ResolveStep

variable {resolver : Resolver} {t t' : TypeSpec} {p p' : Progress} {ds : List Diagnostic}

/-- Success keeps a success, and the node is resolved. -/
theorem resolved_of_ok_true (h : TypeSpec.ResolveStep resolver t p t' p' ds) (hp' : p' = .ok true) :
    p = .ok true ∧ t'.base.isResolved = true := by
  cases h with
  | ended e => cases hp'
  | again b => cases hp'
  | found b _ _ hbase => exact ⟨hp', by rw [hbase]; rfl⟩
  | missing b => cases hp'

/-- A node that is reached while the pass goes on means what the resolver finds for its name. -/
theorem resolution_of_ok {b : Bool} (h : TypeSpec.ResolveStep resolver t p t' p' ds)
    (hp' : p' = .ok b) :
    (∃ b, p = .ok b) ∧ t'.base.resolution = (resolver t'.base.written).value := by
  cases h with
  | ended e => cases hp'
  | again b => cases hp'
  | found b _ hfound hbase => exact ⟨⟨b, rfl⟩, by simp [hbase, hfound]⟩
  | missing b hnone hmissing hbase => exact ⟨⟨b, rfl⟩, by simp [hbase, hnone, hmissing]⟩

theorem progress_of_error {e : InternalError}
    (h : TypeSpec.ResolveStep resolver t (.error e) t' p' ds) : p' = .error e := by
  cases h
  rfl

/-- A node ends the pass exactly when it is resolved already. -/
theorem progress_of_ok {b : Bool} (h : TypeSpec.ResolveStep resolver t (.ok b) t' p' ds) :
    if t.base.isResolved then p' = .error (.alreadyResolved t.location t.name)
    else ∃ b', p' = .ok b' := by
  cases h with
  | again _ h => rw [if_pos h]
  | found _ h => simp [TypeName.isResolved, h]
  | missing _ h => simp [TypeName.isResolved, h]

/-- The name of a node stays, or gets a meaning that the resolver found. -/
theorem base_cases (h : TypeSpec.ResolveStep resolver t p t' p' ds) :
    t'.base = t.base ∨ ∃ resolution, (resolver t.base.written).value = some resolution ∧
      t'.base = { t.base with resolution := some resolution } := by
  cases h with
  | ended _ hbase => exact .inl hbase
  | again _ _ hbase => exact .inl hbase
  | found _ _ hfound hbase => exact .inr ⟨_, hfound, hbase⟩
  | missing _ _ _ hbase => exact .inl hbase

end TypeSpec.ResolveStep

/-! ### Runs -/

/-- What resolution does at a node with some resolver: the names of different declarations are read
with different ones. -/
def TypeSpec.AnyResolveStep : StepRel TypeSpec :=
  fun t p t' p' ds => ∃ resolver, ResolveStep resolver t p t' p' ds

namespace Pass.Steps

variable {ts ts' : List TypeSpec} {p p' : Progress} {ds : List Diagnostic}

/-- Every name after a run is an old one, or has a meaning that the resolver found. -/
theorem forall_base {resolver : Resolver} {P : TypeName → Prop}
    (h : Steps (TypeSpec.ResolveStep resolver) ts p ts' p' ds) (hold : ∀ t ∈ ts, P t.base)
    (hfound : ∀ written resolution, (resolver written).value = some resolution →
      P ⟨written, some resolution⟩) : ∀ t ∈ ts', P t.base := by
  intro t' ht'
  obtain ⟨t, ht, _, _, _, hstep⟩ := h.exists_of_mem ht'
  rcases hstep.base_cases with hbase | ⟨resolution, hresolution, hbase⟩
  · rw [hbase]
    exact hold t ht
  · rw [hbase]
    exact hfound _ _ hresolution

theorem progress_of_error {e : InternalError} (h : Steps TypeSpec.AnyResolveStep ts p ts' p' ds)
    (hp : p = .error e) : p' = .error e := by
  induction h with
  | nil => exact hp
  | cons head _ ih =>
    obtain ⟨resolver, hstep⟩ := head
    subst hp
    exact ih hstep.progress_of_error

/-- A run ends at the first node that is resolved already, and only there. -/
theorem progress_of_ok {b : Bool} (h : Steps TypeSpec.AnyResolveStep ts p ts' p' ds)
    (hp : p = .ok b) :
    match ts.find? (·.base.isResolved) with
    | some t => p' = .error (.alreadyResolved t.location t.name)
    | none => ∃ b', p' = .ok b' := by
  induction h generalizing b with
  | nil => exact ⟨b, hp⟩
  | @cons t _ _ _ _ _ _ _ _ head tail ih =>
    obtain ⟨resolver, hstep⟩ := head
    subst hp
    have hnext := hstep.progress_of_ok
    rw [List.find?_cons]
    cases hresolved : t.base.isResolved with
    | true =>
      rw [hresolved, if_pos rfl] at hnext
      -- the rest of the run no longer moves the progress
      exact tail.progress_of_error hnext
    | false =>
      rw [hresolved, if_neg (by simp)] at hnext
      obtain ⟨b', hb'⟩ := hnext
      exact ih hb'

/-- A run that succeeds has started with a success, and leaves every node resolved. -/
theorem resolved_of_ok_true (h : Steps TypeSpec.AnyResolveStep ts p ts' p' ds)
    (hp' : p' = .ok true) :
    p = .ok true ∧ ∀ t ∈ ts', t.base.isResolved = true :=
  h.traced_back (G := fun p => p = .ok true)
    (fun _ _ _ _ _ ⟨_, hstep⟩ hp' => hstep.resolved_of_ok_true hp') hp'

/-- A run that is not ended gives every node the meaning that the resolver finds, if there is
one. -/
theorem resolution_of_ok {resolver : Resolver} {b : Bool}
    (h : Steps (TypeSpec.ResolveStep resolver) ts p ts' p' ds) (hp' : p' = .ok b) :
    (∃ b, p = .ok b) ∧ ∀ t ∈ ts', t.base.resolution = (resolver t.base.written).value :=
  h.traced_back (G := fun p => ∃ b, p = .ok b)
    (fun _ _ _ _ _ hstep ⟨_, hp'⟩ => hstep.resolution_of_ok hp') ⟨b, hp'⟩

end Pass.Steps

/-! ### Types -/

namespace TypeSpec

section Name

variable {resolver : Resolver} {loc : Location} {name : TypeName} {p : Progress}

/-- A name that has a meaning ends the pass, and keeps it. -/
theorem run_resolveName_of_resolved (h : name.isResolved = true) :
    (resolveName resolver loc name).run p =
      ⟨(name, .error (.alreadyResolved loc name.text)), []⟩ := by
  rw [resolveName, if_pos h]
  rfl

/-- A name that the resolver has a meaning for gets it, and the pass goes on as it was. -/
theorem run_resolveName_of_found {resolution : Resolution} (h : name.resolution = none)
    (hfound : (resolver name.written).value = some resolution) :
    (resolveName resolver loc name).run p =
      ⟨({ name with resolution := some resolution }, p), (resolver name.written).diagnostics⟩ := by
  rw [resolveName, if_neg (by simp [TypeName.isResolved, h]), run_bind, run_lift]
  simp [hfound]

/-- A name that the resolver has no meaning for is reported and makes the pass a negative one, which
still goes on. -/
theorem run_resolveName_of_missing (h : name.resolution = none)
    (hmissing : (resolver name.written).value = none) :
    (resolveName resolver loc name).run p =
      ⟨(name, p.map fun _ => false),
        (resolver name.written).diagnostics ++ [unresolvedName loc name.written]⟩ := by
  rw [resolveName, if_neg (by simp [TypeName.isResolved, h]), run_bind, run_lift]
  simp only [hmissing]
  rfl

end Name

/-- Resolution takes a name by one step. -/
theorem resolveStep_guarded (resolver : Resolver) {t t' : TypeSpec} (p : Progress)
    (hbase : t'.base =
      ((guarded t.base (resolveName resolver t.location t.base)).run p).value.1) :
    ResolveStep resolver t p t'
      ((guarded t.base (resolveName resolver t.location t.base)).run p).value.2
      ((guarded t.base (resolveName resolver t.location t.base)).run p).diagnostics := by
  cases p with
  | error e => exact .ended e hbase
  | ok b =>
    rw [run_guarded_ok] at hbase ⊢
    cases hold : t.base.resolution with
    | some _ =>
      have hresolved : t.base.isResolved = true := by simp [TypeName.isResolved, hold]
      rw [run_resolveName_of_resolved hresolved] at hbase ⊢
      exact .again b hresolved hbase
    | none =>
      cases hanswer : (resolver t.base.written).value with
      | some resolution =>
        rw [run_resolveName_of_found hold hanswer] at hbase ⊢
        exact .found b hold hanswer hbase
      | none =>
        rw [run_resolveName_of_missing hold hanswer] at hbase ⊢
        exact .missing b hold hanswer hbase

/-- A relation that holds of what resolution does to a name, wherever that stands. -/
def TakesNames (resolver : Resolver) (R : StepRel TypeSpec) : Prop :=
  ∀ (t t' : TypeSpec) (p : Progress), t'.location = t.location →
    t'.base = ((guarded t.base (resolveName resolver t.location t.base)).run p).value.1 →
    R t p t' ((guarded t.base (resolveName resolver t.location t.base)).run p).value.2
      ((guarded t.base (resolveName resolver t.location t.base)).run p).diagnostics

mutual

/-- Resolution runs through the nodes of a type, by the steps by which it takes names. -/
theorem takes_resolve_of_names {resolver : Resolver} {R : StepRel TypeSpec}
    (hR : TakesNames resolver R) : (t : TypeSpec) → Takes (Through nodes R) t (t.resolve resolver)
  | ⟨loc, base, arguments, isArray, annotations, comments⟩ => by
    intro p
    rw [resolve, run_bind, run_bind]
    simp only [run_pure, List.append_nil]
    rw [Through, nodes, nodes]
    exact .cons (hR _ _ p rfl rfl) (takes_resolveAll_of_names hR arguments _)

theorem takes_resolveAll_of_names {resolver : Resolver} {R : StepRel TypeSpec}
    (hR : TakesNames resolver R) :
    (ts : List TypeSpec) → Takes (Through nodesOf R) ts (resolveAll resolver ts)
  | [] => by
    intro p
    rw [resolveAll]
    exact .nil p
  | t :: rest => by
    intro p
    rw [resolveAll, run_bind, run_bind]
    simp only [run_pure, List.append_nil]
    rw [Through, nodesOf, nodesOf]
    exact (takes_resolve_of_names hR t p).append (takes_resolveAll_of_names hR rest _)

end

theorem takes_resolve (resolver : Resolver) (t : TypeSpec) :
    Takes (Through nodes (ResolveStep resolver)) t (t.resolve resolver) :=
  takes_resolve_of_names (fun _ _ p _ hbase => resolveStep_guarded resolver p hbase) t

end TypeSpec

/-! ### Declarations and documents -/

/-- What resolution does with a declaration: a run through its nodes, and nothing else. -/
def Decl.ResolveStep (r : Registry) (imports : List Import) : StepRel Decl :=
  fun d p d' p' ds =>
    Through nodes
        (TypeSpec.ResolveStep (r.resolver imports d.header.package d.typeParams)) d p d' p' ds ∧
      d'.shell = d.shell ∧ d'.backing? = d.backing?

/-- A declaration is resolved name by name, in the order of its types and from the outside in. -/
theorem Decl.takes_resolve (r : Registry) (imports : List Import) (d : Decl) :
    Takes (ResolveStep r imports) d (d.resolve r imports) :=
  d.takes_mapTypesM (TypeSpec.takes_resolve _)

theorem Decl.ResolveStep.ended {r : Registry} {imports : List Import} (d : Decl)
    (e : InternalError) : ResolveStep r imports d (.error e) d (.error e) [] :=
  ⟨Steps.ended fun _ _ => .ended e rfl, rfl, rfl⟩

/-- A declaration that is reached while the pass goes on has names that mean what they are read
as. -/
theorem Decl.ResolveStep.resolution_of_ok {r : Registry} {imports : List Import} {d d' : Decl}
    {p p' : Progress} {ds : List Diagnostic} {b : Bool}
    (h : ResolveStep r imports d p d' p' ds) (hp' : p' = .ok b) :
    (∃ b, p = .ok b) ∧ ∀ t ∈ d'.nodes, t.base.resolution =
      (r.resolver imports d'.header.package d'.typeParams t.base.written).value := by
  obtain ⟨hnodes, hshell, -⟩ := h
  rw [header_of_shell hshell, typeParams_of_shell hshell]
  exact Steps.resolution_of_ok hnodes hp'

/-- The runs through the nodes of declarations make a run through the nodes of all of them. -/
theorem Pass.Steps.anyResolveSteps {r : Registry} {imports : List Import}
    {decls decls' : List Decl} {p p' : Progress} {ds : List Diagnostic}
    (h : Steps (Decl.ResolveStep r imports) decls p decls' p' ds) :
    Steps TypeSpec.AnyResolveStep (decls.flatMap Decl.nodes) p (decls'.flatMap Decl.nodes) p' ds :=
  Steps.flatMap <| h.mono fun _ _ _ _ _ hdecl => hdecl.1.mono fun _ _ _ _ _ hname => ⟨_, hname⟩

end InterfaceDefinition
