import InterfaceDefinition.Proofs.Registry.Reachable
import InterfaceDefinition.Proofs.Relocation.Declarations

/-!
# Passes over different documents

Resolution and completion read the index and write one document. What they write there is small:
resolution records meanings of names, completion gives enums backing types, and everything else
stays, whatever the outcome (`DocumentPass.takes_step_outline`), so neither of them changes a
declaration as it is written (`DocumentPass.takes_step_written`). What they read is nothing that
they write in other documents: a run depends on the index and its own document only
(`DocumentPass.run_congr`). So the runs over two documents can be exchanged
(`DocumentPass.confined`).
-/

namespace InterfaceDefinition

open Pass

/-! ### Registries that differ in one document -/

namespace Registry

/-- The second registry is the first but for one document. -/
structure AgreeBut (number : Nat) (r r' : Registry) : Prop where
  index_eq : r'.index = r.index
  document?_eq : ∀ other, other ≠ number → r'.document? other = r.document? other

section AgreeBut

variable {number a b : Nat} {r r' r'' : Registry}

theorem AgreeBut.refl (number : Nat) (r : Registry) : AgreeBut number r r :=
  ⟨rfl, fun _ _ => rfl⟩

theorem AgreeBut.trans (h : AgreeBut number r r') (h' : AgreeBut number r' r'') :
    AgreeBut number r r'' :=
  ⟨h'.index_eq.trans h.index_eq, fun other hother =>
    (h'.document?_eq other hother).trans (h.document?_eq other hother)⟩

/-- New declarations in one document leave the index and all other documents as they are. -/
theorem agreeBut_withDecls (r : Registry) (number : Nat) (doc : Document) (decls : List Decl) :
    AgreeBut number r (r.withDecls number doc decls) := by
  refine ⟨rfl, fun other hother => ?_⟩
  rw [document?, document?, withDecls, List.getElem?_set_ne hother.symm]

/-- A registry is its documents and its index. -/
theorem eq_of_document?_eq (hindex : r'.index = r.index)
    (hdocuments : ∀ number, r'.document? number = r.document? number) : r' = r := by
  obtain ⟨documents, index⟩ := r
  obtain ⟨documents', index'⟩ := r'
  obtain rfl : documents' = documents := List.ext_getElem? hdocuments
  obtain rfl : index' = index := hindex
  rfl

/-- Two changes, each of its own document and the same before and after the other one, lead to the
same registry in both orders. -/
theorem AgreeBut.exchange {ra rb rab rba : Registry} (hab : a ≠ b) (ha : AgreeBut a r ra)
    (hb : AgreeBut b r rb) (hab' : AgreeBut b ra rab) (hba' : AgreeBut a rb rba)
    (hdoc : rba.document? a = ra.document? a) (hdoc' : rab.document? b = rb.document? b) :
    rab = rba := by
  refine eq_of_document?_eq ?_ fun number => ?_
  · rw [hab'.index_eq, ha.index_eq, hba'.index_eq, hb.index_eq]
  · by_cases hnb : number = b
    · rw [hnb, hdoc', hba'.document?_eq b hab.symm]
    · rw [hab'.document?_eq number hnb]
      by_cases hna : number = a
      · rw [hna, hdoc]
      · rw [ha.document?_eq number hna, hba'.document?_eq number hna, hb.document?_eq number hnb]

end AgreeBut

/-! ### What passes read -/

section Index

variable {r r' : Registry} (h : r'.index = r.index)
include h

/-- The meaning of a written name depends on the index only. -/
theorem resolver_congr : r'.resolver = r.resolver := by
  have hresolveIn : r'.resolveIn = r.resolveIn := by
    funext package name
    rw [resolveIn, resolveIn, lookup?_congr h]
  funext imports package typeParams name
  rw [resolver, resolver, hresolveIn]

/-- Resolution looks at nothing of the registry but the index, so two registries with one index
resolve alike. -/
theorem resolve_decl_congr : Decl.resolve r' = Decl.resolve r := by
  funext imports d
  rw [Decl.resolve, Decl.resolve, resolver_congr h]

/-- The same holds of completion: values are evaluated later. -/
theorem complete_decl_congr : Decl.complete r' = Decl.complete r := by
  funext imports d
  rw [Decl.complete, Decl.complete, resolver_congr h]

end Index

end Registry

/-! ### What passes leave -/

/-- A step that keeps what a view shows of an element. -/
def Pass.Keeping {α β : Type} (view : α → β) : StepRel α :=
  fun a _ b _ _ => view b = view a

theorem Pass.takes_mapM_keeping {α β : Type} {view : α → β} {f : α → Pass α} {as : List α}
    (h : ∀ a ∈ as, Takes (Keeping view) a (f a)) :
    Takes (Keeping (List.map view)) as (as.mapM f) :=
  fun p => (Takes.mapM h p).map_eq fun _ _ _ _ _ h => h

namespace TypeSpec

mutual

/-- The type as it is written: without the meanings of its names. -/
def unresolved : TypeSpec → TypeSpec
  | ⟨loc, base, arguments, isArray, annotations, comments⟩ =>
    ⟨loc, ⟨base.written, none⟩, unresolvedAll arguments, isArray, annotations, comments⟩

/-- Several types as they are written. -/
def unresolvedAll : List TypeSpec → List TypeSpec
  | [] => []
  | t :: rest => t.unresolved :: unresolvedAll rest

end

/-- Resolution gives a name a meaning, and does not touch what was written. -/
theorem written_resolveName (resolver : Resolver) (t : TypeSpec) (p : Progress) :
    ((guarded t.base (resolveName resolver t.location t.base)).run p).value.1.written =
      t.base.written := by
  have hstep : ResolveStep resolver t p { t with base := _ } _ _ :=
    resolveStep_guarded resolver p rfl
  rcases hstep.base_cases with hbase | ⟨_, _, hbase⟩
  · exact (congrArg TypeName.written hbase :)
  · exact (congrArg TypeName.written hbase :)

mutual

/-- Resolution records meanings in a type and changes nothing else. -/
theorem unresolved_resolve (resolver : Resolver) :
    (t : TypeSpec) → Takes (Keeping unresolved) t (t.resolve resolver)
  | ⟨loc, base, arguments, isArray, annotations, comments⟩ => by
    intro p
    have hname := written_resolveName resolver
      ⟨loc, base, arguments, isArray, annotations, comments⟩ p
    have harguments := unresolved_resolveAll resolver arguments
      ((guarded base (resolveName resolver loc base)).run p).value.2
    rw [Keeping] at harguments ⊢
    rw [resolve, run_bind, run_bind]
    simp only [run_pure, unresolved, hname, harguments]

theorem unresolved_resolveAll (resolver : Resolver) :
    (ts : List TypeSpec) → Takes (Keeping unresolvedAll) ts (resolveAll resolver ts)
  | [] => by
    intro p
    rw [resolveAll]
    exact rfl
  | t :: rest => by
    intro p
    have hhead := unresolved_resolve resolver t p
    have hrest := unresolved_resolveAll resolver rest ((t.resolve resolver).run p).value.2
    rw [Keeping] at hhead hrest ⊢
    rw [resolveAll, run_bind, run_bind]
    simp only [run_pure, unresolvedAll, hhead, hrest]

end

end TypeSpec

section Traversals

variable {g : TypeSpec → TypeSpec} {f : TypeSpec → Pass TypeSpec}

/-- A traversal of members keeps of them what it keeps of their types. -/
theorem Members.mapTypes_mapTypesM {ms : Members}
    (hf : ∀ t ∈ ms.typeSpecs, Takes (Keeping g) t (f t)) :
    Takes (Keeping (mapTypes g)) ms (ms.mapTypesM f) := by
  simp only [typeSpecs, List.forall_mem_append, List.forall_mem_flatMap, List.forall_mem_cons,
    List.forall_mem_map] at hf
  obtain ⟨⟨hfields, hconstants⟩, hmethods⟩ := hf
  have hfield : ∀ x ∈ ms.fields, Takes (Keeping (·.mapType g)) x
      (f x.type >>= fun t => pure { x with type := t }) :=
    fun x hx => .bind_pure fun p =>
      congrArg (fun t => ({ x with type := t } : Field)) (hfields x hx p)
  have hconstant : ∀ c ∈ ms.constants, Takes (Keeping (·.mapType g)) c
      (f c.type >>= fun t => pure { c with type := t }) :=
    fun c hc => .bind_pure fun p =>
      congrArg (fun t => ({ c with type := t } : Constant)) (hconstants c hc p)
  have hargument : ∀ m ∈ ms.methods, ∀ a ∈ m.arguments, Takes (Keeping (·.mapType g)) a
      (f a.type >>= fun t => pure { a with type := t }) :=
    fun m hm a ha => .bind_pure fun p =>
      congrArg (fun t => ({ a with type := t } : Argument)) ((hmethods m hm).2 a ha p)
  have hmethod : ∀ m ∈ ms.methods, Takes (Keeping (·.mapTypes g)) m (do
      let returnType ← f m.returnType
      let arguments ← m.arguments.mapM fun arg => return { arg with type := ← f arg.type }
      return { m with returnType, arguments }) := by
    intro m hm p
    rw [run_bind, run_bind]
    have hreturn := (hmethods m hm).1 p
    have harguments := takes_mapM_keeping (hargument m hm) ((f m.returnType).run p).value.2
    rw [Keeping] at hreturn harguments ⊢
    simp only [run_pure, Method.mapTypes, hreturn]
    exact congrArg (fun arguments => { m with returnType := g m.returnType, arguments }) harguments
  intro p
  rw [mapTypesM, run_bind, run_bind, run_bind, Keeping]
  simp only [run_pure, mapTypes]
  exact congr (congr (congrArg mk (takes_mapM_keeping hfield p))
    (takes_mapM_keeping hconstant _)) (takes_mapM_keeping hmethod _)

/-- The types of members without regard to whether an interface is oneway. -/
theorem Members.typeSpecs_within (ms : Members) (isOneway : Bool) :
    typeSpecs { ms with methods := ms.methods.map (·.within isOneway) } = ms.typeSpecs := by
  simp [typeSpecs, List.flatMap_map, Method.within]

/-- A traversal of a declaration keeps of it what it keeps of its types. -/
theorem Decl.mapTypes_mapTypesM {d : Decl} (hf : ∀ t ∈ d.typeSpecs, Takes (Keeping g) t (f t)) :
    Takes (Keeping (mapTypes g)) d (d.mapTypesM f) := by
  obtain ⟨header, body⟩ := d
  cases body with
  | parcelable typeParams cppHeader => exact fun p => rfl
  | structured typeParams members =>
    exact .bind_pure fun p =>
      congrArg (Decl.mk header <| .structured typeParams ·) (Members.mapTypes_mapTypesM hf p)
  | union typeParams members =>
    exact .bind_pure fun p =>
      congrArg (Decl.mk header <| .union typeParams ·) (Members.mapTypes_mapTypesM hf p)
  | enum enumerators backing members =>
    exact .bind_pure fun p =>
      congrArg (Decl.mk header <| .enum enumerators backing ·) (Members.mapTypes_mapTypesM hf p)
  | interface isOneway members =>
    rw [typeSpecs, Decl.members, members?, Option.getD_some, Members.typeSpecs_within] at hf
    exact .bind_pure fun p =>
      congrArg (Decl.mk header <| .interface isOneway ·) (Members.mapTypes_mapTypesM hf p)

end Traversals

/-- A declaration without its backing type. -/
def Decl.withoutBacking (d : Decl) : Decl :=
  match d.body with
  | .enum enumerators _ members => { d with body := .enum enumerators none members }
  | _ => d

/-- A declaration as it is written: without the meanings of its names and its backing type. -/
def Decl.written (d : Decl) : Decl :=
  (d.mapTypes TypeSpec.unresolved).withoutBacking

/-- Completion gives an enum its backing type and changes nothing else. -/
theorem Decl.CompleteStep.withoutBacking_eq {r : Registry} {imports : List Import} {d d' : Decl}
    {p p' : Progress} {ds : List Diagnostic} (h : CompleteStep r imports d p d' p' ds) :
    d'.withoutBacking = d.withoutBacking := by
  cases h with
  | ended => rfl
  | other => rfl
  | invalid => rfl
  | filled b hbody =>
    obtain ⟨header, body⟩ := d
    cases hbody
    rfl

/-! ### The two passes -/

/-- The two passes over a document. -/
inductive DocumentPass where
  | resolution
  | completion
  deriving DecidableEq, Repr

namespace DocumentPass

/-- What a pass does with a declaration. -/
def step (r : Registry) : DocumentPass → List Import → Decl → Pass Decl
  | resolution => Decl.resolve r
  | completion => Decl.complete r

/-- A run of a pass over a document. -/
def run (r : Registry) (number : Nat) : DocumentPass → Reporting (Registry × Progress)
  | resolution => r.resolveDocument number
  | completion => r.completeDocument number

/-- A declaration less what a pass writes in it: the meanings of the names in its members, or its
backing type. -/
def outline : DocumentPass → Decl → Decl
  | resolution => Decl.mapTypes TypeSpec.unresolved
  | completion => Decl.withoutBacking

variable (pass : DocumentPass) (r : Registry) {number : Nat}

/-- A pass over a document is the run of its step through the declarations. -/
theorem run_eq_runPass (number : Nat) : pass.run r number = r.runPass number (pass.step r) := by
  cases pass <;> rfl

/-- A pass keeps the outline of each declaration that it comes to. -/
theorem takes_step_outline (imports : List Import) (d : Decl) :
    Takes (Keeping pass.outline) d (guarded d (pass.step r imports d)) := by
  cases pass with
  | resolution =>
    have hdecl : Takes (Keeping (Decl.mapTypes TypeSpec.unresolved)) d (d.resolve r imports) :=
      Decl.mapTypes_mapTypesM fun t _ => TypeSpec.unresolved_resolve _ t
    exact hdecl.guarded fun _ => rfl
  | completion => exact fun p => (d.takes_complete r imports p).withoutBacking_eq

/-- A pass keeps the shell of each declaration that it comes to. -/
theorem takes_step_shell (imports : List Import) (d : Decl) :
    Takes (Keeping Decl.shell) d (guarded d (pass.step r imports d)) := by
  cases pass with
  | resolution =>
    exact Takes.guarded (fun p => (d.takes_resolve r imports p).2.1) fun _ => rfl
  | completion => exact fun p => (d.takes_complete r imports p).shell_eq

/-- What is written of a declaration is kept by both passes. -/
theorem takes_step_written (imports : List Import) (d : Decl) :
    Takes (Keeping Decl.written) d (guarded d (pass.step r imports d)) := by
  have hcomm : ∀ d : Decl, d.written = d.withoutBacking.mapTypes TypeSpec.unresolved := by
    rintro ⟨header, body⟩
    cases body <;> rfl
  intro p
  have houtline := pass.takes_step_outline r imports d p
  cases pass with
  | resolution => exact congrArg Decl.withoutBacking houtline
  | completion =>
    rw [Keeping, hcomm, hcomm]
    exact congrArg (Decl.mapTypes TypeSpec.unresolved) houtline

section Views

variable {r} {α : Type} {view : Decl → α}
  (hview : ∀ imports d, Takes (Keeping view) d (guarded d (pass.step r imports d)))
include hview

/-- A run leaves the registry as it is, or puts back its document with the same views. -/
theorem run_cases (number : Nat) :
    (r.document? number = none ∧ pass.run r number = ⟨(r, .error (.unknownDocument number)), []⟩) ∨
      ∃ doc decls progress ds, r.document? number = some doc ∧
        pass.run r number = ⟨(r.withDecls number doc decls, progress), ds⟩ ∧
        decls.map view = doc.decls.map view := by
  rw [run_eq_runPass]
  cases hdoc : r.document? number with
  | none => exact .inl ⟨rfl, Registry.runPass_of_none hdoc⟩
  | some doc =>
    obtain ⟨decls, progress, ds, hrun, hsteps⟩ :=
      Registry.runPass_spec (R := fun _ => Keeping view) hview hdoc
    exact .inr ⟨doc, decls, progress, ds, rfl, hrun, hsteps.map_eq fun _ _ _ _ _ h => h⟩

/-- A run keeps the imports of its document and the views of the declarations. -/
theorem map_view_run (number : Nat) :
    ((pass.run r number).value.1.document? number).map
        (fun doc => (doc.imports, doc.decls.map view)) =
      (r.document? number).map fun doc => (doc.imports, doc.decls.map view) := by
  rcases pass.run_cases hview number with ⟨-, hrun⟩ | ⟨doc, decls, progress, ds, hdoc, hrun, hdecls⟩
  · rw [hrun]
  · rw [hrun, Registry.document?_withDecls hdoc, hdoc, Option.map_some, Option.map_some, hdecls]

end Views

/-- A run leaves everything but its document as it is. -/
theorem agreeBut_run (number : Nat) : r.AgreeBut number (pass.run r number).value.1 := by
  rcases pass.run_cases (pass.takes_step_shell r) number with
    ⟨-, hrun⟩ | ⟨doc, decls, progress, ds, -, hrun, -⟩
  · rw [hrun]
    exact .refl number r
  · rw [hrun]
    exact r.agreeBut_withDecls number doc decls

/-- A run leaves the shells of all declarations as they are. -/
theorem shells_run (number : Nat) : (pass.run r number).value.1.shells = r.shells := by
  rcases pass.run_cases (pass.takes_step_shell r) number with
    ⟨-, hrun⟩ | ⟨doc, decls, progress, ds, hdoc, hrun, hshells⟩
  · rw [hrun]
  · rw [hrun]
    exact Registry.shells_withDecls hdoc hshells

/-- A run depends on the index and its own document only. -/
theorem run_congr {r r' : Registry} (hindex : r'.index = r.index)
    (hdoc : r'.document? number = r.document? number) :
    (pass.run r' number).value.1.document? number =
        (pass.run r number).value.1.document? number ∧
      (pass.run r' number).value.2 = (pass.run r number).value.2 ∧
      (pass.run r' number).diagnostics = (pass.run r number).diagnostics := by
  have hstep : pass.step r' = pass.step r := by
    cases pass with
    | resolution => exact Registry.resolve_decl_congr hindex
    | completion => exact Registry.complete_decl_congr hindex
  rw [run_eq_runPass, run_eq_runPass, hstep]
  cases hold : r.document? number with
  | none =>
    rw [hold] at hdoc
    rw [Registry.runPass_of_none hold, Registry.runPass_of_none hdoc]
    exact ⟨hdoc.trans hold.symm, rfl, rfl⟩
  | some doc =>
    rw [hold] at hdoc
    -- the runs go through the same declarations, and put them back in different registries
    rw [Registry.runPass_of_some hold, Registry.runPass_of_some hdoc]
    exact ⟨by rw [Registry.document?_withDecls hdoc, Registry.document?_withDecls hold], rfl, rfl⟩

/-- **Confinement**: a run of resolution or completion over a document, whatever its outcome, leaves
the index, all other documents, and in its document everything except the meanings of names or the
backing types. Runs over two documents can be exchanged: each has the same result and reports the
same in both orders, and the registry is the same in the end. -/
theorem confined (pass pass' : DocumentPass) (r : Registry) {a b : Nat} (hab : a ≠ b) :
    let first := pass.run r a
    let second := pass'.run first.value.1 b
    let second' := pass'.run r b
    let first' := pass.run second'.value.1 a
    (first.value.1.index = r.index ∧
      (∀ other, other ≠ a → first.value.1.document? other = r.document? other) ∧
      (first.value.1.document? a).map (fun doc => (doc.imports, doc.decls.map pass.outline)) =
        (r.document? a).map fun doc => (doc.imports, doc.decls.map pass.outline)) ∧
    second.value.1 = first'.value.1 ∧
    (first'.value.2 = first.value.2 ∧ first'.diagnostics = first.diagnostics) ∧
    (second'.value.2 = second.value.2 ∧ second'.diagnostics = second.diagnostics) := by
  intro first second second' first'
  have hfirst := pass.agreeBut_run r a
  have hsecond := pass'.agreeBut_run r b
  obtain ⟨hdoc, hresult, hreports⟩ :=
    pass.run_congr hsecond.index_eq (hsecond.document?_eq a hab)
  obtain ⟨hdoc', hresult', hreports'⟩ :=
    pass'.run_congr hfirst.index_eq (hfirst.document?_eq b hab.symm)
  refine ⟨⟨hfirst.index_eq, hfirst.document?_eq,
    pass.map_view_run (pass.takes_step_outline r) a⟩, ?_, ⟨hresult, hreports⟩, hresult'.symm,
    hreports'.symm⟩
  exact hfirst.exchange hab hsecond (pass'.agreeBut_run _ b) (pass.agreeBut_run _ a) hdoc hdoc'

end DocumentPass

namespace Registry

open DocumentPass

/-- An enum with one enumerator. -/
def level : Document :=
  let loc : Location := ⟨"Level.aidl", none⟩
  ⟨[], [⟨⟨loc, "p", "Level", "", {}⟩, .enum [⟨loc, "LOW", none, ""⟩] none {}⟩]⟩

/-- A parcelable with a field of that enum, whose default is the enumerator. -/
def dial : Document :=
  let loc : Location := ⟨"Dial.aidl", none⟩
  let low : Expr := .reference loc "Level.LOW"
  ⟨[], [⟨⟨loc, "p", "Dial", "", {}⟩,
    .structured none { fields := [⟨loc, .named loc "Level", "level", some low⟩] }⟩]⟩

/-- The dial is resolved and the level completed, in either order: the registry is the same
afterwards, and the dial resolves with the same result. -/
theorem exchange_dial_level :
    let r := ((empty.addDocument dial).value.addDocument level).value
    let resolved := resolution.run r 0
    let completed := completion.run r 1
    (completion.run resolved.value.1 1).value.1 = (resolution.run completed.value.1 0).value.1 ∧
      (resolution.run completed.value.1 0).value.2.toOption = some true := by
  intro r resolved completed
  obtain ⟨-, hregistry, ⟨hresult, -⟩, -⟩ :=
    confined resolution completion r (a := 0) (b := 1) (by decide)
  refine ⟨hregistry, ?_⟩
  rw [hresult]
  decide +kernel

end Registry

end InterfaceDefinition
