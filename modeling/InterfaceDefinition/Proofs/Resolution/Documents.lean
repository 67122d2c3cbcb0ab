import InterfaceDefinition.Proofs.Resolution.Completion

/-!
# Passes over documents

Resolution and completion put a document back in which the declarations have been taken one after
the other by the steps of the pass (`Registry.resolveDocument_spec`,
`Registry.completeDocument_spec`), also when the pass fails or is ended. A document that does not
exist is an internal error, and nothing changes.
-/

namespace InterfaceDefinition

open Pass

namespace Registry

/-- The registry with other declarations in one of its documents. -/
def withDecls (r : Registry) (number : Nat) (doc : Document) (decls : List Decl) : Registry :=
  { r with documents := r.documents.set number { doc with decls } }

@[simp] theorem index_withDecls (r : Registry) (number : Nat) (doc : Document) (decls : List Decl) :
    (r.withDecls number doc decls).index = r.index := rfl

/-- The new declarations of a document are those that are found in it. -/
theorem document?_withDecls {r : Registry} {number : Nat} {doc : Document}
    (hdoc : r.document? number = some doc) (decls : List Decl) :
    (r.withDecls number doc decls).document? number = some { doc with decls } := by
  have hlt : number < r.documents.length := (List.getElem?_eq_some_iff.mp hdoc).1
  simp [document?, withDecls, hlt]

/-- A document that is put back again is the one put back last. -/
theorem withDecls_withDecls (r : Registry) (number : Nat) (doc doc' : Document)
    (decls decls' : List Decl) :
    (r.withDecls number doc decls).withDecls number doc' decls' =
      r.withDecls number doc' decls' := by
  simp [withDecls]

variable {r : Registry} {number : Nat} {step : List Import → Decl → Pass Decl}

/-- Without a document of the number a pass ends at once, and nothing changes. -/
theorem runPass_of_none (h : r.document? number = none) :
    r.runPass number step = ⟨(r, .error (.unknownDocument number)), []⟩ := by
  rw [runPass, h]
  rfl

/-- A pass goes through the declarations of a document and puts the document back. -/
theorem runPass_of_some {doc : Document} (h : r.document? number = some doc) :
    r.runPass number step =
      let passed := (doc.decls.mapM fun d => guarded d (step doc.imports d)).start
      ⟨(r.withDecls number doc passed.value.1, passed.value.2), passed.diagnostics⟩ := by
  rw [runPass, h]
  dsimp only
  rw [Reporting.bind_def]
  simp only [Reporting.pure_def, List.append_nil]
  rfl

/-- A pass that takes each declaration by a step takes the declarations of a document one after the
other. -/
theorem runPass_spec {R : List Import → StepRel Decl}
    (hstep : ∀ imports d, Takes (R imports) d (guarded d (step imports d))) {doc : Document}
    (hdoc : r.document? number = some doc) :
    ∃ decls progress ds, r.runPass number step = ⟨(r.withDecls number doc decls, progress), ds⟩ ∧
      Steps (R doc.imports) doc.decls (.ok true) decls progress ds := by
  have hpass : Takes (Steps (R doc.imports)) doc.decls
      (doc.decls.mapM fun d => guarded d (step doc.imports d)) :=
    .mapM fun d _ => hstep doc.imports d
  exact ⟨_, _, _, runPass_of_some hdoc, hpass (.ok true)⟩

/-- Resolution goes through the declarations of the document one by one, with the registry as it was
before. -/
theorem resolveDocument_spec (r : Registry) {number : Nat} {doc : Document}
    (hdoc : r.document? number = some doc) :
    ∃ decls progress ds, r.resolveDocument number =
        ⟨(r.withDecls number doc decls, progress), ds⟩ ∧
      Steps (Decl.ResolveStep r doc.imports) doc.decls (.ok true) decls progress ds :=
  runPass_spec (R := fun imports => Decl.ResolveStep r imports)
    (fun imports d => (d.takes_resolve r imports).guarded fun e => .ended d e) hdoc

/-- So does completion. -/
theorem completeDocument_spec (r : Registry) {number : Nat} {doc : Document}
    (hdoc : r.document? number = some doc) :
    ∃ decls progress ds, r.completeDocument number =
        ⟨(r.withDecls number doc decls, progress), ds⟩ ∧
      Steps (Decl.CompleteStep r doc.imports) doc.decls (.ok true) decls progress ds :=
  runPass_spec (R := fun imports => Decl.CompleteStep r imports)
    (fun imports d => d.takes_complete r imports) hdoc

/-- Resolution leaves the registry as it is, or with the declarations that a run through one of its
documents leaves. -/
theorem resolveDocument_cases (r : Registry) (number : Nat) :
    (r.resolveDocument number).value.1 = r ∨
      ∃ doc decls progress ds, r.document? number = some doc ∧
        Steps (Decl.ResolveStep r doc.imports) doc.decls (.ok true) decls progress ds ∧
        (r.resolveDocument number).value.1 = r.withDecls number doc decls := by
  cases hdoc : r.document? number with
  | none =>
    rw [resolveDocument, runPass_of_none hdoc]
    exact .inl rfl
  | some doc =>
    obtain ⟨decls, progress, ds, hrun, hsteps⟩ := r.resolveDocument_spec hdoc
    exact .inr ⟨doc, decls, progress, ds, rfl, hsteps, by rw [hrun]⟩

/-- Completion leaves the registry as it is, or with the declarations that a run through one of its
documents leaves. -/
theorem completeDocument_cases (r : Registry) (number : Nat) :
    (r.completeDocument number).value.1 = r ∨
      ∃ doc decls progress ds, r.document? number = some doc ∧
        Steps (Decl.CompleteStep r doc.imports) doc.decls (.ok true) decls progress ds ∧
        (r.completeDocument number).value.1 = r.withDecls number doc decls := by
  cases hdoc : r.document? number with
  | none =>
    rw [completeDocument, runPass_of_none hdoc]
    exact .inl rfl
  | some doc =>
    obtain ⟨decls, progress, ds, hrun, hsteps⟩ := r.completeDocument_spec hdoc
    exact .inr ⟨doc, decls, progress, ds, rfl, hsteps, by rw [hrun]⟩

/-- A resolution that is not ended gives every name of a document the meaning it is read as, if
there is one. -/
theorem resolution_of_resolveDocument {doc : Document} (hdoc : r.document? number = some doc)
    {b : Bool} (hok : (r.resolveDocument number).value.2 = .ok b) :
    ∃ after, (r.resolveDocument number).value.1.document? number = some after ∧
      ∀ d ∈ after.decls, ∀ t ∈ d.nodes, t.base.resolution =
        (r.resolver doc.imports d.header.package d.typeParams t.base.written).value := by
  obtain ⟨decls, progress, ds, hrun, hsteps⟩ := r.resolveDocument_spec hdoc
  rw [hrun] at hok ⊢
  have hnames := hsteps.traced_back (G := fun p => ∃ b, p = .ok b)
    (fun _ _ _ _ _ hstep ⟨_, hp'⟩ => hstep.resolution_of_ok hp') ⟨b, hok⟩
  exact ⟨_, document?_withDecls hdoc decls, hnames.2⟩

/-- A completion that succeeds gives every name in a backing type the meaning it is read as, if
there is one. -/
theorem resolution_of_completeDocument {doc : Document} (hdoc : r.document? number = some doc)
    (hok : (r.completeDocument number).value.2 = .ok true) :
    ∃ after, (r.completeDocument number).value.1.document? number = some after ∧
      ∀ d ∈ after.decls, ∀ backing ∈ d.backing?, ∀ t ∈ backing.nodes, t.base.resolution =
        (r.resolver doc.imports d.header.package [] t.base.written).value := by
  obtain ⟨decls, progress, ds, hrun, hsteps⟩ := r.completeDocument_spec hdoc
  rw [hrun] at hok ⊢
  exact ⟨_, document?_withDecls hdoc decls, (hsteps.resolution_of_ok_true hok).2⟩

/-- A completion that succeeds without reporting an error gives every enum a backing type that is a
resolved name. -/
theorem backing_of_completeDocument {doc : Document}
    (hdoc : (r.completeDocument number).value.1.document? number = some doc)
    (hok : (r.completeDocument number).value.2 = .ok true)
    (hsilent : ∀ d ∈ (r.completeDocument number).diagnostics, d.isError = false) :
    ∀ d ∈ doc.decls, d.kind = .enum → ∃ backing ∈ d.backing?, backing.IsResolvedName := by
  cases hbefore : r.document? number with
  | none =>
    rw [completeDocument, runPass_of_none hbefore] at hok
    cases hok
  | some before =>
    obtain ⟨decls, progress, ds, hrun, hsteps⟩ := r.completeDocument_spec hbefore
    rw [hrun] at hdoc hok hsilent
    rw [document?_withDecls hbefore] at hdoc
    obtain rfl := Option.some.inj hdoc
    have hbacking := hsteps.traced_back_reporting (G := fun p => p = .ok true)
      (fun _ _ _ _ _ hstep hsilent hp' => hstep.backing_of_silent hsilent hp') hsilent hok
    exact hbacking.2

end Registry

end InterfaceDefinition
