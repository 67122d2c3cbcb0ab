import InterfaceDefinition.Decl.Check
import InterfaceDefinition.Diagnostic.Collector
import InterfaceDefinition.Resolution

/-!
# Validation

The whole check of a document: resolution, completion and the general checks, each only if the one
before it passed (`Registry.checkGenerally_cases`); then, if the collector of their reports holds no
error, the checks of every requested backend, each with a collector of its own. Those are merged in
the order of the request.
-/

namespace InterfaceDefinition

/-- What a validation found. `backends` holds a verdict for every requested backend, or nothing when
the validation stopped before it came to them. -/
structure ValidationReport where
  diagnostics : List Diagnostic
  valid : Bool
  backends : List (Backend × Bool) := []

namespace ValidationReport

/-- The number of errors. -/
def errorCount (report : ValidationReport) : Nat :=
  report.diagnostics.countP (·.isError)

/-- The number of warnings. -/
def warningCount (report : ValidationReport) : Nat :=
  report.diagnostics.countP (!·.isError)

/-- The verdict for a backend, if it was checked. -/
def backend? (report : ValidationReport) (b : Backend) : Option Bool :=
  report.backends.lookup b

end ValidationReport

namespace Registry

/-- Checks every declaration of a document of the registry. -/
def checkDocument (r : Registry) (number : Nat) : Reporting Progress :=
  match r.document? number with
  | none => pure (.error (.unknownDocument number))
  | some doc => (doc.check r).run

/-- The part of a validation that is the same for all backends, with the registry it leaves. -/
def checkGenerally (r : Registry) (number : Nat) : Reporting (Registry × Progress) := do
  let (r, resolved) ← r.resolveDocument number
  match resolved with
  | .ok true =>
    let (r, completed) ← r.completeDocument number
    match completed with
    | .ok true => return (r, ← r.checkDocument number)
    | _ => return (r, completed)
  | _ => return (r, resolved)

/-- The three phases of the general part: it ends with the first that does not succeed. -/
theorem checkGenerally_cases (r : Registry) (number : Nat) :
    let resolved := r.resolveDocument number
    let completed := resolved.value.1.completeDocument number
    let checked := completed.value.1.checkDocument number
    (resolved.value.2 ≠ .ok true ∧ r.checkGenerally number = resolved) ∨
      (resolved.value.2 = .ok true ∧ completed.value.2 ≠ .ok true ∧
        r.checkGenerally number =
          ⟨completed.value, resolved.diagnostics ++ completed.diagnostics⟩) ∨
      (resolved.value.2 = .ok true ∧ completed.value.2 = .ok true ∧
        r.checkGenerally number =
          ⟨(completed.value.1, checked.value),
            resolved.diagnostics ++ (completed.diagnostics ++ checked.diagnostics)⟩) := by
  intro resolved completed checked
  have hgenerally : r.checkGenerally number = resolved >>= fun resolved =>
      match resolved.2 with
      | .ok true => resolved.1.completeDocument number >>= fun completed =>
        match completed.2 with
        | .ok true =>
          completed.1.checkDocument number >>= fun progress => pure (completed.1, progress)
        | _ => pure (completed.1, completed.2)
      | _ => pure (resolved.1, resolved.2) := rfl
  rw [hgenerally, Reporting.bind_def]
  by_cases hresolved : resolved.value.2 = .ok true
  · rw [hresolved]
    by_cases hcompleted : completed.value.2 = .ok true
    · refine .inr (.inr ⟨rfl, hcompleted, ?_⟩)
      simp [completed, checked, hcompleted]
    · refine .inr (.inl ⟨rfl, hcompleted, ?_⟩)
      simp only [Reporting.bind_def]
      split
      · contradiction
      · simp [completed]
  · refine .inl ⟨hresolved, ?_⟩
    split
    · contradiction
    · simp [resolved]

/-- Checks every declaration of a document for one backend. -/
def checkBackend (r : Registry) (number : Nat) (b : Backend) : Reporting Bool :=
  match r.document? number with
  | none => pure true
  | some doc => doc.checkFor r b

/-- The verdict for a backend, with what it reports in a fork of the given collector. -/
def checkBackendWith (r : Registry) (number : Nat) (template : Collector) (b : Backend) :
    (Backend × Bool) × Collector :=
  let checked := r.checkBackend number b
  ((b, checked.value), template.fork.addAll checked.diagnostics)

/-- Validates a document: the registry it leaves, and the report, or the internal error for which
the validation was abandoned. -/
def validate (r : Registry) (number : Nat) (options : Options) :
    Registry × Except InternalError ValidationReport :=
  let general := r.checkGenerally number
  let (after, progress) := general.value
  let collector := Collector.addAll { switches := options.advisories } general.diagnostics
  let report := progress.map fun passed =>
    if passed && !collector.hasErrors then
      let checked := options.backends.map (after.checkBackendWith number collector.fork)
      let merged := checked.foldl (fun c (_, own) => c.merge own) collector
      let backends := checked.map (·.1)
      { diagnostics := merged.held, valid := backends.all (·.2), backends }
    else { diagnostics := collector.held, valid := false }
  (after, report)

end Registry

end InterfaceDefinition
