import InterfaceDefinition.Evaluation
import InterfaceDefinition.Annotation.Check

/-!
# Resolution

Two passes over a document write into it: resolution records what every type name stands for, and
completion gives every enum its backing type. Both go on after a failure, so that all failures are
reported; an internal error ends them and leaves the rest of the document as it was.

A name written in a declaration is read, in this order, as a type parameter of the declaration,
through the imports of the document, as a builtin type, below the package, and by itself.
-/

namespace InterfaceDefinition

/-! ### Passes -/

/-- How a pass stands: whether everything has succeeded so far, or the internal error that ended
it. -/
abbrev Progress := Except InternalError Bool

/-- A step of a pass: it reads and changes the progress, and reports. -/
abbrev Pass := StateT Progress Reporting

namespace Pass

/-- Notes that something failed; the pass goes on. -/
def fail : Pass Unit :=
  modify fun progress => progress.map fun _ => false

/-- Ends the pass. -/
def abort (e : InternalError) : Pass Unit :=
  set (.error e : Progress)

/-- Runs a step unless the pass has ended, in which case nothing changes. -/
def guarded {α : Type} (unchanged : α) (step : Pass α) : Pass α := do
  match ← get with
  | .error _ => return unchanged
  | .ok _ => step

/-- Runs a pass from its beginning. -/
def start {α : Type} (pass : Pass α) : Reporting (α × Progress) :=
  pass.run (.ok true)

end Pass

/-! ### Names in scope -/

/-- The meaning of written names; reading one may report. -/
abbrev Resolver := String → Reporting (Option Resolution)

/-- The meaning of a name written in a declaration with some type parameters, in a package, under
some imports. -/
def Registry.resolver (r : Registry) (imports : List Import) (package : String)
    (typeParams : List String) : Resolver := fun name =>
  if typeParams.contains name then pure (some ⟨name, none⟩)
  else do
    match ← Import.resolveName imports name with
    | none => return none
    | some full => return r.resolveIn package full

/-! ### Types -/

namespace TypeSpec

/-- The error that a name stands for nothing. -/
def unresolvedName (loc : Location) (name : String) : Diagnostic :=
  .error loc "E0101" ("Failed to resolve '" ++ name ++ "'")

/-- Resolves one name; a name that is resolved already ends the pass. -/
def resolveName (resolver : Resolver) (loc : Location) (name : TypeName) : Pass TypeName := do
  if name.isResolved then
    Pass.abort (.alreadyResolved loc name.text)
    return name
  else
    match ← resolver name.written with
    | some resolution => return { name with resolution := some resolution }
    | none =>
      Reporting.report (unresolvedName loc name.written)
      Pass.fail
      return name

mutual

/-- Resolves a type: its name, then its arguments in order. -/
def resolve (resolver : Resolver) : TypeSpec → Pass TypeSpec
  | ⟨loc, base, arguments, isArray, annotations, comments⟩ => do
    let base ← Pass.guarded base (resolveName resolver loc base)
    let arguments ← resolveAll resolver arguments
    return ⟨loc, base, arguments, isArray, annotations, comments⟩

/-- Resolves several types in order. -/
def resolveAll (resolver : Resolver) : List TypeSpec → Pass (List TypeSpec)
  | [] => return []
  | t :: rest => do
    let t ← resolve resolver t
    let rest ← resolveAll resolver rest
    return t :: rest

end

theorem resolveAll_eq_mapM (resolver : Resolver) (ts : List TypeSpec) :
    resolveAll resolver ts = ts.mapM (resolve resolver) := by
  induction ts with
  | nil => rw [resolveAll]; rfl
  | cons t ts ih => rw [resolveAll, ih, List.mapM_cons]

end TypeSpec

/-! ### Declarations -/

/-- Resolves every type of a declaration's members. -/
def Decl.resolve (r : Registry) (imports : List Import) (d : Decl) : Pass Decl :=
  d.mapTypesM (TypeSpec.resolve (r.resolver imports d.header.package d.typeParams))

/-! ### Backing types -/

/-- The unresolved backing type of an enum with the given annotations: the one they name, or the
default. There is none, and a failure is noted, when the annotation that names it is not valid. -/
def AnnotationSet.backing (s : AnnotationSet) : Pass (Option TypeSpec) := do
  match s.get? .backing with
  | none =>
    return some (.named ⟨"<default backing type>", none⟩ Vocabulary.defaultBacking)
  | some a =>
    if ← a.check then
      match a.paramString? "type" with
      | some name => return some (.named a.location name)
      | none =>
        Pass.abort (.backingWithoutType a.location)
        return none
    else
      Pass.fail
      return none

/-- The error that the backing type of an enum stands for nothing. -/
def Header.invalidBacking (h : Header) (t : TypeSpec) : Diagnostic :=
  .error h.location "E0209" ("Invalid backing type: " ++ t.name)

/-- Gives an enum its backing type. One that stands for nothing is reported and kept unresolved,
which is left to the checks and does not count as a failure here. -/
def Decl.complete (r : Registry) (imports : List Import) (d : Decl) : Pass Decl := do
  match d.body with
  | .enum enumerators _ members =>
    match ← d.annotations.backing with
    | none => return d
    | some backing =>
      let resolver := r.resolver imports d.header.package []
      let (backing, progress) := (Pass.start (backing.resolve resolver)).value
      match progress with
      | .error e =>
        Pass.abort e
        return d
      | .ok resolved =>
        unless resolved do
          Reporting.report (d.header.invalidBacking backing)
        return { d with body := .enum enumerators (some backing) members }
  | _ => return d

/-! ### Documents -/

namespace Registry

/-- Runs a pass over the declarations of a document and puts the document it makes of it back, also
when the pass fails or is ended. -/
def runPass (r : Registry) (number : Nat) (step : List Import → Decl → Pass Decl) :
    Reporting (Registry × Progress) :=
  match r.document? number with
  | none => pure (r, .error (.unknownDocument number))
  | some doc => do
    let pass := doc.decls.mapM fun d => Pass.guarded d (step doc.imports d)
    let (decls, progress) ← pass.start
    return ({ r with documents := r.documents.set number { doc with decls } }, progress)

/-- Resolves every type of a document. -/
def resolveDocument (r : Registry) (number : Nat) : Reporting (Registry × Progress) :=
  r.runPass number (Decl.resolve r)

/-- Gives every enum of a document its backing type. -/
def completeDocument (r : Registry) (number : Nat) : Reporting (Registry × Progress) :=
  r.runPass number (Decl.complete r)

end Registry

end InterfaceDefinition
