import InterfaceDefinition.Annotation.Param
import InterfaceDefinition.Expr.WellFormed

/-!
# Checks of annotations

An annotation is valid when its parameters are those of its schema and have values; a set of
annotations is valid for a node when the node supports each, each is valid, and none is repeated
that may stand only once.
-/

namespace InterfaceDefinition

/-! ### One annotation -/

/-- What can be wrong with an annotation. -/
inductive AnnotationFault where
  | unknownParam (param name : String) (known : List String)
  | reference (name : String)
  | invalidValue (param name : String)
  | missingParam (param name : String)

namespace AnnotationFault

/-- The code of a fault. -/
def code : AnnotationFault → String
  | unknownParam .. => "E0002"
  | reference .. => "E0003"
  | invalidValue .. => "E0004"
  | missingParam .. => "E0005"

/-- The text of a fault. -/
def message : AnnotationFault → String
  | unknownParam param name known =>
    "Parameter " ++ param ++ " not supported for annotation " ++ name ++
      ". It must be one of: " ++ " ".intercalate known
  | reference name =>
    "Value must be a constant expression but contains reference to " ++ name ++ "."
  | invalidValue param name =>
    "Invalid value for parameter " ++ param ++ " on annotation " ++ name ++ "."
  | missingParam param name => "Missing '" ++ param ++ "' on @" ++ name ++ "."

/-- A fault reported at a place. -/
def diagnostic (fault : AnnotationFault) (loc : Location) : Diagnostic :=
  .error loc fault.code fault.message

end AnnotationFault

namespace Annotation

/-- What is wrong with a parameter that was given: the schema does not know it, its expression
refers to something, or it has no value of the type the schema gives it. -/
def paramFault? (a : Annotation) (param : String) (expr : Expr) : Option Diagnostic :=
  match a.paramType? param, expr.firstReference? with
  | none, _ =>
    let fault := AnnotationFault.unknownParam param a.name a.kind.schema.paramNames
    some (fault.diagnostic a.location)
  | some _, some reference =>
    some ((AnnotationFault.reference reference.text).diagnostic reference.location)
  | some type, none =>
    if expr.isWellFormed && !(renderParam type expr).isEmpty then none
    else some ((AnnotationFault.invalidValue param a.name).diagnostic a.location)

/-- What is wrong when a required parameter was not given. -/
def requiredFault? (a : Annotation) (param : String) : Option Diagnostic :=
  if (a.param? param).isSome then none
  else some ((AnnotationFault.missingParam param a.name).diagnostic a.location)

/-- Checks every parameter that was given, then that every required one was. -/
def check (a : Annotation) : Reporting Bool := do
  let given ← checkEach (fun (param, expr) => .verdict (a.paramFault? param expr)) a.params
  let required ← checkEach (fun param => .verdict (a.requiredFault? param)) a.kind.schema.required
  return given && required

end Annotation

/-! ### The annotations of a node -/

namespace AnnotationSet

/-- The error that a node does not support an annotation; it lists the ones it does. -/
def unsupported (owner : Location) (supported : List AnnotationKind) (a : Annotation) :
    Diagnostic :=
  .error owner "E0006"
    ("'" ++ a.name ++ "' is not a supported annotation for this node. It must be one of: " ++
      AnnotationKind.joinNames supported)

/-- The error that an annotation stands on a node a second time. -/
def repeated (owner : Location) (a first : Annotation) : Diagnostic :=
  .duplicate owner first.location "E0007"
    ("'" ++ a.name ++ "' is repeated, but not allowed. Previous location: " ++ first.location.text)

/-- Checks one annotation of a node. `seen` holds the earlier ones that were supported and valid and
may stand only once; the annotation joins them if it is the first of its kind. -/
def checkOne (owner : Location) (supported : List AnnotationKind) (seen : List Annotation)
    (a : Annotation) : Reporting (Bool × List Annotation) := do
  if !supported.contains a.kind then
    .report (unsupported owner supported a)
    return (false, seen)
  else if !(← a.check) then
    return (false, seen)
  else if a.kind.schema.repeatable then
    return (true, seen)
  else
    match seen.find? (·.kind == a.kind) with
    | some first =>
      .report (repeated owner a first)
      return (false, seen)
    | none => return (true, seen ++ [a])

/-- Checks annotations in order, after the ones seen before them. -/
def checkFrom (owner : Location) (supported : List AnnotationKind) (seen : List Annotation) :
    List Annotation → Reporting Bool
  | [] => pure true
  | a :: rest => do
    let (here, seen) ← checkOne owner supported seen a
    let others ← checkFrom owner supported seen rest
    return here && others

/-- Checks the annotations of a node that supports the given ones. -/
def check (s : AnnotationSet) (owner : Location) (supported : List AnnotationKind) :
    Reporting Bool :=
  checkFrom owner supported [] s.toList

end AnnotationSet

end InterfaceDefinition
