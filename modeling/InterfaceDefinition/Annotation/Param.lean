import InterfaceDefinition.Evaluation
import InterfaceDefinition.Options

/-!
# Annotation parameters

The values of annotation parameters. They are evaluated without any declarations, against the type
that the schema gives them, and their renderings make up the printed form of an annotation.
-/

namespace InterfaceDefinition

/-- The type of values that a parameter type admits. -/
def ParamType.valueType (t : ParamType) : ValueType :=
  ⟨.builtin t.typeName, false⟩

namespace Annotation

/-- The type that the schema gives to a parameter. -/
def paramType? (a : Annotation) (param : String) : Option ParamType :=
  a.kind.schema.paramType? param

/-- The value of a parameter that the schema knows and that was given. -/
def paramValue? (a : Annotation) (param : String) : Option Value := do
  let type ← a.paramType? param
  let expr ← a.param? param
  (Registry.empty.evaluate expr type.valueType "").toOption

/-- The value of a string parameter, without quotes. -/
def paramString? (a : Annotation) (param : String) : Option String :=
  match a.paramValue? param with
  | some (.string content) => some content
  | _ => none

/-- The value of a boolean parameter. -/
def paramBool? (a : Annotation) (param : String) : Option Bool :=
  match a.paramValue? param with
  | some (.boolean b) => some b
  | _ => none

/-- The rendered value of an expression as a parameter; empty when it has none. -/
def renderParam (type : ParamType) (expr : Expr) : String :=
  Registry.empty.valueTextOrEmpty expr type.valueType ""

/-- The parameters that the schema knows, rendered, in the order of their names. -/
def paramTexts (a : Annotation) : List (String × String) :=
  a.params.filterMap fun (param, expr) =>
    (a.paramType? param).map fun type => (param, renderParam type expr)

/-- The printed form: the name, and the known parameters in parentheses if any were given. -/
def text (a : Annotation) : String :=
  if a.params.isEmpty then "@" ++ a.name
  else
    let shown := a.paramTexts.map fun (param, value) => param ++ "=" ++ value
    "@" ++ a.name ++ "(" ++ ", ".intercalate shown ++ ")"

end Annotation

namespace AnnotationSet

/-- The printed form: the printed annotations in alphabetical order. -/
def text (s : AnnotationSet) : String :=
  " ".intercalate ((s.toList.map Annotation.text).mergeSort (· ≤ ·))

/-! ### What annotations ask for -/

/-- Whether a parcelable is stable for a backend, which only the one for Java knows. -/
def isStableFor (s : AnnotationSet) (backend : Backend) : Bool :=
  backend == .java && s.has .javaStableParcelable

/-- A switch of the first annotation of a kind; off when it is not given. -/
def switch (s : AnnotationSet) (kind : AnnotationKind) (param : String) : Bool :=
  ((s.get? kind).bind (·.paramBool? param)).getD false

/-- Whether a Java method is to be derived. -/
def derivesJava (s : AnnotationSet) (method : String) : Bool :=
  s.switch .javaDerive method

/-- The Rust traits to be derived, in the order of the schema. -/
def derivedRust (s : AnnotationSet) : List String :=
  AnnotationKind.rustDerive.schema.paramNames.filter (s.switch .rustDerive)

/-- The texts of all annotations that are passed through to Java. -/
def javaPassthrough (s : AnnotationSet) : List String :=
  (s.toList.filter (·.kind == .javaPassthrough)).filterMap (·.paramString? "annotation")

/-- The descriptor that replaces the canonical name of an interface. -/
def descriptor? (s : AnnotationSet) : Option String :=
  (s.get? .descriptor).bind (·.paramString? "value")

/-- The backing type that is named for an enum. -/
def backingName? (s : AnnotationSet) : Option String :=
  (s.get? .backing).bind (·.paramString? "type")

end AnnotationSet

end InterfaceDefinition
