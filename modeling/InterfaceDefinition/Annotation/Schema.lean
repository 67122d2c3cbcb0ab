/-!
# Annotation schemas

The annotations there are, and for each the parameters it takes, the ones it must have, and whether
it may stand twice on one node.
-/

namespace InterfaceDefinition

/-- The annotations there are. -/
inductive AnnotationKind where
  | nullable
  | utf8InCpp
  | sensitiveData
  | vintfStability
  | unsupportedAppUsage
  | javaStableParcelable
  | hide
  | backing
  | javaPassthrough
  | javaDerive
  | javaOnlyImmutable
  | fixedSize
  | descriptor
  | rustDerive
  deriving DecidableEq, Repr

/-- The types of annotation parameters. -/
inductive ParamType where
  | string
  | int
  | long
  | boolean
  deriving DecidableEq, Repr

/-- The name of the builtin type that a parameter type is. -/
def ParamType.typeName : ParamType → String
  | string => "String"
  | int => "int"
  | long => "long"
  | boolean => "boolean"

/-- What an annotation is called and takes; the parameters are in the order of their names. -/
structure Schema where
  name : String
  params : List (String × ParamType) := []
  required : List String := []
  repeatable : Bool := false
  deriving Repr

/-- The type that a schema gives to a parameter. -/
def Schema.paramType? (schema : Schema) (param : String) : Option ParamType :=
  schema.params.lookup param

/-- The names of the parameters of a schema. -/
def Schema.paramNames (schema : Schema) : List String :=
  schema.params.map (·.1)

namespace AnnotationKind

/-- Every annotation, in the order in which messages list them. -/
def all : List AnnotationKind :=
  [nullable, utf8InCpp, sensitiveData, vintfStability, unsupportedAppUsage, javaStableParcelable,
    hide, backing, javaPassthrough, javaDerive, javaOnlyImmutable, fixedSize, descriptor,
    rustDerive]

/-- The schema of an annotation. -/
def schema : AnnotationKind → Schema
  | nullable => { name := "nullable" }
  | utf8InCpp => { name := "utf8InCpp" }
  | sensitiveData => { name := "SensitiveData" }
  | vintfStability => { name := "VintfStability" }
  | unsupportedAppUsage =>
    { name := "UnsupportedAppUsage"
      params :=
        [("expectedSignature", .string), ("implicitMember", .string), ("maxTargetSdk", .int),
          ("publicAlternatives", .string), ("trackingBug", .long)] }
  | javaStableParcelable => { name := "JavaOnlyStableParcelable" }
  | hide => { name := "Hide" }
  | backing =>
    { name := "Backing", params := [("type", .string)], required := ["type"] }
  | javaPassthrough =>
    { name := "JavaPassthrough"
      params := [("annotation", .string)]
      required := ["annotation"]
      repeatable := true }
  | javaDerive =>
    { name := "JavaDerive", params := [("equals", .boolean), ("toString", .boolean)] }
  | javaOnlyImmutable => { name := "JavaOnlyImmutable" }
  | fixedSize => { name := "FixedSize" }
  | descriptor =>
    { name := "Descriptor", params := [("value", .string)], required := ["value"] }
  | rustDerive =>
    { name := "RustDerive"
      params :=
        [("Clone", .boolean), ("Copy", .boolean), ("Eq", .boolean), ("Hash", .boolean),
          ("Ord", .boolean), ("PartialEq", .boolean), ("PartialOrd", .boolean)] }

/-- The name of an annotation. -/
def name (kind : AnnotationKind) : String :=
  kind.schema.name

/-- The annotation of a name. -/
def ofName? (name : String) : Option AnnotationKind :=
  all.find? (·.name == name)

/-- The names of several annotations, separated by commas. -/
def joinNames (kinds : List AnnotationKind) : String :=
  ", ".intercalate (kinds.map name)

end AnnotationKind

end InterfaceDefinition
