import InterfaceDefinition.Decl.MemberCheck
import InterfaceDefinition.TypeSpec.Backend

/-!
# Checks of declarations

The rules that a declaration of each kind must keep in every backend, and those of single backends.
Unless said otherwise, every rule is checked even when an earlier one failed.
-/

namespace InterfaceDefinition

/-! ### Headers -/

/-- The annotations that a declaration of a kind supports. -/
def DeclKind.supportedAnnotations : DeclKind → List AnnotationKind
  | parcelable =>
    [.vintfStability, .unsupportedAppUsage, .javaStableParcelable, .hide, .javaPassthrough,
      .javaOnlyImmutable]
  | structured =>
    [.vintfStability, .unsupportedAppUsage, .hide, .javaPassthrough, .javaDerive,
      .javaOnlyImmutable, .fixedSize, .rustDerive]
  | union =>
    [.vintfStability, .hide, .javaPassthrough, .javaDerive, .javaOnlyImmutable, .rustDerive]
  | enum => [.vintfStability, .backing, .hide, .javaPassthrough]
  | interface =>
    [.sensitiveData, .vintfStability, .unsupportedAppUsage, .hide, .javaPassthrough, .descriptor]

namespace Header

/-- Checks the annotations of a declaration of a kind. -/
def checkAnnotations (h : Header) (kind : DeclKind) : Reporting Bool :=
  h.annotations.check h.location kind.supportedAnnotations

/-- Checks that no type parameter is declared twice. -/
def checkTypeParams (h : Header) (typeParams : Option (List String)) : Reporting Bool :=
  let params := typeParams.getD []
  .verdict <|
    if (firstOccurrences params).length = params.length then none
    else some (DeclFault.duplicateTypeParam.diagnostic h.location)

/-! ### Fields -/

/-- The error that a field has the name of an earlier one. -/
def duplicateField (h : Header) (f first : Field) : Diagnostic :=
  let fault := DeclFault.duplicateField h.name f.name
  .duplicate f.location first.location fault.code fault.message

/-- Checks that fields differ in name. -/
def checkFieldNames (h : Header) (fields : List Field) : Reporting Bool :=
  checkEach (fun (earlier, f) =>
    .verdict ((earlier.find? fun e => e.name == f.name).map (h.duplicateField f)))
    (withEarlier fields)

/-- Checks that fields differ in name also when the first letter is in upper case. -/
def checkGetterNames (h : Header) (fields : List Field) : Reporting Bool :=
  checkEach (fun (earlier, f) =>
    .verdict <|
      if earlier.any fun e => e.capitalizedName == f.capitalizedName then
        some ((DeclFault.duplicateGetter h.name f.name).diagnostic f.location)
      else none)
    (withEarlier fields)

/-- Checks that all fields of an immutable declaration have types for that. -/
def checkImmutable (h : Header) (r : Registry) (fields : List Field) : Reporting Bool :=
  if h.annotations.has .javaOnlyImmutable then
    checkEach (fun f =>
      .verdict <|
        if r.canBeImmutable f.type then none
        else some ((DeclFault.mutableField h.name f.name).diagnostic f.location))
      fields
  else pure true

/-- Checks that all fields of a declaration of fixed size have types for that. -/
def checkFixedSize (h : Header) (r : Registry) (fields : List Field) : Reporting Bool :=
  if h.annotations.has .fixedSize then
    checkEach (fun f =>
      .verdict <|
        if r.hasFixedSize f.type then none
        else some ((DeclFault.unsizedField h.name f.name).diagnostic f.location))
      fields
  else pure true

/-- Checks the fields and constants of a declaration: each field, the names of the fields, that they
are immutable if the declaration is, and the constants. -/
def checkMembers (h : Header) (r : Registry) (ms : Members) : Fallible Bool := do
  let fields ← checkEach (Field.check r h.canonicalName) ms.fields
  let names ← h.checkFieldNames ms.fields
  let immutable ← h.checkImmutable r ms.fields
  let constants ← Constant.checkAll r h.canonicalName ms.constants
  return fields && names && immutable && constants

/-- Checks that there are no methods. -/
def checkNoMethods (h : Header) (fault : String → DeclFault) (ms : Members) : Reporting Bool :=
  .verdict <|
    if ms.methods.isEmpty then none else some ((fault h.name).diagnostic h.location)

/-! ### The five kinds -/

/-- Checks a parcelable that is declared elsewhere. -/
def checkParcelable (h : Header) (typeParams : Option (List String)) : Reporting Bool := do
  let annotations ← h.checkAnnotations .parcelable
  let params ← h.checkTypeParams typeParams
  return annotations && params

/-- Checks a parcelable with fields. An immutable one has getters, so the names must differ for
those too. -/
def checkStructured (h : Header) (r : Registry) (typeParams : Option (List String))
    (ms : Members) : Fallible Bool := do
  let annotations ← h.checkAnnotations .structured
  let params ← h.checkTypeParams typeParams
  let noMethods ← h.checkNoMethods .parcelableMethods ms
  let members ← h.checkMembers r ms
  let sized ← h.checkFixedSize r ms.fields
  let getters ←
    if h.annotations.has .javaOnlyImmutable then h.checkGetterNames ms.fields else pure true
  return annotations && params && noMethods && members && sized && getters

/-- How to give the first field of a union a useful default. -/
def remedy (f : Field) : DefaultRemedy :=
  if f.type.isArray then .array else if f.type.base.isEnum then .enum else .other

/-- What is wrong with a union because of its first field: there is none, or it has no useful
default. -/
def firstFieldFault? (h : Header) (fields : List Field) : Option Diagnostic :=
  match fields with
  | [] => some ((DeclFault.emptyUnion h.name).diagnostic h.location)
  | first :: _ =>
    if first.hasUsefulDefault then none
    else some ((DeclFault.uselessDefault (remedy first)).diagnostic first.location)

/-- Checks that no field of a union is a parcelable holder. -/
def checkNoHolders (fields : List Field) : Reporting Bool :=
  checkEach (fun f =>
    .verdict <|
      if f.type.name = "ParcelableHolder" then
        some ((DeclFault.unionHolder f.name).diagnostic f.location)
      else none)
    fields

/-- Checks a union; it always has getters. -/
def checkUnion (h : Header) (r : Registry) (typeParams : Option (List String)) (ms : Members) :
    Fallible Bool := do
  let annotations ← h.checkAnnotations .union
  let params ← h.checkTypeParams typeParams
  let noMethods ← h.checkNoMethods .unionMethods ms
  let members ← h.checkMembers r ms
  let getters ← h.checkGetterNames ms.fields
  let noHolders ← checkNoHolders ms.fields
  let first ← Reporting.verdict (h.firstFieldFault? ms.fields)
  return annotations && params && noMethods && members && getters && noHolders && first

/-- The advice that the first enumerator should be zero. -/
def zeroAdvice (first : Enumerator) (text : String) : Diagnostic :=
  .warning .enumZero first.location
    ("The first enumerator '" ++ first.name ++ "' should be 0, but it is " ++ text ++ ".")

/-- Checks the enumerators of an enum against its backing type. That there are any is taken for
granted; it may be advised that the first be zero. -/
def checkEnumerators (h : Header) (r : Registry) (backing : TypeSpec)
    (enumerators : List (Enumerator × Expr)) : Fallible Bool := do
  let scope := h.canonicalName
  let valid ← checkEach (m := Fallible)
    (fun (e, value) => Reporting.verdict (e.fault? r scope backing value)) enumerators
  if !valid then
    return false
  else
    match enumerators with
    | [] => throw (.noEnumerators h.location h.name)
    | (first, value) :: _ =>
      let text := r.valueTextOrEmpty value backing.valueType scope
      if text ≠ "0" then
        Reporting.report (zeroAdvice first text)
      return true

/-- Checks an enum: its annotations, that it has no members, that its backing type is known, and its
enumerators; each step only if the one before it passed. -/
def checkEnum (h : Header) (r : Registry) (enumerators : List (Enumerator × Expr))
    (backing : Option TypeSpec) (ms : Members) : Fallible Bool := do
  if !(← h.checkAnnotations .enum) then
    return false
  else if !ms.isEmpty then
    Reporting.reject (DeclFault.enumMembers.diagnostic h.location)
  else
    match backing with
    | none => Reporting.reject (DeclFault.noBacking.diagnostic h.location)
    | some backing => h.checkEnumerators r backing enumerators

/-- The advice on how interfaces should be called. -/
def nameAdvice (h : Header) : Diagnostic :=
  .warning .interfaceName h.location "Interface names should start with I."

/-- What is wrong with an interface that has fields. -/
def fieldsFault? (h : Header) (fields : List Field) : Option Diagnostic :=
  fields.head?.map fun f => (DeclFault.interfaceFields h.name).diagnostic f.location

/-- Checks an interface; its name may draw advice. -/
def checkInterface (h : Header) (r : Registry) (ms : Members) : Fallible Bool := do
  let annotations ← h.checkAnnotations .interface
  let noFields ← Reporting.verdict (h.fieldsFault? ms.fields)
  let methods ← Method.checkAll r ms.methods
  let constants ← Constant.checkAll r h.canonicalName ms.constants
  if !Vocabulary.looksLikeInterface h.name then
    Reporting.report h.nameAdvice
  return annotations && noFields && methods && constants

end Header

/-! ### Declarations -/

namespace Decl

/-- Checks a declaration by the rules of its kind. -/
def check (r : Registry) (d : Decl) : Fallible Bool :=
  match d.body with
  | .parcelable typeParams _ => d.header.checkParcelable typeParams
  | .structured typeParams _ => d.header.checkStructured r typeParams d.members
  | .union typeParams _ => d.header.checkUnion r typeParams d.members
  | .enum enumerators backing _ =>
    d.header.checkEnum r (Enumerator.valuesAfter none enumerators) backing d.members
  | .interface .. => d.header.checkInterface r d.members

/-- The types of a declaration that a backend must support: those of fields, or of the results and
arguments of methods. -/
def backendTypes (d : Decl) : List TypeSpec :=
  match d.kind with
  | .structured | .union => d.fields.map (·.type)
  | .interface => d.methods.flatMap fun m => m.returnType :: m.arguments.map (·.type)
  | .parcelable | .enum => []

/-- Checks that a parcelable declared elsewhere has a header if the backend needs one. -/
def checkHeaderFor (b : Backend) (d : Decl) : Reporting Bool :=
  .verdict <|
    if b.needsHeader && d.cppHeader? == some "" then
      some (DeclFault.missingHeader.diagnostic d.location)
    else none

/-- Checks a declaration for one backend. -/
def checkFor (r : Registry) (b : Backend) (d : Decl) : Reporting Bool := do
  let header ← d.checkHeaderFor b
  let types ← checkEach (TypeSpec.checkFor r b) d.backendTypes
  return header && types

end Decl

/-! ### Documents -/

namespace Document

/-- Checks every declaration of a document. -/
def check (r : Registry) (doc : Document) : Fallible Bool :=
  checkEach (Decl.check r) doc.decls

/-- Checks every declaration of a document for one backend. -/
def checkFor (r : Registry) (b : Backend) (doc : Document) : Reporting Bool :=
  checkEach (Decl.checkFor r b) doc.decls

end Document

end InterfaceDefinition
