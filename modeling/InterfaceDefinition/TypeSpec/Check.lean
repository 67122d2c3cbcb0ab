import InterfaceDefinition.Annotation.Check

/-!
# Checks of types

The rules that a type must keep in every backend. They are local: each node of a type, the type
itself and its arguments at any depth, keeps them by itself, and a type is valid when all its nodes
are.
-/

namespace InterfaceDefinition

/-! ### Faults -/

/-- What can be wrong with a type. -/
inductive TypeFault where
  /-- A list or map has a primitive or enum argument. -/
  | primitiveArgument
  | listArity (signature : String)
  | listElement (name : String)
  | mapArity (signature : String)
  | mapKey (name : String)
  /-- A declared type has another number of arguments than it has parameters. -/
  | argumentCount (name : String) (declared given : Nat)
  | notGeneric (name : String)
  | utf8
  | void
  | interfaceArray
  | holderArray
  | nullablePrimitive
  | nullableEnum
  | nullableHolder

namespace TypeFault

/-- The code of a fault. -/
def code : TypeFault → String
  | listArity _ | mapArity _ | argumentCount .. | notGeneric _ => "E0102"
  | primitiveArgument | listElement _ | mapKey _ => "E0104"
  | _ => "E0103"

/-- The text of a fault. -/
def message : TypeFault → String
  | primitiveArgument => "A generic type cannot have any primitive type parameters."
  | listArity signature =>
    "List can only have one type parameter, but got: '" ++ signature ++ "'"
  | listElement name =>
    "List<" ++ name ++ "> is not supported. List<T> supports parcelable/union, String, IBinder, " ++
      "and ParcelFileDescriptor."
  | mapArity signature =>
    "Map must have 0 or 2 type parameters, but got '" ++ signature ++ "'"
  | mapKey name => "The type of key in map must be String, but it is '" ++ name ++ "'"
  | argumentCount name declared given =>
    name ++ " must have " ++ toString declared ++ " type parameters, but got " ++ toString given
  | notGeneric name => name ++ " is not a generic type."
  | utf8 => "@utf8InCpp can only be used on String, String[], and List<String>."
  | void => "void type cannot be an array or nullable or utf8 string"
  | interfaceArray => "Binder type cannot be an array"
  | holderArray => "Arrays of ParcelableHolder are not supported."
  | nullablePrimitive => "Primitive type cannot get nullable annotation"
  | nullableEnum => "Enum type cannot get nullable annotation"
  | nullableHolder => "ParcelableHolder cannot be nullable."

end TypeFault

/-! ### Rules -/

/-- The first condition in a list that holds gives its fault. -/
def firstFault? {α : Type} (rules : List (Bool × α)) : Option α :=
  (rules.find? (·.1)).map (·.2)

namespace TypeSpec

/-- The annotations that a type supports. -/
def supportedAnnotations : List AnnotationKind :=
  [.nullable, .utf8InCpp, .unsupportedAppUsage, .hide, .javaPassthrough]

/-- Whether a type is primitive or an enum. -/
def isPrimitiveOrEnum (t : TypeSpec) : Bool :=
  t.base.isEnum || Vocabulary.isPrimitive t.name

/-- Whether a list may have elements of a type: of the builtin types some, of the others all but
interfaces. -/
def isListElement (t : TypeSpec) : Bool :=
  if Vocabulary.isBuiltin t.name then Vocabulary.listElements.contains t.name
  else !t.base.isInterface

/-- What is wrong with the arguments of a list. -/
def listFault? (t : TypeSpec) : Option TypeFault :=
  if t.arguments.any isPrimitiveOrEnum then some .primitiveArgument
  else
    match t.arguments with
    | [element] => if element.isListElement then none else some (.listElement element.name)
    | _ => some (.listArity t.signature)

/-- What is wrong with the arguments of a map. -/
def mapFault? (t : TypeSpec) : Option TypeFault :=
  if t.arguments.any isPrimitiveOrEnum then some .primitiveArgument
  else
    match t.arguments with
    | [key, _] => if key.name = "String" then none else some (.mapKey key.name)
    | _ => some (.mapArity t.signature)

/-- What is wrong with the arguments of any other type: there must be as many as the declaration has
parameters. -/
def declaredFault? (r : Registry) (t : TypeSpec) : Option TypeFault :=
  let decl := t.base.target?.bind fun target => r.decl? target.id
  match decl.bind (·.typeParams?) with
  | none => some (.notGeneric t.name)
  | some declared =>
    if declared.length = t.arguments.length then none
    else some (.argumentCount t.name declared.length t.arguments.length)

/-- What is wrong with the arguments of a type that has any. -/
def genericFault? (r : Registry) (t : TypeSpec) : Option TypeFault :=
  if t.isGeneric then
    if t.name = "List" then t.listFault?
    else if t.name = "Map" then t.mapFault?
    else t.declaredFault? r
  else none

/-- Whether a type is text or a list of texts. -/
def isTextual (t : TypeSpec) : Bool :=
  t.name == "String" ||
    (t.name == "List" && t.arguments.length == 1 && t.arguments.all (·.name == "String"))

/-- What is wrong with the array mark and the annotations of a type, in order of precedence. -/
def formFault? (t : TypeSpec) : Option TypeFault :=
  firstFault?
    [(t.isUtf8 && !t.isTextual, .utf8),
      (t.name == "void" && (t.isArray || t.isNullable || t.isUtf8), .void),
      (t.isArray && t.base.isInterface, .interfaceArray),
      (t.isArray && t.name == "ParcelableHolder", .holderArray),
      (t.isNullable && Vocabulary.isPrimitive t.name && !t.isArray, .nullablePrimitive),
      (t.isNullable && t.base.isEnum && !t.isArray, .nullableEnum),
      (t.isNullable && t.name == "ParcelableHolder", .nullableHolder)]

/-- What is wrong with a type whose annotations and arguments are valid. -/
def fault? (r : Registry) (t : TypeSpec) : Option TypeFault :=
  (t.genericFault? r).or t.formFault?

/-- Checks the annotations of a type. -/
def checkAnnotations (t : TypeSpec) : Reporting Bool :=
  t.annotations.check t.location supportedAnnotations

/-- The verdict on a type whose annotations and arguments are valid. -/
def checkForm (r : Registry) (t : TypeSpec) : Reporting Bool :=
  .verdict ((t.fault? r).map fun fault => .error t.location fault.code fault.message)

mutual

/-- Checks a type: its annotations, its arguments, then its form; each step only if the one before
it passed. The type must be resolved. -/
def check (r : Registry) : TypeSpec → Fallible Bool
  | ⟨loc, base, arguments, isArray, annotations, comments⟩ => do
    let t : TypeSpec := ⟨loc, base, arguments, isArray, annotations, comments⟩
    if !(← t.checkAnnotations) then
      return false
    else
      let _ ← ExceptT.mk (pure t.canonicalName)
      if !(← checkAll r arguments) then
        return false
      else
        t.checkForm r

/-- Checks several types, all of which must pass. -/
def checkAll (r : Registry) : List TypeSpec → Fallible Bool
  | [] => return true
  | t :: rest => do
    let here ← check r t
    let others ← checkAll r rest
    return here && others

end

theorem checkAll_eq_checkEach (r : Registry) (ts : List TypeSpec) :
    checkAll r ts = checkEach (check r) ts := by
  induction ts with
  | nil => rw [checkAll]; rfl
  | cons t ts ih => rw [checkAll, ih]; rfl

end TypeSpec

end InterfaceDefinition
