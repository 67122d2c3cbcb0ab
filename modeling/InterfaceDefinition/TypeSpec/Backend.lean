import InterfaceDefinition.Registry
import InterfaceDefinition.Options
import InterfaceDefinition.TypeSpec.Check

/-!
# Types in backends

The types that a backend does not support. The rules look at a type and its first argument, and the
first rule that applies decides.
-/

namespace InterfaceDefinition

/-- Why a backend does not support a type. -/
inductive BackendFault where
  | binderArray (backend : Backend)
  | holder (backend : Backend)
  | nullableDescriptorArray (backend : Backend)
  | nullableParcelableArray (backend : Backend)
  | fileDescriptor (backend : Backend)
  | interfaceList (element : String)
  | binderList (element : String)
  | collectionArray (name : String)
  | rawList
  | javaOnly (name : String)

/-- The text of a fault. -/
def BackendFault.message : BackendFault → String
  | binderArray backend =>
    "The " ++ backend.text ++ " backend does not support array of IBinder"
  | holder backend =>
    "The " ++ backend.text ++ " backend does not support ParcelableHolder yet."
  | nullableDescriptorArray backend =>
    "The " ++ backend.text ++
      " backend does not support nullable array of ParcelFileDescriptor"
  | nullableParcelableArray backend =>
    "The " ++ backend.text ++ " backend does not support nullable array of parcelable"
  | fileDescriptor backend =>
    "FileDescriptor isn't supported by the " ++ backend.text ++ " backend."
  | interfaceList element =>
    "List<" ++ element ++ "> is not supported. List in NDK doesn't support interface."
  | binderList element =>
    "List<" ++ element ++ "> is not supported. List in NDK doesn't support IBinder."
  | collectionArray name => name ++ "[] is not supported."
  | rawList => "Currently, only the Java backend supports non-generic List."
  | javaOnly name => "Currently, only Java backend supports " ++ name ++ "."

namespace TypeSpec

/-- What the stricter model of stable native code does not support. -/
def nativeRules (b : Backend) (t : TypeSpec) : List (Bool × BackendFault) :=
  let nullableArray := t.isArray && t.isNullable
  [(t.isArray && t.name == "IBinder", .binderArray b),
    (t.name == "ParcelableHolder", .holder b),
    (nullableArray && t.name == "ParcelFileDescriptor", .nullableDescriptorArray b),
    (nullableArray && t.base.isParcelableLike, .nullableParcelableArray b),
    (t.name == "FileDescriptor", .fileDescriptor b)]

/-- What lists may not hold in the backend for the NDK. -/
def ndkListRules (r : Registry) (t : TypeSpec) : List (Bool × BackendFault) :=
  match t.name, t.arguments with
  | "List", element :: _ =>
    [((r.interface? element).isSome, .interfaceList element.name),
      (element.name == "IBinder", .binderList element.name)]
  | _, _ => []

/-- The collections that have no arrays in any backend. -/
def arrayRules (t : TypeSpec) : List (Bool × BackendFault) :=
  [(t.isArray && ["List", "Map", "CharSequence"].contains t.name, .collectionArray t.name)]

/-- What only the backend for Java supports. -/
def javaOnlyRules (t : TypeSpec) : List (Bool × BackendFault) :=
  [(t.name == "List" && !t.isGeneric, .rawList),
    (t.name == "Map" || t.name == "CharSequence", .javaOnly t.name)]

/-- All rules of a backend, in order of precedence. -/
def backendRules (r : Registry) (b : Backend) (t : TypeSpec) : List (Bool × BackendFault) :=
  (if b.isNativeStable then t.nativeRules b else []) ++
    (if b = .ndk then t.ndkListRules r else []) ++
    t.arrayRules ++
    (if b = .java then [] else t.javaOnlyRules)

/-- Why a backend does not support a type. -/
def backendFault? (r : Registry) (b : Backend) (t : TypeSpec) : Option BackendFault :=
  firstFault? (t.backendRules r b)

/-- Checks that a backend supports a type. -/
def checkFor (r : Registry) (b : Backend) (t : TypeSpec) : Reporting Bool :=
  .verdict ((t.backendFault? r b).map fun fault => .error t.location "E0401" fault.message)

end TypeSpec

end InterfaceDefinition
