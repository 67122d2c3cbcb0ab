import InterfaceDefinition.Decl.Member
import InterfaceDefinition.Text.Quoted

/-!
# Declarations

The five kinds of declarations with the header they share. `Decl.typeSpecs` is the view of all types
that a declaration mentions, and `Decl.mapTypesM` the traversal that maps each of them in place.
-/

namespace InterfaceDefinition

/-! ### Headers -/

/-- Name, package, comments and annotations of a declaration. -/
structure Header where
  location : Location
  package : String
  name : String
  comments : String := ""
  annotations : AnnotationSet := {}
  deriving Repr

namespace Header

/-- The name below its package. -/
def canonicalName (h : Header) : String :=
  Dotted.qualify h.package h.name

/-- Whether the comments hide the declaration. -/
def isHidden (h : Header) : Bool :=
  Text.hasHideTag h.comments

end Header

/-! ### Declarations -/

/-- What a declaration consists of besides its header. Type parameters may be absent, which is not
the same as an empty list of them. -/
inductive Body where
  /-- A parcelable declared elsewhere, with the header file it is found in. -/
  | parcelable (typeParams : Option (List String)) (cppHeader : String)
  /-- A parcelable with fields. -/
  | structured (typeParams : Option (List String)) (members : Members)
  /-- A union of its fields. -/
  | union (typeParams : Option (List String)) (members : Members)
  /-- An enum, with its backing type once that is known; it should have no members. -/
  | enum (enumerators : List Enumerator) (backing : Option TypeSpec) (members : Members)
  /-- An interface, whose methods are all oneway if it is. -/
  | interface (isOneway : Bool) (members : Members)
  deriving Repr

/-- A declaration. -/
structure Decl where
  header : Header
  body : Body
  deriving Repr

namespace Decl

/-- The kind of a declaration. -/
def kind (d : Decl) : DeclKind :=
  match d.body with
  | .parcelable .. => .parcelable
  | .structured .. => .structured
  | .union .. => .union
  | .enum .. => .enum
  | .interface .. => .interface

/-- The name of a declaration. -/
def name (d : Decl) : String :=
  d.header.name

/-- The canonical name of a declaration. -/
def canonicalName (d : Decl) : String :=
  d.header.canonicalName

/-- Where a declaration was written. -/
def location (d : Decl) : Location :=
  d.header.location

/-- The annotations of a declaration. -/
def annotations (d : Decl) : AnnotationSet :=
  d.header.annotations

/-- The declared type parameters, which only parcelables and unions can have. -/
def typeParams? (d : Decl) : Option (List String) :=
  match d.body with
  | .parcelable typeParams _ => typeParams
  | .structured typeParams _ => typeParams
  | .union typeParams _ => typeParams
  | .enum .. | .interface .. => none

/-- The names that stand for type parameters inside a declaration. -/
def typeParams (d : Decl) : List String :=
  d.typeParams?.getD []

/-- The members, where the kind has any; methods of a oneway interface are oneway. -/
def members? (d : Decl) : Option Members :=
  match d.body with
  | .parcelable .. => none
  | .structured _ members => some members
  | .union _ members => some members
  | .enum _ _ members => some members
  | .interface isOneway members =>
    some { members with methods := members.methods.map (·.within isOneway) }

/-- The members; a kind without members has none. -/
def members (d : Decl) : Members :=
  d.members?.getD {}

/-- The fields of a declaration. -/
def fields (d : Decl) : List Field :=
  d.members.fields

/-- The constants of a declaration. -/
def constants (d : Decl) : List Constant :=
  d.members.constants

/-- The methods of a declaration. -/
def methods (d : Decl) : List Method :=
  d.members.methods

/-- The enumerators of an enum, each with its value. -/
def enumerators? (d : Decl) : Option (List (Enumerator × Expr)) :=
  match d.body with
  | .enum enumerators _ _ => some (Enumerator.valuesAfter none enumerators)
  | _ => none

/-- The first enumerator of a name, with its value. -/
def enumerator? (d : Decl) (name : String) : Option (Enumerator × Expr) :=
  d.enumerators?.bind fun all => all.find? (·.1.name == name)

/-- The backing type of an enum, once it is known. -/
def backing? (d : Decl) : Option TypeSpec :=
  match d.body with
  | .enum _ backing _ => backing
  | _ => none

/-- The header file of a parcelable that is declared elsewhere. -/
def cppHeader? (d : Decl) : Option String :=
  match d.body with
  | .parcelable _ cppHeader => some cppHeader
  | _ => none

/-- Whether an interface is oneway. -/
def isOneway? (d : Decl) : Option Bool :=
  match d.body with
  | .interface isOneway _ => some isOneway
  | _ => none

end Decl

/-! ### The types that a declaration mentions -/

/-- Maps the types of members, in the order: fields, constants, then for each method its return
type and its arguments. -/
def Members.mapTypesM {m : Type → Type} [Monad m] (f : TypeSpec → m TypeSpec) (ms : Members) :
    m Members := do
  let fields ← ms.fields.mapM fun field => return { field with type := ← f field.type }
  let constants ← ms.constants.mapM fun const => return { const with type := ← f const.type }
  let methods ← ms.methods.mapM fun method => do
    let returnType ← f method.returnType
    let arguments ← method.arguments.mapM fun arg => return { arg with type := ← f arg.type }
    return { method with returnType, arguments }
  return { fields, constants, methods }

/-- The types of members, in the order in which they are mapped. -/
def Members.typeSpecs (ms : Members) : List TypeSpec :=
  ms.fields.map (·.type) ++ ms.constants.map (·.type) ++
    ms.methods.flatMap fun method => method.returnType :: method.arguments.map (·.type)

namespace Decl

/-- Maps the types of a declaration's members; the backing type of an enum is not among them. -/
def mapTypesM {m : Type → Type} [Monad m] (f : TypeSpec → m TypeSpec) (d : Decl) : m Decl := do
  match d.body with
  | .parcelable .. => return d
  | .structured typeParams members =>
    return { d with body := .structured typeParams (← members.mapTypesM f) }
  | .union typeParams members =>
    return { d with body := .union typeParams (← members.mapTypesM f) }
  | .enum enumerators backing members =>
    return { d with body := .enum enumerators backing (← members.mapTypesM f) }
  | .interface isOneway members =>
    return { d with body := .interface isOneway (← members.mapTypesM f) }

/-- The types of a declaration's members, in the order in which they are mapped. -/
def typeSpecs (d : Decl) : List TypeSpec :=
  d.members.typeSpecs

/-- The header file name of a parcelable as it was written, without the quotes around it. -/
def headerFile (written : String) : String :=
  (Text.between? '"' written).getD written

end Decl

end InterfaceDefinition
