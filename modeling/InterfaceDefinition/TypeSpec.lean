import InterfaceDefinition.Annotation
import InterfaceDefinition.InternalError
import InterfaceDefinition.Text.Dotted
import InterfaceDefinition.Text.HideTag

/-!
# Type specifiers

A type as it is written at one place: a name with type arguments, the array mark, annotations and
comments. A name starts without a meaning; resolution records the canonical name it stands for and,
if it is not builtin, the declaration.
-/

namespace InterfaceDefinition

/-! ### Declarations as targets -/

/-- The kinds of declarations. A plain parcelable is declared elsewhere; a structured one lists its
fields. -/
inductive DeclKind where
  | parcelable
  | structured
  | union
  | enum
  | interface
  deriving DecidableEq, Repr

namespace DeclKind

/-- The word that introduces a declaration. -/
def keyword : DeclKind → String
  | parcelable => "parcelable"
  | structured => "parcelable"
  | union => "union"
  | enum => "enum"
  | interface => "interface"

/-- Whether values of a declaration are passed as parcels. -/
def isParcelableLike : DeclKind → Bool
  | parcelable | structured | union => true
  | enum | interface => false

end DeclKind

/-- The place of a declaration in a registry: a document and a position in it. -/
structure DeclId where
  document : Nat
  index : Nat
  deriving DecidableEq, Repr

/-- A declaration that a name stands for, with its kind. -/
structure DeclRef where
  id : DeclId
  kind : DeclKind
  deriving DecidableEq, Repr

/-! ### Type names -/

/-- What a name stands for: a canonical name, and the declaration if it is neither a builtin type
nor a type parameter. -/
structure Resolution where
  canonicalName : String
  target : Option DeclRef := none
  deriving DecidableEq, Repr

/-- A type name as written, and what it stands for once it is resolved. -/
structure TypeName where
  written : String
  resolution : Option Resolution := none
  deriving DecidableEq, Repr

namespace TypeName

/-- A builtin type, resolved to itself. -/
def builtin (name : String) : TypeName :=
  ⟨name, some ⟨name, none⟩⟩

/-- The canonical name once resolved, the written name before. -/
def text (t : TypeName) : String :=
  match t.resolution with
  | some r => r.canonicalName
  | none => t.written

/-- The last segment of the name. -/
def simpleName (t : TypeName) : String :=
  Dotted.lastSegment t.text

/-- Whether the name is resolved. -/
def isResolved (t : TypeName) : Bool :=
  t.resolution.isSome

/-- The declaration that the name stands for. -/
def target? (t : TypeName) : Option DeclRef :=
  t.resolution.bind (·.target)

/-- Whether the name stands for a declaration of a kind. -/
def isKind (t : TypeName) (kind : DeclKind) : Bool :=
  t.target?.any (·.kind == kind)

/-- Whether the name stands for an enum. -/
def isEnum (t : TypeName) : Bool :=
  t.isKind .enum

/-- Whether the name stands for an interface. -/
def isInterface (t : TypeName) : Bool :=
  t.isKind .interface

/-- Whether the name stands for a parcelable of either sort or a union. -/
def isParcelableLike (t : TypeName) : Bool :=
  t.target?.any (·.kind.isParcelableLike)

end TypeName

/-- The type of a value: a named type, or an array of it. -/
structure ValueType where
  base : TypeName
  isArray : Bool := false
  deriving DecidableEq, Repr

/-! ### Type specifiers -/

/-- A type as written at one place. A type without arguments is not generic there. -/
structure TypeSpec where
  location : Location
  base : TypeName
  arguments : List TypeSpec := []
  isArray : Bool := false
  annotations : AnnotationSet := {}
  comments : String := ""
  deriving Repr

namespace TypeSpec

/-- An unresolved type by its written name. -/
def named (loc : Location) (name : String) : TypeSpec :=
  { location := loc, base := ⟨name, none⟩ }

/-- A builtin type, resolved from the start. -/
def builtin (loc : Location) (name : String) : TypeSpec :=
  { location := loc, base := .builtin name }

/-- The type that a value of this specifier has. -/
def valueType (t : TypeSpec) : ValueType :=
  ⟨t.base, t.isArray⟩

/-- The canonical name once resolved, the written name before. -/
def name (t : TypeSpec) : String :=
  t.base.text

/-- Whether there are type arguments. -/
def isGeneric (t : TypeSpec) : Bool :=
  !t.arguments.isEmpty

/-- Whether the type is marked nullable. -/
def isNullable (t : TypeSpec) : Bool :=
  t.annotations.has .nullable

/-- Whether the type is marked as UTF-8 text. -/
def isUtf8 (t : TypeSpec) : Bool :=
  t.annotations.has .utf8InCpp

/-- Whether the comments hide the type. -/
def isHidden (t : TypeSpec) : Bool :=
  Text.hasHideTag t.comments

/-- The canonical name, which only a resolved type has. -/
def canonicalName (t : TypeSpec) : Except InternalError String :=
  match t.base.resolution with
  | some r => .ok r.canonicalName
  | none => .error (.unresolved t.location t.base.written)

theorem exists_canonicalName_iff {t : TypeSpec} :
    (∃ name, t.canonicalName = .ok name) ↔ t.base.isResolved = true := by
  rw [canonicalName, TypeName.isResolved]
  cases t.base.resolution with
  | none => simp
  | some resolution => simp

/-- The name of the element type, which only an array has. -/
def elementName (t : TypeSpec) : Except InternalError String :=
  if t.isArray then .ok t.name else .error (.notAnArray t.location t.name)

mutual

/-- The signature: the name, the signatures of the arguments in angle brackets, the array mark. -/
def signature : TypeSpec → String
  | ⟨_, base, arguments, isArray, _, _⟩ =>
    let args :=
      if arguments.isEmpty then "" else "<" ++ ",".intercalate (signatures arguments) ++ ">"
    base.text ++ args ++ if isArray then "[]" else ""

/-- The signatures of several types. -/
def signatures : List TypeSpec → List String
  | [] => []
  | t :: rest => t.signature :: signatures rest

end

theorem signatures_eq_map (ts : List TypeSpec) : signatures ts = ts.map signature := by
  induction ts with
  | nil => rw [signatures]; rfl
  | cons t ts ih => rw [signatures, ih]; rfl

theorem signature_eq (t : TypeSpec) :
    t.signature = t.name ++
      (if t.arguments.isEmpty then ""
        else "<" ++ ",".intercalate (t.arguments.map signature) ++ ">") ++
      if t.isArray then "[]" else "" := by
  cases t
  rw [signature, signatures_eq_map]
  rfl

end TypeSpec

end InterfaceDefinition
