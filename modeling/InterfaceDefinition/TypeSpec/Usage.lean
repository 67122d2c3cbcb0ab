import InterfaceDefinition.Registry

/-!
# Uses of types

Which types can be passed back through an argument, which have a fixed size, and which can be parts
of immutable values.
-/

namespace InterfaceDefinition

/-- What keeps a type from being passed back, as messages name it. -/
inductive OutAspect where
  | enum
  | typeName (name : String)
  | interface
  | immutable
  | nothing
  deriving DecidableEq, Repr

/-- The words for what keeps a type from being passed back. -/
def OutAspect.text : OutAspect → String
  | enum => "Enum type"
  | typeName name => "'" ++ name ++ "'"
  | interface => "interface"
  | immutable => "@JavaOnlyImmutable"
  | nothing => ""

namespace Registry

/-- Whether arguments of a type can be passed back, and what about the type decides. Builtin types
and enums can as arrays, and some collections by themselves; declared types can unless they are
interfaces or immutable; type parameters cannot. -/
def outUsage (r : Registry) (t : TypeSpec) : Except InternalError (Bool × OutAspect) := do
  let name ← t.canonicalName
  if Vocabulary.isBuiltin name || t.base.isEnum then
    let canBeOut := t.isArray || ["List", "Map", "ParcelFileDescriptor"].contains name
    return (canBeOut, if t.base.isEnum then .enum else .typeName name)
  else
    match t.base.target? with
    | none => return (false, .typeName name)
    | some target =>
      match r.decl? target.id with
      | none => .error (.unknownType t.location name)
      | some d =>
        if d.kind = .interface then return (false, .interface)
        else if d.annotations.has .javaOnlyImmutable then return (false, .immutable)
        else return (true, .nothing)

/-- Whether a type has a fixed size: primitive types, enums, and the parcelables and unions that are
declared so; nothing that is generic, nullable or an array. -/
def hasFixedSize (r : Registry) (t : TypeSpec) : Bool :=
  if t.isGeneric || t.isNullable || t.isArray then false
  else if Vocabulary.isPrimitive t.name then true
  else
    match t.base.target?.bind fun target => r.decl? target.id with
    | none => false
    | some d =>
      match d.kind with
      | .enum => true
      | .structured | .union => d.annotations.has .fixedSize
      | .parcelable | .interface => false

/-- Whether a name that has no arguments can be the type of a part of an immutable value: builtin
types, enums and declarations that are immutable themselves. -/
def isImmutableName (r : Registry) (name : TypeName) : Bool :=
  if Vocabulary.isBuiltin name.text then true
  else
    match name.target?.bind fun target => r.decl? target.id with
    | none => false
    | some d => d.kind == .enum || d.annotations.has .javaOnlyImmutable

mutual

/-- Whether a type can be that of a part of an immutable value: a list or map of such types, or a
name of one; any other generic type cannot. -/
def canBeImmutable (r : Registry) : TypeSpec → Bool
  | ⟨_, base, arguments, _, _, _⟩ =>
    if arguments.isEmpty then r.isImmutableName base
    else (base.text == "List" || base.text == "Map") && allCanBeImmutable r arguments

/-- Whether several types can all be those of parts of an immutable value. -/
def allCanBeImmutable (r : Registry) : List TypeSpec → Bool
  | [] => true
  | t :: rest => canBeImmutable r t && allCanBeImmutable r rest

end

theorem allCanBeImmutable_eq_all (r : Registry) (ts : List TypeSpec) :
    r.allCanBeImmutable ts = ts.all r.canBeImmutable := by
  induction ts with
  | nil => rw [allCanBeImmutable]; rfl
  | cons t ts ih => rw [allCanBeImmutable, ih]; rfl

end Registry

end InterfaceDefinition
