import InterfaceDefinition.Decl
import InterfaceDefinition.Reporting

/-!
# Documents

A document imports names and declares types. A name written in it is first read against the imports:
the import whose simple name is the first segment of the written name decides, and two imports that
give different classes to one simple name are ambiguous.
-/

namespace InterfaceDefinition

/-- An import of a class by its full name. -/
structure Import where
  location : Location
  neededClass : String
  deriving Repr

/-- The name under which an import is used: the last segment of the class. -/
def Import.simpleName (i : Import) : String :=
  Dotted.lastSegment i.neededClass

/-- The imports and declarations of one file. -/
structure Document where
  imports : List Import := []
  decls : List Decl := []
  deriving Repr

/-! ### Reading names against imports -/

namespace Import

/-- The error that an import gives another class to a simple name than an earlier one. -/
def ambiguous (earlier later : Import) : Diagnostic :=
  .error later.location "E0501"
    ("Ambiguous type: " ++ earlier.neededClass ++ " vs. " ++ later.neededClass)

/-- The first import that gives another class than the one before it, with that one. -/
def firstConflict? (previous : Import) : List Import → Option (Import × Import)
  | [] => none
  | next :: rest =>
    if previous.neededClass = next.neededClass then firstConflict? next rest
    else some (previous, next)

/-- The imports that provide the first segment of a name. -/
def providing (imports : List Import) (name : String) : List Import :=
  imports.filter (·.simpleName == Dotted.firstSegment name)

/-- The full name that a written name stands for: the class that the imports provide for its first
segment, or the name itself when none does. Nothing, and an error, when they disagree. -/
def resolveName (imports : List Import) (name : String) : Reporting (Option String) :=
  match providing imports name with
  | [] => pure (some name)
  | first :: rest =>
    match firstConflict? first rest with
    | some (earlier, later) => ⟨none, [ambiguous earlier later]⟩
    | none => pure (some first.neededClass)

end Import

end InterfaceDefinition
