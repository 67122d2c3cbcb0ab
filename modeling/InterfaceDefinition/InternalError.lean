import InterfaceDefinition.Location

/-!
# Internal errors

Why a check or a pass is abandoned: not a fault of a document but an operation that came out of
order, or a fact that an earlier step should have established and that does not hold.
-/

namespace InterfaceDefinition

/-- The causes for which an operation is abandoned. -/
inductive InternalError where
  /-- A type name was asked for its meaning before it was resolved. -/
  | unresolved (location : Location) (name : String)
  /-- A type name was resolved a second time. -/
  | alreadyResolved (location : Location) (name : String)
  /-- A resolved type name denotes no declaration there is. -/
  | unknownType (location : Location) (name : String)
  /-- The element type of something that is no array was asked for. -/
  | notAnArray (location : Location) (name : String)
  /-- A backing annotation that passed its check names no type. -/
  | backingWithoutType (location : Location)
  /-- An enum that passed its checks has no enumerators. -/
  | noEnumerators (location : Location) (name : String)
  /-- There is no document of this number. -/
  | unknownDocument (number : Nat)
  deriving DecidableEq, Repr

namespace InternalError

/-- The text of an internal error. -/
def message : InternalError → String
  | unresolved loc name => loc.text ++ ": type '" ++ name ++ "' queried before it was resolved"
  | alreadyResolved loc name => loc.text ++ ": type '" ++ name ++ "' is already resolved"
  | unknownType loc name => loc.text ++ ": unrecognized type '" ++ name ++ "'"
  | notAnArray loc name => loc.text ++ ": '" ++ name ++ "' is not an array"
  | backingWithoutType loc => loc.text ++ ": @Backing has no 'type' after validation"
  | noEnumerators loc name => loc.text ++ ": The enum '" ++ name ++ "' has no enumerators."
  | unknownDocument number => "<typenames>: unknown document DocumentId(" ++ toString number ++ ")"

end InternalError

end InterfaceDefinition
