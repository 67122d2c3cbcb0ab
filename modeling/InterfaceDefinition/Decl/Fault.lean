import InterfaceDefinition.Diagnostic
import InterfaceDefinition.Value

/-!
# Faults of declarations

What can be wrong with a declaration and its members, with the code and the text of each fault.
-/

namespace InterfaceDefinition

/-! ### Values -/

/-- What can be wrong with the value of a field or constant. -/
inductive ValueFault where
  | malformed (text name : String)
  | empty (name : String)
  | failed (name : String) (cause : EvalError)

/-- The code of all faults of values. -/
def ValueFault.code : String := "E0207"

/-- The text of a fault of a value. -/
def ValueFault.message : ValueFault → String
  | malformed text name => "Invalid constant value '" ++ text ++ "' for '" ++ name ++ "'."
  | empty name => "Invalid value for '" ++ name ++ "'."
  | failed name cause => "Invalid value for '" ++ name ++ "': " ++ cause.message ++ "."

/-! ### Declarations -/

/-- Why the first field of a union has no useful default, and what can be done about it. -/
inductive DefaultRemedy where
  | array
  | enum
  | other

/-- The advice for a union without a useful default. -/
def DefaultRemedy.text : DefaultRemedy → String
  | array =>
    "Arrays can be initialized with values(e.g. ... = \x7b values... \x7d;) or marked as @nullable."
  | enum => "Enum types can be initialized with a reference. (e.g. ... = MyEnum.FOO;)"
  | other => "Add a default value or mark it as @nullable."

/-- What can be wrong with a declaration; `owner` is the name of the declaration and `name` that of
the member at fault. -/
inductive DeclFault where
  | voidField (name : String)
  | duplicateField (owner name : String)
  | mutableField (owner name : String)
  | unsupportedConstant (signature : String)
  | duplicateConstant (name : String)
  | duplicateGetter (owner name : String)
  | duplicateTypeParam
  | parcelableMethods (owner : String)
  | unionMethods (owner : String)
  | unsizedField (owner name : String)
  | unionHolder (name : String)
  | emptyUnion (owner : String)
  | uselessDefault (remedy : DefaultRemedy)
  | missingHeader
  | enumMembers
  | noBacking
  | malformedEnumerator (name : String)
  | enumeratorType
  | interfaceFields (owner : String)

namespace DeclFault

/-- The code of a fault. -/
def code : DeclFault → String
  | duplicateField .. => "E0201"
  | duplicateConstant _ => "E0202"
  | duplicateGetter .. => "E0203"
  | mutableField .. => "E0204"
  | unsizedField .. => "E0205"
  | voidField _ | parcelableMethods _ | unionMethods _ | interfaceFields _ => "E0206"
  | unsupportedConstant _ | malformedEnumerator _ => "E0207"
  | unionHolder _ | emptyUnion _ | uselessDefault _ => "E0208"
  | enumMembers | noBacking | enumeratorType => "E0209"
  | duplicateTypeParam => "E0102"
  | missingHeader => "E0402"

/-- The text of a fault. -/
def message : DeclFault → String
  | voidField name =>
    "Declaration " ++ name ++ " is void, but declarations cannot be of void type."
  | duplicateField owner name => "'" ++ owner ++ "' has duplicate field name '" ++ name ++ "'"
  | mutableField owner name =>
    "The @JavaOnlyImmutable '" ++ owner ++ "' has a non-immutable field named '" ++ name ++ "'."
  | unsupportedConstant signature => "Constant of type " ++ signature ++ " is not supported."
  | duplicateConstant name => "Found duplicate constant name '" ++ name ++ "'"
  | duplicateGetter owner name =>
    "'" ++ owner ++ "' has duplicate field name '" ++ name ++
      "' after capitalizing the first letter"
  | duplicateTypeParam => "Every type parameter should be unique."
  | parcelableMethods owner => "Parcelable '" ++ owner ++ "' cannot have methods."
  | unionMethods owner => "Union '" ++ owner ++ "' cannot have methods."
  | unsizedField owner name =>
    "The @FixedSize parcelable '" ++ owner ++ "' has a non-fixed size field named " ++ name ++ "."
  | unionHolder name => "A union can't have a member of ParcelableHolder '" ++ name ++ "'"
  | emptyUnion owner => "The union '" ++ owner ++ "' has no fields."
  | uselessDefault remedy =>
    "The union's first member should have a useful default value. " ++ remedy.text
  | missingHeader => "Unstructured parcelable must have C++ header defined."
  | enumMembers => "Enum doesn't support fields/constants/methods."
  | noBacking => "Enum declaration missing backing type."
  | malformedEnumerator name => "Invalid value for enumerator '" ++ name ++ "'."
  | enumeratorType => "Enumerator type differs from enum backing type."
  | interfaceFields owner => "Interface '" ++ owner ++ "' cannot have fields."

/-- A fault reported at a place. -/
def diagnostic (fault : DeclFault) (loc : Location) : Diagnostic :=
  .error loc fault.code fault.message

end DeclFault

/-! ### Methods -/

/-- What can be wrong with a method or an argument; `name` is that of the method or argument. -/
inductive MethodFault where
  | duplicate (name : String)
  | reserved (signature : String)
  | holderReturned
  | onewayReturns (name : String)
  | duplicateArgument (name argument : String)
  | holderArgument
  | onewayOut (name : String)
  | missingDirection (signature : String)
  | notOut (name direction aspect : String)
  | reservedWord (name : String)
  | reservedBeginning (name beginning : String)

namespace MethodFault

/-- The code of a fault. -/
def code : MethodFault → String
  | duplicate _ => "E0301"
  | duplicateArgument .. => "E0302"
  | onewayReturns _ | onewayOut _ => "E0303"
  | missingDirection _ | notOut .. => "E0304"
  | reservedWord _ | reservedBeginning .. => "E0305"
  | reserved _ => "E0306"
  | holderReturned | holderArgument => "E0307"

/-- The text of a fault. -/
def message : MethodFault → String
  | duplicate name => "attempt to redefine method " ++ name
  | reserved signature => "method " ++ signature ++ " is reserved for internal use."
  | holderReturned => "ParcelableHolder cannot be a return type"
  | onewayReturns name => "oneway method '" ++ name ++ "' cannot return a value"
  | duplicateArgument name argument =>
    "method '" ++ name ++ "' has duplicate argument name '" ++ argument ++ "'"
  | holderArgument => "ParcelableHolder cannot be an argument type"
  | onewayOut name => "oneway method '" ++ name ++ "' cannot have out parameters"
  | missingDirection signature =>
    "'" ++ signature ++ "' can be an out type, so you must declare it as in, out, or inout."
  | notOut name direction aspect =>
    "'" ++ name ++ "' can't be an " ++ direction ++ " parameter because " ++ aspect ++
      " can only be an in parameter."
  | reservedWord name => "Argument name '" ++ name ++ "' is a Java or aidl keyword"
  | reservedBeginning name beginning =>
    "Argument name '" ++ name ++ "' cannot begin with '" ++ beginning ++ "'"

/-- A fault reported at a place. -/
def diagnostic (fault : MethodFault) (loc : Location) : Diagnostic :=
  .error loc fault.code fault.message

end MethodFault

end InterfaceDefinition
