import InterfaceDefinition.TypeSpec
import InterfaceDefinition.Text.Uppercase

/-!
# Members of declarations

What declarations consist of: fields, constants, methods with their arguments, and enumerators.
-/

namespace InterfaceDefinition

/-! ### Fields and constants -/

/-- A field, with its default value if one was written. -/
structure Field where
  location : Location
  type : TypeSpec
  name : String
  default? : Option Expr := none
  deriving Repr

namespace Field

/-- The name with its first letter in upper case, as getters spell it. -/
def capitalizedName (f : Field) : String :=
  Text.capitalize f.name

/-- Whether a value can be made without being given one: there is a default, or the type admits
null. -/
def hasUsefulDefault (f : Field) : Bool :=
  f.default?.isSome || f.type.isNullable

/-- The type and the name. -/
def signature (f : Field) : String :=
  f.type.signature ++ " " ++ f.name

end Field

/-- A named constant. -/
structure Constant where
  location : Location
  type : TypeSpec
  name : String
  value : Expr
  deriving Repr

namespace Constant

/-- The type and the name. -/
def signature (c : Constant) : String :=
  c.type.signature ++ " " ++ c.name

end Constant

/-! ### Methods -/

/-- Which way an argument goes. -/
inductive Direction where
  | input
  | output
  | both
  deriving DecidableEq, Repr

namespace Direction

/-- Every direction. -/
def all : List Direction := [input, output, both]

/-- The word for a direction. -/
def text : Direction → String
  | input => "in"
  | output => "out"
  | both => "inout"

/-- The direction of a word. -/
def ofText? (word : String) : Option Direction :=
  all.find? (·.text == word)

/-- Whether a value goes to the callee. -/
def isIn : Direction → Bool
  | input | both => true
  | output => false

/-- Whether a value comes back from the callee. -/
def isOut : Direction → Bool
  | output | both => true
  | input => false

end Direction

/-- An argument of a method, with its direction if one was written. -/
structure Argument where
  location : Location
  type : TypeSpec
  name : String
  written : Option Direction := none
  deriving Repr

namespace Argument

/-- The direction: the one that was written, else into the callee. -/
def direction (a : Argument) : Direction :=
  a.written.getD .input

/-- The word of the direction, empty when none was written. -/
def directionText (a : Argument) : String :=
  match a.written with
  | some d => d.text
  | none => ""

end Argument

/-- A method. One that every interface has by itself is not user defined. -/
structure Method where
  location : Location
  returnType : TypeSpec
  name : String
  arguments : List Argument := []
  isOneway : Bool := false
  id : Option Int := none
  comments : String := ""
  isUserDefined : Bool := true
  deriving Repr

namespace Method

/-- A method that every interface has by itself, under a fixed number. -/
def implicit (loc : Location) (returnType : TypeSpec) (name : String) (id : Int) : Method :=
  { location := loc, returnType, name, id := some id, isUserDefined := false }

/-- The method as a member of an interface: all methods of a oneway interface are oneway. -/
def within (m : Method) (onewayInterface : Bool) : Method :=
  { m with isOneway := m.isOneway || onewayInterface }

/-- Whether the comments hide the method. -/
def isHidden (m : Method) : Bool :=
  Text.hasHideTag m.comments

/-- The arguments that go to the callee. -/
def inArguments (m : Method) : List Argument :=
  m.arguments.filter (·.direction.isIn)

/-- The arguments that come back. -/
def outArguments (m : Method) : List Argument :=
  m.arguments.filter (·.direction.isOut)

/-- The name and the signatures of the argument types. -/
def signature (m : Method) : String :=
  m.name ++ "(" ++ ", ".intercalate (m.arguments.map (·.type.signature)) ++ ")"

end Method

/-! ### Groups of members -/

/-- The fields, constants and methods of a declaration, each in the order they were written. -/
structure Members where
  fields : List Field := []
  constants : List Constant := []
  methods : List Method := []
  deriving Repr

/-- Whether there are no members at all. -/
def Members.isEmpty (m : Members) : Bool :=
  m.fields.isEmpty && m.constants.isEmpty && m.methods.isEmpty

/-! ### Enumerators -/

/-- A named value of an enum, with its expression if one was written. -/
structure Enumerator where
  location : Location
  name : String
  written : Option Expr := none
  comments : String := ""
  deriving Repr

namespace Enumerator

/-- The value of an enumerator after the one of the given name: what was written; else zero for the
first, and one more than the previous enumerator for any other. -/
def value (e : Enumerator) (previous : Option String) : Expr :=
  match e.written, previous with
  | some expr, _ => expr
  | none, none => .literal e.location .integral "0"
  | none, some name =>
    .binary e.location .add (.reference e.location name) (.literal e.location .integral "1")

/-- Enumerators with their values, given the name of the one before them. -/
def valuesAfter : Option String → List Enumerator → List (Enumerator × Expr)
  | _, [] => []
  | previous, e :: rest => (e, e.value previous) :: valuesAfter (some e.name) rest

end Enumerator

end InterfaceDefinition
