import InterfaceDefinition.Location

/-!
# Diagnostics

What the checks report: errors, each with the code of the rule that is broken, and advisories,
warnings that have a name and can be switched off.
-/

namespace InterfaceDefinition

/-! ### Advisories -/

/-- The warnings that can be switched off one by one. -/
inductive Advisory where
  /-- The first enumerator of an enum is not zero. -/
  | enumZero
  /-- An argument is both read and written. -/
  | inoutParameter
  /-- An interface name does not begin with the conventional letter. -/
  | interfaceName
  deriving DecidableEq, Repr

namespace Advisory

/-- Every advisory. -/
def all : List Advisory := [enumZero, inoutParameter, interfaceName]

/-- The name by which an advisory is switched off. -/
def name : Advisory → String
  | enumZero => "enum-zero"
  | inoutParameter => "inout-parameter"
  | interfaceName => "interface-name"

/-- The code an advisory is reported under. -/
def code : Advisory → String
  | enumZero => "W0001"
  | inoutParameter => "W0002"
  | interfaceName => "W0003"

/-- The advisory of a name. -/
def ofName? (name : String) : Option Advisory :=
  all.find? (·.name == name)

end Advisory

/-! ### Diagnostics -/

/-- Whether a diagnostic makes its check fail. -/
inductive Severity where
  | error
  | warning
  deriving DecidableEq, Repr

namespace Severity

/-- The word that opens a printed diagnostic. -/
def text : Severity → String
  | error => "ERROR"
  | warning => "WARNING"

end Severity

/-- A remark that belongs to a diagnostic, at a place of its own. -/
structure Related where
  location : Location
  message : String
  deriving DecidableEq, Repr

/-- The text of a remark. -/
def Related.text (r : Related) : String :=
  r.location.text ++ ": " ++ r.message

/-- One report of a check. -/
structure Diagnostic where
  location : Location
  severity : Severity
  code : Option String
  advisory : Option Advisory
  message : String
  related : List Related := []
  deriving DecidableEq, Repr

namespace Diagnostic

/-- An error under a code. -/
def error (loc : Location) (code message : String) : Diagnostic :=
  ⟨loc, .error, some code, none, message, []⟩

/-- A warning that belongs to an advisory and carries its code. -/
def warning (advisory : Advisory) (loc : Location) (message : String) : Diagnostic :=
  ⟨loc, .warning, some advisory.code, some advisory, message, []⟩

/-- A diagnostic with one more remark. -/
def withRelated (d : Diagnostic) (r : Related) : Diagnostic :=
  { d with related := d.related ++ [r] }

/-- An error about a second definition, which cites the place of the first. -/
def duplicate (loc previous : Location) (code message : String) : Diagnostic :=
  (error loc code message).withRelated ⟨previous, "previously defined here"⟩

/-- Whether a diagnostic is an error. -/
def isError (d : Diagnostic) : Bool :=
  d.severity == .error

/-- The printed form: severity, place and message, the name of the advisory if there is one, and
each remark on a line of its own. -/
def text (d : Diagnostic) : String :=
  let named :=
    match d.advisory with
    | some advisory => " [-W" ++ advisory.name ++ "]"
    | none => ""
  let remarks := String.join (d.related.map fun r => "\n  " ++ r.text)
  d.severity.text ++ ": " ++ d.location.text ++ ": " ++ d.message ++ named ++ remarks

end Diagnostic

end InterfaceDefinition
