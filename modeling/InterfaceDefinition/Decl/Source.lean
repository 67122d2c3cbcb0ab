import InterfaceDefinition.Annotation.Param
import InterfaceDefinition.Listing

/-!
# Declarations as source text

Declarations and their members as they are written in documents, with the values of constants and
defaults in place of their expressions.
-/

namespace InterfaceDefinition

/-! ### Types and members -/

/-- A type with its annotations before it. -/
def TypeSpec.text (t : TypeSpec) : String :=
  if t.annotations.isEmpty then t.signature else t.annotations.text ++ " " ++ t.signature

namespace Field

/-- The rendered default of a field declared in a scope, empty when it has none. -/
def valueText (f : Field) (r : Registry) (scope : String) : String :=
  match f.default? with
  | some value => r.valueTextOrEmpty value f.type.valueType scope
  | none => ""

/-- A field as it is written, with its default if it has one. -/
def source (f : Field) (r : Registry) (scope : String) : String :=
  let value := if f.default?.isSome then " = " ++ f.valueText r scope else ""
  f.type.text ++ " " ++ f.name ++ value

end Field

namespace Constant

/-- The rendered value of a constant declared in a scope. -/
def valueText (c : Constant) (r : Registry) (scope : String) : String :=
  r.valueTextOrEmpty c.value c.type.valueType scope

/-- A constant as it is written. -/
def source (c : Constant) (r : Registry) (scope : String) : String :=
  "const " ++ c.type.text ++ " " ++ c.name ++ " = " ++ c.valueText r scope

end Constant

/-- An argument as it is written, with its direction if one was. -/
def Argument.text (a : Argument) : String :=
  let direction := if a.written.isSome then a.directionText ++ " " else ""
  direction ++ a.type.text ++ " " ++ a.name

/-- A method as it is written, with its number if it has one. -/
def Method.text (m : Method) : String :=
  let oneway := if m.isOneway then "oneway " else ""
  let number :=
    match m.id with
    | some id => " = " ++ toString id
    | none => ""
  oneway ++ m.returnType.text ++ " " ++ m.name ++
    "(" ++ ", ".intercalate (m.arguments.map (·.text)) ++ ")" ++ number

/-! ### Declarations -/

namespace Decl

/-- Writes what stands before a declaration: the comment that hides it and its annotations. -/
def writeHeader (d : Decl) (l : Listing) : Listing :=
  let l := if d.header.isHidden then l.hideComment else l
  if d.annotations.isEmpty then l else l.line d.annotations.text

/-- Writes the fields of a declaration. -/
def writeFields (r : Registry) (d : Decl) (l : Listing) : Listing :=
  d.fields.foldl (fun l f => l.lineHidden f.type.isHidden (f.source r d.canonicalName ++ ";")) l

/-- Writes the constants of a declaration. -/
def writeConstants (r : Registry) (d : Decl) (l : Listing) : Listing :=
  d.constants.foldl (fun l c => l.lineHidden c.type.isHidden (c.source r d.canonicalName ++ ";")) l

/-- Writes the user defined methods of a declaration. -/
def writeMethods (d : Decl) (l : Listing) : Listing :=
  (d.methods.filter (·.isUserDefined)).foldl
    (fun l m => l.lineHidden m.isHidden (m.text ++ ";")) l

/-- The value of an enumerator: rendered if the backing type is known, else as written. -/
def enumeratorText (r : Registry) (d : Decl) (value : Expr) : String :=
  match d.backing? with
  | some backing => r.valueTextOrEmpty value backing.valueType d.canonicalName
  | none => value.text

/-- Writes the enumerators of an enum. -/
def writeEnumerators (r : Registry) (d : Decl) (l : Listing) : Listing :=
  (d.enumerators?.getD []).foldl
    (fun l (e, value) => l.line (e.name ++ " = " ++ d.enumeratorText r value ++ ",")) l

/-- Writes what stands between the braces of a declaration. -/
def writeBody (r : Registry) (d : Decl) (l : Listing) : Listing :=
  match d.kind with
  | .parcelable => l
  | .structured | .union => d.writeConstants r (d.writeFields r l)
  | .enum => d.writeEnumerators r l
  | .interface => d.writeConstants r (d.writeMethods l)

/-- A declaration as it is written in a document. -/
def source (r : Registry) (d : Decl) : String :=
  let l := d.writeHeader {}
  let opening := d.kind.keyword ++ " " ++ d.name
  match d.kind with
  | .parcelable => (l.line (opening ++ " ;")).text
  | _ => (((l.line (opening ++ " \x7b")).inside (d.writeBody r)).line "\x7d").text

/-- The descriptor of an interface: the one its annotations give, else its canonical name. -/
def descriptor (d : Decl) : String :=
  d.annotations.descriptor?.getD d.canonicalName

end Decl

end InterfaceDefinition
