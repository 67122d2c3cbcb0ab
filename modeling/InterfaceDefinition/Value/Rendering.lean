import InterfaceDefinition.Value

/-!
# Rendering of values

The text of a value of an expected type, or the error that the value is not of the type. Numbers are
decimal, strings stand in double quotes, arrays in braces, and an enumerator is spelled with the
canonical name of its enum.
-/

namespace InterfaceDefinition

namespace ValueType

/-- The name of the type, with the array mark. -/
def text (t : ValueType) : String :=
  if t.isArray then t.base.text ++ "[]" else t.base.text

end ValueType

namespace Value

/-- The decimal text of an integer that must lie between two bounds. -/
def renderWithin (low high : Int) (type : String) (n : Int64) : Except EvalError String :=
  if low ≤ n.toInt ∧ n.toInt ≤ high then .ok (toString n.toInt) else .error (.outOfRange n type)

/-- The text of a value of a builtin type. -/
def renderBuiltin (type : String) (v : Value) : Except EvalError String :=
  let mismatch : Except EvalError String := .error (.typeMismatch type v.kind)
  match type with
  | "boolean" =>
    match v with
    | .boolean b => .ok (if b then "true" else "false")
    | _ => mismatch
  | "byte" =>
    match v with
    | .integral n => renderWithin Int8.minValue.toInt Int8.maxValue.toInt type n
    | _ => mismatch
  | "int" =>
    match v with
    | .integral n => renderWithin Int32.minValue.toInt Int32.maxValue.toInt type n
    | _ => mismatch
  | "long" =>
    match v with
    | .integral n => .ok (toString n.toInt)
    | _ => mismatch
  | "char" =>
    match v with
    | .character text => .ok text
    | _ => mismatch
  | "float" | "double" =>
    match v with
    | .floating _ text => .ok text
    | .integral n => .ok (toString n.toInt)
    | _ => mismatch
  | "String" =>
    match v with
    | .string content => .ok (Text.doubleQuoted content)
    | _ => mismatch
  | _ => .error (.unsupportedType type)

/-- The text of a value of a named type. Of the declared types only enums have values. -/
def renderAs (type : TypeName) (v : Value) : Except EvalError String :=
  match type.target? with
  | none => renderBuiltin type.text v
  | some target =>
    if target.kind = .enum then
      match v with
      | .enumerator name => .ok (type.text ++ "." ++ Dotted.lastSegment name)
      | _ => .error (.typeMismatch type.text v.kind)
    else .error (.unsupportedType type.text)

/-- The text of a value of a type; the items of an array are rendered as the element type. -/
def render (type : ValueType) (v : Value) : Except EvalError String :=
  if type.isArray then
    match v with
    | .array items => do
      let texts ← items.mapM (renderAs type.base)
      return "\x7b" ++ ", ".intercalate texts ++ "\x7d"
    | _ => .error (.typeMismatch type.text v.kind)
  else renderAs type.base v

end Value

end InterfaceDefinition
