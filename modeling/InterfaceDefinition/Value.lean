import InterfaceDefinition.Expr
import InterfaceDefinition.Number.Floating
import InterfaceDefinition.Text.Quoted
import InterfaceDefinition.TypeSpec

/-!
# Values

What constant expressions evaluate to, why they may not, and the meaning of literals and operators.
Integers are words of 64 bits: an arithmetic result that is no such word is an overflow, shifts to
the left drop the bits that leave the word.
-/

namespace InterfaceDefinition

/-! ### Values -/

/-- An evaluated constant. A floating point number keeps its text, a character its quotes, an
enumerator the name it was written by; a string is without quotes. -/
inductive Value where
  | boolean (b : Bool)
  | integral (n : Int64)
  | floating (x : Number.Binary64) (text : String)
  | character (text : String)
  | string (content : String)
  | array (items : List Value)
  | enumerator (name : String)

/-- The kinds of values. -/
inductive ValueKind where
  | boolean
  | integral
  | floating
  | character
  | string
  | array
  | enumerator
  deriving DecidableEq, Repr

/-- A kind of values as messages call it. -/
def ValueKind.phrase : ValueKind → String
  | boolean => "a boolean"
  | integral => "an integral"
  | floating => "a floating point value"
  | character => "a character"
  | string => "a string"
  | array => "an array"
  | enumerator => "an enumerator"

/-- The kind of a value. -/
def Value.kind : Value → ValueKind
  | boolean _ => .boolean
  | integral _ => .integral
  | floating _ _ => .floating
  | character _ => .character
  | string _ => .string
  | array _ => .array
  | enumerator _ => .enumerator

/-! ### Errors -/

/-- Why an expression has no value, or a value no rendering. -/
inductive EvalError where
  | invalidLiteral (text : String)
  | unknownReference (name : String)
  | circularReference (name : String)
  | badOperand (symbol : String) (operand : ValueKind)
  | divisionByZero
  | overflow
  | outOfRange (value : Int64) (type : String)
  | typeMismatch (expected : String) (found : ValueKind)
  | notAnEnumerator (name type : String)
  | unsupportedType (type : String)
  deriving DecidableEq, Repr

/-- The text of an evaluation error. -/
def EvalError.message : EvalError → String
  | invalidLiteral text => "invalid literal '" ++ text ++ "'"
  | unknownReference name => "unknown reference '" ++ name ++ "'"
  | circularReference name => "circular reference to '" ++ name ++ "'"
  | badOperand symbol operand =>
    "operator '" ++ symbol ++ "' cannot be applied to " ++ operand.phrase
  | divisionByZero => "division by zero"
  | overflow => "integer overflow"
  | outOfRange value type => "value " ++ toString value.toInt ++ " does not fit in '" ++ type ++ "'"
  | typeMismatch expected found =>
    "expected a value of type '" ++ expected ++ "', found " ++ found.phrase
  | notAnEnumerator name type => "'" ++ name ++ "' is not an enumerator of '" ++ type ++ "'"
  | unsupportedType type => "type '" ++ type ++ "' cannot hold a constant value"

/-! ### Literals -/

/-- The value of a literal of a kind, if its text has the form of that kind. Any text is taken for a
character. -/
def LiteralKind.value? (kind : LiteralKind) (text : String) : Option Value :=
  match kind with
  | .boolean =>
    if text = "true" then some (.boolean true)
    else if text = "false" then some (.boolean false)
    else none
  | .integral => (Number.integral? text).map .integral
  | .floating => (Number.floating? text).map fun x => .floating x text
  | .character => some (.character text)
  | .string => (Text.between? '"' text).map .string

/-- The value of a literal, or the error that its text has not the form of its kind. -/
def LiteralKind.value (kind : LiteralKind) (text : String) : Except EvalError Value :=
  match kind.value? text with
  | some v => .ok v
  | none => .error (.invalidLiteral text)

theorem LiteralKind.value_ne_circular (kind : LiteralKind) (text name : String) :
    kind.value text ≠ .error (.circularReference name) := by
  rw [LiteralKind.value]
  split <;> simp

/-! ### Operators -/

namespace Value

/-- An integer result; one that is no word of 64 bits is an overflow. -/
def ofInt (n : Int) : Except EvalError Value :=
  match Number.word? n with
  | some word => .ok (.integral word)
  | none => .error .overflow

/-- A quotient or remainder, by the operation that drops fractions toward zero. A division by zero
comes first; then the quotient, if it is no word, makes the remainder overflow too. -/
def divided (op : Int → Int → Int) (l r : Int64) : Except EvalError Value :=
  if r = 0 then .error .divisionByZero
  else if (Number.word? (l.toInt.tdiv r.toInt)).isNone then .error .overflow
  else ofInt (op l.toInt r.toInt)

/-- A shift, by an amount that must be less than the width of the word. -/
def shifted (op : Int64 → Int64 → Int64) (l r : Int64) : Except EvalError Value :=
  if 0 ≤ r.toInt ∧ r.toInt < 64 then .ok (.integral (op l r)) else .error .overflow

/-- A binary operator on integers; for the operators that join truth values, zero is false and
everything else true. -/
def integerOp (op : BinaryOp) (l r : Int64) : Except EvalError Value :=
  match op with
  | .add => ofInt (l.toInt + r.toInt)
  | .sub => ofInt (l.toInt - r.toInt)
  | .mul => ofInt (l.toInt * r.toInt)
  | .div => divided Int.tdiv l r
  | .rem => divided Int.tmod l r
  | .bitAnd => .ok (.integral (l &&& r))
  | .bitOr => .ok (.integral (l ||| r))
  | .bitXor => .ok (.integral (l ^^^ r))
  | .shl => shifted (· <<< ·) l r
  | .shr => shifted (· >>> ·) l r
  | .logicalAnd => .ok (.boolean (l != 0 && r != 0))
  | .logicalOr => .ok (.boolean (l != 0 || r != 0))
  | .eq => .ok (.boolean (l == r))
  | .ne => .ok (.boolean (l != r))
  | .lt => .ok (.boolean (l < r))
  | .gt => .ok (.boolean (r < l))
  | .le => .ok (.boolean (l ≤ r))
  | .ge => .ok (.boolean (r ≤ l))

/-- A binary operator on truth values. -/
def booleanOp (op : BinaryOp) (l r : Bool) : Except EvalError Value :=
  match op with
  | .logicalAnd | .bitAnd => .ok (.boolean (l && r))
  | .logicalOr | .bitOr => .ok (.boolean (l || r))
  | .bitXor | .ne => .ok (.boolean (l != r))
  | .eq => .ok (.boolean (l == r))
  | _ => .error (.badOperand op.symbol .boolean)

/-- A binary operator on strings. -/
def stringOp (op : BinaryOp) (l r : String) : Except EvalError Value :=
  match op with
  | .add => .ok (.string (l ++ r))
  | .eq => .ok (.boolean (l == r))
  | .ne => .ok (.boolean (l != r))
  | _ => .error (.badOperand op.symbol .string)

/-- A binary operator on two values. They must be both integers, both truth values or both strings;
otherwise the left one is at fault. -/
def binary (op : BinaryOp) (lhs rhs : Value) : Except EvalError Value :=
  match lhs, rhs with
  | .integral l, .integral r => integerOp op l r
  | .boolean l, .boolean r => booleanOp op l r
  | .string l, .string r => stringOp op l r
  | _, _ => .error (.badOperand op.symbol lhs.kind)

/-- A unary operator on a value. -/
def unary (op : UnaryOp) (operand : Value) : Except EvalError Value :=
  match op, operand with
  | .plus, .integral n => .ok (.integral n)
  | .minus, .integral n => ofInt (-n.toInt)
  | .plus, .floating x text => .ok (.floating x text)
  | .minus, .floating x text => .ok (.floating x.neg ("-" ++ text))
  | .bitNot, .integral n => .ok (.integral (~~~n))
  | .logicalNot, .boolean b => .ok (.boolean (!b))
  | .logicalNot, .integral n => .ok (.boolean (n == 0))
  | _, _ => .error (.badOperand op.symbol operand.kind)

theorem ofInt_ne_circular (n : Int) (name : String) :
    ofInt n ≠ .error (.circularReference name) := by
  rw [ofInt]
  split <;> simp

theorem unary_ne_circular (op : UnaryOp) (v : Value) (name : String) :
    v.unary op ≠ .error (.circularReference name) := by
  unfold unary
  split <;> first | exact ofInt_ne_circular _ _ | simp

/-- Operators never make a reference circular. -/
theorem binary_ne_circular (op : BinaryOp) (l r : Value) (name : String) :
    l.binary op r ≠ .error (.circularReference name) := by
  unfold binary
  split
  · unfold integerOp divided shifted
    repeat' split
    all_goals first | exact ofInt_ne_circular _ _ | simp
  · unfold booleanOp
    split <;> simp
  · unfold stringOp
    split <;> simp
  · simp

end Value

end InterfaceDefinition
