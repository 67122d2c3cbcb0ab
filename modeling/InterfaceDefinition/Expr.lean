import InterfaceDefinition.Location

/-!
# Constant expressions

The expressions that stand for the values of constants, enumerators, defaults and annotation
parameters: literals as they were written, arrays, references by name, and operators. Every
sub-expression has a location of its own.

`Expr.subterms` lists an expression and everything below it, parents first and from left to right;
`Expr.firstReference?` is the first reference of that list.
-/

namespace InterfaceDefinition

/-! ### Operators -/

/-- The operators with one operand. -/
inductive UnaryOp where
  | plus
  | minus
  | bitNot
  | logicalNot
  deriving DecidableEq, Repr

namespace UnaryOp

/-- Every unary operator. -/
def all : List UnaryOp := [plus, minus, bitNot, logicalNot]

/-- The symbol of an operator. -/
def symbol : UnaryOp → String
  | plus => "+"
  | minus => "-"
  | bitNot => "~"
  | logicalNot => "!"

/-- The operator of a symbol. -/
def ofSymbol? (symbol : String) : Option UnaryOp :=
  all.find? (·.symbol == symbol)

end UnaryOp

/-- The operators with two operands. -/
inductive BinaryOp where
  | add
  | sub
  | mul
  | div
  | rem
  | bitAnd
  | bitOr
  | bitXor
  | shl
  | shr
  | logicalAnd
  | logicalOr
  | eq
  | ne
  | lt
  | gt
  | le
  | ge
  deriving DecidableEq, Repr

namespace BinaryOp

/-- Every binary operator. -/
def all : List BinaryOp :=
  [add, sub, mul, div, rem, bitAnd, bitOr, bitXor, shl, shr, logicalAnd, logicalOr, eq, ne, lt, gt,
    le, ge]

/-- The symbol of an operator. -/
def symbol : BinaryOp → String
  | add => "+"
  | sub => "-"
  | mul => "*"
  | div => "/"
  | rem => "%"
  | bitAnd => "&"
  | bitOr => "|"
  | bitXor => "^"
  | shl => "<<"
  | shr => ">>"
  | logicalAnd => "&&"
  | logicalOr => "||"
  | eq => "=="
  | ne => "!="
  | lt => "<"
  | gt => ">"
  | le => "<="
  | ge => ">="

/-- The operator of a symbol. -/
def ofSymbol? (symbol : String) : Option BinaryOp :=
  all.find? (·.symbol == symbol)

/-- Whether an operator compares its operands. -/
def isComparison : BinaryOp → Bool
  | eq | ne | lt | gt | le | ge => true
  | _ => false

/-- Whether an operator joins truth values. -/
def isLogical : BinaryOp → Bool
  | logicalAnd | logicalOr => true
  | _ => false

end BinaryOp

/-! ### Expressions -/

/-- The kinds of literals. -/
inductive LiteralKind where
  | boolean
  | character
  | floating
  | integral
  | string
  deriving DecidableEq, Repr

/-- A constant expression that is not evaluated yet. A literal keeps its text as written, quotes
included. -/
inductive Expr where
  | literal (location : Location) (kind : LiteralKind) (text : String)
  | array (location : Location) (items : List Expr)
  | reference (location : Location) (name : String)
  | unary (location : Location) (op : UnaryOp) (operand : Expr)
  | binary (location : Location) (op : BinaryOp) (lhs rhs : Expr)
  deriving Repr

namespace Expr

/-- Where an expression was written. -/
def location : Expr → Location
  | literal loc _ _ => loc
  | array loc _ => loc
  | reference loc _ => loc
  | unary loc _ _ => loc
  | binary loc _ _ _ => loc

/-- The literal of a truth value. -/
def ofBool (loc : Location) (b : Bool) : Expr :=
  literal loc .boolean (if b then "true" else "false")

/-- Whether an expression is a reference. -/
def isReference : Expr → Bool
  | reference _ _ => true
  | _ => false

/-- The name of a reference. -/
def referenceName? : Expr → Option String
  | reference _ name => some name
  | _ => none

mutual

/-- The printed form: literals and names as written, arrays in braces, every binary expression in
parentheses. -/
def text : Expr → String
  | literal _ _ written => written
  | array _ items => "\x7b" ++ ", ".intercalate (texts items) ++ "\x7d"
  | reference _ name => name
  | unary _ op operand => op.symbol ++ operand.text
  | binary _ op lhs rhs => "(" ++ lhs.text ++ " " ++ op.symbol ++ " " ++ rhs.text ++ ")"

/-- The printed forms of several expressions. -/
def texts : List Expr → List String
  | [] => []
  | e :: rest => e.text :: texts rest

end

theorem texts_eq_map (es : List Expr) : texts es = es.map text := by
  induction es with
  | nil => rw [texts]; rfl
  | cons e es ih => rw [texts, ih]; rfl

mutual

/-- An expression and every expression below it, parents first, from left to right. -/
def subterms : Expr → List Expr
  | literal loc kind written => [literal loc kind written]
  | array loc items => array loc items :: subtermsOf items
  | reference loc name => [reference loc name]
  | unary loc op operand => unary loc op operand :: operand.subterms
  | binary loc op lhs rhs => binary loc op lhs rhs :: (lhs.subterms ++ rhs.subterms)

/-- The subterms of several expressions, one after the other. -/
def subtermsOf : List Expr → List Expr
  | [] => []
  | e :: rest => e.subterms ++ subtermsOf rest

end

theorem subtermsOf_eq_flatMap (es : List Expr) : subtermsOf es = es.flatMap subterms := by
  induction es with
  | nil => rw [subtermsOf]; rfl
  | cons e es ih => rw [subtermsOf, ih]; rfl

/-- The first reference in an expression. -/
def firstReference? (e : Expr) : Option Expr :=
  e.subterms.find? isReference

/-- The names of the references in an expression, in order. -/
def referenceNames (e : Expr) : List String :=
  e.subterms.filterMap referenceName?

@[simp] theorem referenceNames_literal (loc : Location) (kind : LiteralKind) (written : String) :
    (literal loc kind written).referenceNames = [] := by
  simp [referenceNames, subterms, referenceName?]

@[simp] theorem referenceNames_array (loc : Location) (items : List Expr) :
    (array loc items).referenceNames = items.flatMap referenceNames := by
  rw [referenceNames, subterms, subtermsOf_eq_flatMap, List.filterMap_cons]
  exact List.filterMap_flatMap

@[simp] theorem referenceNames_reference (loc : Location) (name : String) :
    (reference loc name).referenceNames = [name] := by
  simp [referenceNames, subterms, referenceName?]

@[simp] theorem referenceNames_unary (loc : Location) (op : UnaryOp) (operand : Expr) :
    (unary loc op operand).referenceNames = operand.referenceNames := by
  simp [referenceNames, subterms, List.filterMap_cons, referenceName?]

@[simp] theorem referenceNames_binary (loc : Location) (op : BinaryOp) (lhs rhs : Expr) :
    (binary loc op lhs rhs).referenceNames = lhs.referenceNames ++ rhs.referenceNames := by
  simp [referenceNames, subterms, List.filterMap_cons, referenceName?]

end Expr

end InterfaceDefinition
