import InterfaceDefinition.Expr
import InterfaceDefinition.Number.Floating
import InterfaceDefinition.Text.Quoted

/-!
# Well-formed expressions

The structural check of expressions, which needs no environment: literals have the form of their
kind and references have a name.
-/

namespace InterfaceDefinition

/-- Whether a text has the form of a literal of this kind. A character stands between single quotes
and there is something between them; a string stands between double quotes. -/
def LiteralKind.accepts (kind : LiteralKind) (text : String) : Bool :=
  match kind with
  | .boolean => text == "true" || text == "false"
  | .character => (Text.between? '\'' text).any (!·.isEmpty)
  | .floating => (Number.floating? text).isSome
  | .integral => (Number.integral? text).isSome
  | .string => (Text.between? '"' text).isSome

namespace Expr

mutual

/-- Whether all literals have the form of their kind and all references a name. -/
def isWellFormed : Expr → Bool
  | literal _ kind written => kind.accepts written
  | array _ items => allWellFormed items
  | reference _ name => !name.isEmpty
  | unary _ _ operand => operand.isWellFormed
  | binary _ _ lhs rhs => lhs.isWellFormed && rhs.isWellFormed

/-- Whether several expressions are all well formed. -/
def allWellFormed : List Expr → Bool
  | [] => true
  | e :: rest => e.isWellFormed && allWellFormed rest

end

theorem allWellFormed_eq_all (es : List Expr) : allWellFormed es = es.all isWellFormed := by
  induction es with
  | nil => rw [allWellFormed]; rfl
  | cons e es ih => rw [allWellFormed, ih]; rfl

end Expr

end InterfaceDefinition
