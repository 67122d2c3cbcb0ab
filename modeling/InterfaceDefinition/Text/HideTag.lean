import InterfaceDefinition.Text.Alphanumeric

/-!
# The hide tag of comments

A comment hides the node it belongs to when it holds the tag `@hide` as a word of its own: what
follows the tag is neither a letter, a digit nor an underscore.
-/

namespace InterfaceDefinition.Text

/-- The characters of the tag. -/
def hideTag : List Char :=
  "@hide".toList

/-- Whether a word has ended before these characters. -/
def wordEnds : List Char → Bool
  | [] => true
  | c :: _ => !(isAlphanumeric c || c == '_')

/-- Whether some occurrence of the tag in a list of characters is a word of its own. -/
def holdsHideTag : List Char → Bool
  | [] => false
  | c :: rest =>
    (hideTag.isPrefixOf (c :: rest) && wordEnds ((c :: rest).drop hideTag.length)) ||
      holdsHideTag rest

/-- Whether comments carry the hide tag. -/
def hasHideTag (comments : String) : Bool :=
  holdsHideTag comments.toList

end InterfaceDefinition.Text
