/-!
# Listings

Text that is written line by line at a level of indentation.
-/

namespace InterfaceDefinition

/-- The text so far and the level at which the next line is written. -/
structure Listing where
  text : String := ""
  level : Nat := 0

namespace Listing

/-- What stands before a line at a level: two blanks for each. -/
def margin (level : Nat) : String :=
  String.ofList (List.replicate (2 * level) ' ')

/-- Goes one level in. -/
def indent (l : Listing) : Listing :=
  { l with level := l.level + 1 }

/-- Goes one level out; the outermost level has none outside it. -/
def dedent (l : Listing) : Listing :=
  { l with level := l.level - 1 }

/-- Writes a line. -/
def line (l : Listing) (content : String) : Listing :=
  { l with text := l.text ++ margin l.level ++ content ++ "\n" }

/-- Writes the comment that hides what follows. -/
def hideComment (l : Listing) : Listing :=
  l.line "/* @hide */"

/-- Writes a line, after the comment that hides it if it is hidden. -/
def lineHidden (l : Listing) (hidden : Bool) (content : String) : Listing :=
  (if hidden then l.hideComment else l).line content

/-- Writes something one level further in. -/
def inside (l : Listing) (write : Listing → Listing) : Listing :=
  (write l.indent).dedent

end Listing

end InterfaceDefinition
