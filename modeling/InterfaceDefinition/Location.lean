/-!
# Locations

Where a node of a document was written: a file and, for what was really written there, a span of
lines and columns. A node made up on the way (a default type, say) has an origin in place of a file
and no span.
-/

namespace InterfaceDefinition

/-- A place in a file; lines and columns count from one. -/
structure Position where
  line : Nat
  column : Nat
  deriving DecidableEq, Repr

/-- The places from `start` to `stop`, both included. -/
structure Span where
  start : Position
  stop : Position
  deriving DecidableEq, Repr

/-- A position lies in a span when it is neither on an earlier or later line nor, on the first or
the last line, before the first or after the last column. -/
def Span.contains (span : Span) (p : Position) : Bool :=
  if p.line < span.start.line || span.stop.line < p.line then false
  else if p.line == span.start.line && p.column < span.start.column then false
  else if p.line == span.stop.line && span.stop.column < p.column then false
  else true

/-- The span with its ends exchanged. -/
def Span.reversed (span : Span) : Span :=
  ⟨span.stop, span.start⟩

/-- A file and a span in it, or an origin without a span. -/
structure Location where
  file : String
  span : Option Span := none
  deriving DecidableEq, Repr

namespace Location

/-- Whether the location is a real place in a file. -/
def isKnown (loc : Location) : Bool :=
  loc.span.isSome

/-- The full text: `file:line.column-column`, with the last line before the last column when the
span covers several lines; the file alone when there is no span. -/
def text (loc : Location) : String :=
  match loc.span with
  | none => loc.file
  | some ⟨start, stop⟩ =>
    let lastLine := if start.line = stop.line then "" else toString stop.line ++ "."
    loc.file ++ ":" ++ toString start.line ++ "." ++ toString start.column ++ "-" ++ lastLine ++
      toString stop.column

/-- The short text: `file:line`, or the file alone when there is no span. -/
def lineText (loc : Location) : String :=
  match loc.span with
  | none => loc.file
  | some span => loc.file ++ ":" ++ toString span.start.line

end Location

end InterfaceDefinition
