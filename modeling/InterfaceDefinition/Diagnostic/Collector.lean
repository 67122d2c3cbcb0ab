import InterfaceDefinition.Options

/-!
# Collectors

A collector holds the diagnostics that were added to it, less those of advisories that are switched
off. Collectors are stacked: a fork starts empty with the same switches, and merging moves what it
holds behind what the collector below it holds. So what a stack holds from its bottom to its top
(`CollectorStack.contents`) is in the order in which it was added.
-/

namespace InterfaceDefinition

/-- The diagnostics held so far, in the order they were added, and the switches they passed. -/
structure Collector where
  switches : AdvisorySwitches := {}
  held : List Diagnostic := []

namespace Collector

/-- Adds a diagnostic unless its advisory is switched off. -/
def add (c : Collector) (d : Diagnostic) : Collector :=
  if c.switches.shows d then { c with held := c.held ++ [d] } else c

/-- Adds diagnostics in order. -/
def addAll (c : Collector) (ds : List Diagnostic) : Collector :=
  ds.foldl add c

/-- Moves everything that another collector holds behind what this one holds. -/
def merge (c other : Collector) : Collector :=
  { c with held := c.held ++ other.held }

/-- An empty collector with the same switches. -/
def fork (c : Collector) : Collector :=
  { c with held := [] }

/-- The number of errors held. -/
def errorCount (c : Collector) : Nat :=
  c.held.countP (·.isError)

/-- The number of warnings held. -/
def warningCount (c : Collector) : Nat :=
  c.held.countP (!·.isError)

/-- Whether an error is held. -/
def hasErrors (c : Collector) : Bool :=
  c.held.any (·.isError)

/-- What was added is held behind the rest, less what is switched off; the switches stay. -/
theorem addAll_eq (c : Collector) (ds : List Diagnostic) :
    c.addAll ds = { c with held := c.held ++ ds.filter c.switches.shows } := by
  rw [addAll]
  induction ds generalizing c with
  | nil => simp
  | cons d ds ih =>
    rw [List.foldl_cons, ih]
    rw [add]
    split
    · next h => simp [h]
    · next h => simp [h]

end Collector

/-! ### Stacks of collectors -/

/-- A stack with at least one collector. -/
structure CollectorStack where
  top : Collector
  below : List Collector := []

namespace CollectorStack

/-- The number of collectors. -/
def depth (s : CollectorStack) : Nat :=
  s.below.length + 1

/-- Adds a diagnostic to the top. -/
def add (s : CollectorStack) (d : Diagnostic) : CollectorStack :=
  { s with top := s.top.add d }

/-- Puts a fork of the top on the stack. -/
def fork (s : CollectorStack) : CollectorStack :=
  ⟨s.top.fork, s.top :: s.below⟩

/-- Removes the top and merges it into the collector below it; nothing when there is none. -/
def merge? (s : CollectorStack) : Option CollectorStack :=
  match s.below with
  | [] => none
  | next :: rest => some ⟨next.merge s.top, rest⟩

/-- Empties the top and gives what it held. -/
def take (s : CollectorStack) : List Diagnostic × CollectorStack :=
  (s.top.held, { s with top := s.top.fork })

/-- Everything that is held, from the bottom to the top. -/
def contents (s : CollectorStack) : List Diagnostic :=
  (s.below.reverse.flatMap (·.held)) ++ s.top.held

end CollectorStack

end InterfaceDefinition
