import InterfaceDefinition.Diagnostic
import InterfaceDefinition.Text.Blank

/-!
# Options

What one validation asks for: the backends to check for, in order and each once, and the advisories
that are switched off.
-/

namespace InterfaceDefinition

/-! ### Errors in options -/

/-- Why a name in the options is refused. -/
inductive OptionError where
  | unknownBackend (name : String)
  | unknownAdvisory (name : String)
  deriving DecidableEq, Repr

/-- The text of a refusal; it lists the names there are. -/
def OptionError.message : OptionError → String
  | unknownBackend name =>
    "unknown backend '" ++ name ++ "', expected one of: java, cpp, ndk, rust"
  | unknownAdvisory name =>
    "unknown diagnostic '" ++ name ++
      "', expected one of: enum-zero, inout-parameter, interface-name"

/-- The advisory that an option names. -/
def Advisory.ofOption (name : String) : Except OptionError Advisory :=
  match Advisory.ofName? name with
  | some advisory => .ok advisory
  | none => .error (.unknownAdvisory name)

/-! ### Backends -/

/-- A target of code generation, with type restrictions of its own. -/
inductive Backend where
  | java
  | cpp
  | ndk
  | rust
  deriving DecidableEq, Repr

namespace Backend

/-- Every backend. -/
def all : List Backend := [java, cpp, ndk, rust]

/-- The name as it is printed. -/
def text : Backend → String
  | java => "Java"
  | cpp => "C++"
  | ndk => "NDK"
  | rust => "Rust"

/-- The name as it is written in options. -/
def optionName : Backend → String
  | java => "java"
  | cpp => "cpp"
  | ndk => "ndk"
  | rust => "rust"

/-- The backend that an option names. -/
def ofOption (name : String) : Except OptionError Backend :=
  match all.find? (·.optionName == name) with
  | some backend => .ok backend
  | none => .error (.unknownBackend name)

/-- Whether a backend has the stricter type model of stable native code. -/
def isNativeStable : Backend → Bool
  | ndk | rust => true
  | java | cpp => false

/-- Whether a backend includes an external header for a parcelable declared elsewhere. -/
def needsHeader : Backend → Bool
  | cpp | ndk => true
  | java | rust => false

end Backend

/-! ### Advisory switches -/

/-- Which advisories are switched off; at first none is. -/
structure AdvisorySwitches where
  disabled : List Advisory := []
  deriving DecidableEq, Repr

namespace AdvisorySwitches

/-- The switches with one more advisory off. -/
def disable (switches : AdvisorySwitches) (advisory : Advisory) : AdvisorySwitches :=
  ⟨advisory :: switches.disabled⟩

/-- Whether an advisory is shown. -/
def isEnabled (switches : AdvisorySwitches) (advisory : Advisory) : Bool :=
  !switches.disabled.contains advisory

/-- Whether a diagnostic is shown: all are, but those of an advisory that is off. -/
def shows (switches : AdvisorySwitches) (d : Diagnostic) : Bool :=
  match d.advisory with
  | some advisory => switches.isEnabled advisory
  | none => true

end AdvisorySwitches

/-! ### First occurrences -/

section FirstOccurrences

variable {α : Type} [BEq α]

/-- Puts an element behind those seen before, unless it is one of them. -/
def noteOccurrence (seen : List α) (x : α) : List α :=
  if seen.contains x then seen else seen ++ [x]

/-- The elements of a list in order of first occurrence, each once. -/
def firstOccurrences (xs : List α) : List α :=
  xs.foldl noteOccurrence []

variable [LawfulBEq α]

theorem mem_noteOccurrence {seen : List α} {x y : α} :
    y ∈ noteOccurrence seen x ↔ y ∈ seen ∨ y = x := by
  rw [noteOccurrence]
  split
  · next h =>
    have hx : x ∈ seen := by simpa using h
    constructor
    · exact Or.inl
    · rintro (hy | rfl)
      · exact hy
      · exact hx
  · simp

theorem nodup_noteOccurrence {seen : List α} (h : seen.Nodup) (x : α) :
    (noteOccurrence seen x).Nodup := by
  rw [noteOccurrence]
  split
  · exact h
  · next hx =>
    have hx : x ∉ seen := by simpa using hx
    rw [List.nodup_append]
    refine ⟨h, by simp, ?_⟩
    rintro a ha b hb rfl
    exact hx (by simpa [List.mem_singleton.mp hb] using ha)

theorem mem_foldl_noteOccurrence (xs seen : List α) (y : α) :
    y ∈ xs.foldl noteOccurrence seen ↔ y ∈ seen ∨ y ∈ xs := by
  induction xs generalizing seen with
  | nil => simp
  | cons x xs ih => rw [List.foldl_cons, ih, mem_noteOccurrence, List.mem_cons, or_assoc]

theorem nodup_foldl_noteOccurrence (xs : List α) {seen : List α} (h : seen.Nodup) :
    (xs.foldl noteOccurrence seen).Nodup := by
  induction xs generalizing seen with
  | nil => exact h
  | cons x xs ih => exact ih (nodup_noteOccurrence h x)

/-- No element is lost and none is added. -/
@[simp] theorem mem_firstOccurrences {xs : List α} {y : α} :
    y ∈ firstOccurrences xs ↔ y ∈ xs := by
  simp [firstOccurrences, mem_foldl_noteOccurrence]

/-- Every element is kept once. -/
theorem nodup_firstOccurrences (xs : List α) : (firstOccurrences xs).Nodup :=
  nodup_foldl_noteOccurrence xs List.nodup_nil

end FirstOccurrences

/-! ### Options -/

/-- The requested backends and the advisory switches. -/
structure Options where
  backends : List Backend := [.java]
  advisories : AdvisorySwitches := {}
  deriving DecidableEq, Repr

namespace Options

/-- The options with other backends; a repeated one counts once. -/
def withBackends (options : Options) (backends : List Backend) : Options :=
  { options with backends := firstOccurrences backends }

/-- The options with the backends of a comma separated list; blanks around the names and empty
names are ignored, and the first unknown name is an error. -/
def withBackendList (options : Options) (list : String) : Except OptionError Options := do
  let names := ((Text.commaSeparated list).map Text.trim).filter (!·.isEmpty)
  return options.withBackends (← names.mapM Backend.ofOption)

/-- The options with one more advisory switched off. -/
def withoutAdvisory (options : Options) (advisory : Advisory) : Options :=
  { options with advisories := options.advisories.disable advisory }

end Options

end InterfaceDefinition
