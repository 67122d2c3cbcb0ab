import InterfaceDefinition.Decl.Fault
import InterfaceDefinition.TypeSpec.Check
import InterfaceDefinition.TypeSpec.Usage

/-!
# Checks of members

The rules for fields, constants, enumerators and methods. A value must be well formed and must
render as a value of its type; members of one sort must differ in name; arguments must go a way that
their types admit.
-/

namespace InterfaceDefinition

/-! ### Earlier elements -/

/-- Every element after `earlier`, with all the elements before it. -/
def withEarlierFrom {α : Type} (earlier : List α) : List α → List (List α × α)
  | [] => []
  | x :: rest => (earlier, x) :: withEarlierFrom (earlier ++ [x]) rest

/-- Every element of a list with the elements before it. -/
def withEarlier {α : Type} (xs : List α) : List (List α × α) :=
  withEarlierFrom [] xs

theorem map_snd_withEarlierFrom {α : Type} (earlier xs : List α) :
    (withEarlierFrom earlier xs).map (·.2) = xs := by
  induction xs generalizing earlier with
  | nil => rfl
  | cons x xs ih => rw [withEarlierFrom, List.map_cons, ih]

theorem mem_of_mem_withEarlier {α : Type} {xs : List α} {x : List α × α}
    (h : x ∈ withEarlier xs) : x.2 ∈ xs := by
  have hmem := List.mem_map_of_mem (f := (·.2)) h
  rwa [withEarlier, map_snd_withEarlierFrom] at hmem

theorem exists_mem_withEarlier {α : Type} {xs : List α} {x : α} (h : x ∈ xs) :
    ∃ earlier, (earlier, x) ∈ withEarlier xs := by
  rw [← map_snd_withEarlierFrom [] xs] at h
  obtain ⟨⟨earlier, _⟩, hmem, rfl⟩ := List.mem_map.mp h
  exact ⟨earlier, hmem⟩

theorem forall_withEarlier_snd {α : Type} {P : α → Prop} {xs : List α} :
    (∀ x ∈ withEarlier xs, P x.2) ↔ ∀ x ∈ xs, P x := by
  constructor
  · intro h x hx
    obtain ⟨earlier, hmem⟩ := exists_mem_withEarlier hx
    exact h _ hmem
  · exact fun h x hx => h x.2 (mem_of_mem_withEarlier hx)

theorem forall_withEarlierFrom_iff {α : Type} {R : α → α → Prop} {earlier xs : List α} :
    (∀ x ∈ withEarlierFrom earlier xs, ∀ e ∈ x.1, R e x.2) ↔
      xs.Pairwise R ∧ ∀ x ∈ xs, ∀ e ∈ earlier, R e x := by
  induction xs generalizing earlier with
  | nil => simp [withEarlierFrom]
  | cons x xs ih =>
    simp only [withEarlierFrom, List.forall_mem_cons, ih, List.pairwise_cons, List.mem_append,
      List.mem_singleton, or_imp, forall_and, forall_eq]
    constructor
    · rintro ⟨hfirst, hpairwise, hrest, hx⟩
      exact ⟨⟨hx, hpairwise⟩, hfirst, hrest⟩
    · rintro ⟨⟨hx, hpairwise⟩, hfirst, hrest⟩
      exact ⟨hfirst, hpairwise, hrest, hx⟩

/-- Elements are pairwise distinct in a property when each differs in it from those before it. -/
theorem nodup_map_iff_withEarlier {α β : Type} {f : α → β} {xs : List α} :
    (xs.map f).Nodup ↔ ∀ x ∈ withEarlier xs, ∀ e ∈ x.1, f e ≠ f x.2 := by
  rw [List.Nodup, List.pairwise_map, withEarlier,
    forall_withEarlierFrom_iff (R := fun e x => f e ≠ f x)]
  simp

theorem forall_withEarlier_iff {α β : Type} {f : α → β} {P : α → Prop} {xs : List α} :
    (∀ x ∈ withEarlier xs, (∀ e ∈ x.1, f e ≠ f x.2) ∧ P x.2) ↔
      (xs.map f).Nodup ∧ ∀ x ∈ xs, P x := by
  rw [nodup_map_iff_withEarlier, ← forall_withEarlier_snd (P := P)]
  exact ⟨fun h => ⟨fun x hx => (h x hx).1, fun x hx => (h x hx).2⟩,
    fun h x hx => ⟨h.1 x hx, h.2 x hx⟩⟩

/-! ### Values -/

/-- What is wrong with the value of a field or constant: its form, its evaluation, or that it
renders to nothing. -/
def Registry.valueFault? (r : Registry) (scope name : String) (type : TypeSpec) (value : Expr) :
    Option ValueFault :=
  if !value.isWellFormed then some (.malformed value.text name)
  else
    match r.valueText value type.valueType scope with
    | .ok text => if text.isEmpty then some (.empty name) else none
    | .error cause => some (.failed name cause)

/-- Checks the value of a field or constant. -/
def Registry.checkValue (r : Registry) (scope name : String) (type : TypeSpec) (value : Expr) :
    Reporting Bool :=
  .verdict <| (r.valueFault? scope name type value).map fun fault =>
    .error value.location ValueFault.code fault.message

/-! ### Fields and constants -/

/-- Checks a field declared in a scope: its type, that it is not void, and then its default. -/
def Field.check (r : Registry) (scope : String) (f : Field) : Fallible Bool := do
  let typeValid ← f.type.check r
  let notVoid ← Reporting.verdict <|
    if f.type.name = "void" then some ((DeclFault.voidField f.name).diagnostic f.location) else none
  match f.default? with
  | some value =>
    if typeValid && notVoid then r.checkValue scope f.name f.type value else return false
  | none => return typeValid && notVoid

/-- Checks a constant declared in a scope: its type, that constants may have it, then its value. -/
def Constant.check (r : Registry) (scope : String) (c : Constant) : Fallible Bool := do
  if !(← c.type.check r) then
    return false
  else if !Vocabulary.constantTypes.contains c.type.signature then
    Reporting.reject ((DeclFault.unsupportedConstant c.type.signature).diagnostic c.location)
  else
    r.checkValue scope c.name c.type c.value

/-- Checks the constants of a declaration: each differs in name from the earlier ones and is valid
by itself. -/
def Constant.checkAll (r : Registry) (scope : String) (constants : List Constant) :
    Fallible Bool :=
  checkEach (m := Fallible) (fun (earlier, c) => do
    let fresh ← Reporting.verdict <|
      if earlier.any (·.name == c.name) then
        some ((DeclFault.duplicateConstant c.name).diagnostic c.location)
      else none
    let valid ← c.check r scope
    return fresh && valid) (withEarlier constants)

/-! ### Enumerators -/

/-- What is wrong with an enumerator of a value: the form of the value, or that it has no rendering
as a value of the backing type. -/
def Enumerator.fault? (r : Registry) (scope : String) (backing : TypeSpec) (e : Enumerator)
    (value : Expr) : Option Diagnostic :=
  if !value.isWellFormed then
    some ((DeclFault.malformedEnumerator e.name).diagnostic value.location)
  else if (r.valueTextOrEmpty value backing.valueType scope).isEmpty then
    some (DeclFault.enumeratorType.diagnostic e.location)
  else none

/-! ### Methods -/

namespace Argument

/-- What is wrong with an argument of valid type: first the rules about the type and the method,
then those about the direction, then those about the name. -/
def fault? (r : Registry) (m : Method) (a : Argument) :
    Except InternalError (Option Diagnostic) := do
  if a.type.name = "ParcelableHolder" then
    return some (MethodFault.holderArgument.diagnostic a.location)
  else if m.isOneway && a.direction.isOut then
    return some ((MethodFault.onewayOut m.name).diagnostic m.location)
  else
    let (canBeOut, aspect) ← r.outUsage a.type
    return firstFault?
      [(a.written.isNone && canBeOut,
          (MethodFault.missingDirection a.type.signature).diagnostic a.location),
        (a.direction != .input && !canBeOut,
          (MethodFault.notOut a.name a.directionText aspect.text).diagnostic a.location),
        (Vocabulary.isReservedWord a.name,
          (MethodFault.reservedWord a.name).diagnostic a.location),
        (Vocabulary.beginsReserved a.name,
          (MethodFault.reservedBeginning a.name Vocabulary.reservedBeginning).diagnostic
            a.location)]

/-- The advice against arguments that go both ways. -/
def inoutAdvice (a : Argument) : Diagnostic :=
  .warning .inoutParameter a.location
    (a.name ++ " is 'inout'. Avoid inout parameters, they read like 'out' parameters but are " ++
      "also 'in'.")

/-- Checks an argument of a method; one that passes may still draw advice. -/
def check (r : Registry) (m : Method) (a : Argument) : Fallible Bool := do
  if !(← a.type.check r) then
    return false
  else
    match ← ExceptT.mk (pure (a.fault? r m)) with
    | some fault => Reporting.reject fault
    | none =>
      if a.direction = .both then
        Reporting.report a.inoutAdvice
      return true

end Argument

namespace Method

/-- What is wrong with the return type of a method, if that type is valid. -/
def returnFault? (m : Method) : Option MethodFault :=
  firstFault?
    [(m.returnType.name == "ParcelableHolder", .holderReturned),
      (m.isOneway && m.returnType.name != "void", .onewayReturns m.name)]

/-- Checks arguments with those before them, and stops at the first that fails. -/
def checkArguments (r : Registry) (m : Method) : List (List Argument × Argument) → Fallible Bool
  | [] => return true
  | (earlier, a) :: rest => do
    if earlier.any (·.name == a.name) then
      Reporting.reject ((MethodFault.duplicateArgument m.name a.name).diagnostic m.location)
    else if ← a.check r m then
      m.checkArguments r rest
    else
      return false

/-- Checks a method by itself: the return type, then the arguments, up to the first failure. -/
def check (r : Registry) (m : Method) : Fallible Bool := do
  if !(← m.returnType.check r) then
    return false
  else
    match m.returnFault? with
    | some fault => Reporting.reject (fault.diagnostic m.location)
    | none => m.checkArguments r (withEarlier m.arguments)

/-- What is wrong with the name of a method after the ones before it: it is taken, or the method has
the signature of one that every interface has by itself. -/
def nameFault? (earlier : List Method) (m : Method) : Option Diagnostic :=
  match earlier.find? (·.name == m.name) with
  | some first =>
    let fault := MethodFault.duplicate m.name
    some (.duplicate m.location first.location fault.code fault.message)
  | none =>
    if m.isUserDefined && Vocabulary.reservedSignatures.contains m.signature then
      some ((MethodFault.reserved m.signature).diagnostic m.location)
    else none

/-- Checks the methods of an interface, each by itself and then by its name. -/
def checkAll (r : Registry) (methods : List Method) : Fallible Bool :=
  checkEach (m := Fallible) (fun (earlier, method) => do
    let valid ← method.check r
    let named ← Reporting.verdict (method.nameFault? earlier)
    return valid && named) (withEarlier methods)

end Method

end InterfaceDefinition
