import InterfaceDefinition.Proofs.Acceptance.Rules
import Mathlib.Tactic.MkIffOfInductiveProp

/-!
# The rules for members

When a field, a constant, an argument or a method is valid, and that its check passes exactly then.
The checks stop at the first fault of a member, so what they decide is said here without their
order: a conjunction of rules on the type, the value, the direction and the name.

Whether a type can be passed back (`TypeSpec.CanBeOut`) is the one rule that looks into the registry
for more than the number of type parameters. The answer is known for every known type
(`TypeSpec.Known.outUsage_iff`).
-/

namespace InterfaceDefinition

open Fallible

variable {r : Registry} {scope : String}

/-! ### Values -/

/-- A value that is well formed and has a text, which is not empty, as a value of the type. -/
def Registry.Accepts (r : Registry) (scope : String) (type : TypeSpec) (value : Expr) : Prop :=
  value.isWellFormed = true ∧ ∃ text, r.valueText value type.valueType scope = .ok text ∧ text ≠ ""

/-- A value has no fault when it is evaluated and rendered for the type without an error. -/
theorem Registry.valueFault?_eq_none_iff {name : String} {type : TypeSpec} {value : Expr} :
    r.valueFault? scope name type value = none ↔ r.Accepts scope type value := by
  rw [valueFault?, Accepts]
  cases value.isWellFormed with
  | false => simp
  | true =>
    cases r.valueText value type.valueType scope with
    | error cause => simp
    | ok text => simp

/-- A value is checked against its type. -/
theorem Registry.decides_checkValue {name : String} {type : TypeSpec} {value : Expr} :
    Decides true (liftM (r.checkValue scope name type value)) (r.Accepts scope type value) :=
  .verdict (by rw [Option.map_eq_none_iff, valueFault?_eq_none_iff])

/-- A value that is accepted evaluates, and renders. -/
theorem Registry.Accepts.exists_value {type : TypeSpec} {value : Expr}
    (h : r.Accepts scope type value) :
    ∃ v text, r.evaluate value type.valueType scope = .ok v ∧
      v.render type.valueType = .ok text := by
  obtain ⟨-, text, htext, -⟩ := h
  obtain ⟨v, hv, hrender⟩ := exists_value_of_valueText htext
  exact ⟨v, text, hv, hrender⟩

/-! ### Fields and constants -/

/-- A type passes when it is valid; the rules for it are in a module of their own. -/
theorem TypeSpec.decides_check {t : TypeSpec} : Decides true (t.check r) (t.IsValid r) := by
  rw [Decides, passes_check_iff_isValid, eq_self_iff_true, true_and]

/-- The rules for a field that is declared in a scope. -/
@[mk_iff]
structure Field.IsValid (r : Registry) (scope : String) (f : Field) : Prop where
  type : f.type.IsValid r
  notVoid : f.type.name ≠ "void"
  value : ∀ value, f.default? = some value → r.Accepts scope f.type value

theorem Field.decides_check {f : Field} :
    Decides true (f.check r scope) (f.IsValid r scope) := by
  rw [isValid_iff, check]
  refine .bind TypeSpec.decides_check fun typeValid => ?_
  refine .bind (.verdict (by simp)) fun notVoid => ?_
  -- the default is evaluated only while both verdicts are positive, which is one condition
  rw [Bool.and_assoc]
  cases hdefault : f.default? with
  | none => exact (Decides.pure rfl).congr (by simp)
  | some value =>
    refine (Decides.while_positive Registry.decides_checkValue).congr ?_
    simp

/-- The rules for a constant that is declared in a scope. -/
@[mk_iff]
structure Constant.IsValid (r : Registry) (scope : String) (c : Constant) : Prop where
  type : c.type.IsValid r
  signature : c.type.signature ∈ Vocabulary.constantTypes
  value : r.Accepts scope c.type c.value

theorem Constant.decides_check {c : Constant} :
    Decides true (c.check r scope) (c.IsValid r scope) := by
  rw [isValid_iff, check]
  refine .bind TypeSpec.decides_check fun typeValid => .guard ?_
  by_cases hsignature : c.type.signature ∈ Vocabulary.constantTypes
  · rw [if_neg (by simpa using hsignature)]
    exact Registry.decides_checkValue.congr (by simp [hsignature])
  · rw [if_pos (by simpa using hsignature)]
    exact Decides.reject.congr (by simp [hsignature])

/-- Constants differ in name, and each is valid by itself. -/
theorem Constant.decides_checkAll {constants : List Constant} :
    Decides true (Constant.checkAll r scope constants)
      ((constants.map (·.name)).Nodup ∧ ∀ c ∈ constants, c.IsValid r scope) := by
  rw [← forall_withEarlier_iff]
  exact .checkEach fun (earlier, c) _ =>
    .bind (.verdict (by simp)) fun _ => .last c.decides_check fun _ => rfl

/-! ### Arguments -/

/-- A type that arguments can be passed back with: of the builtin types and enums the arrays and
some that are none, else those declared, but for interfaces and immutable declarations. -/
def TypeSpec.CanBeOut (r : Registry) (t : TypeSpec) : Prop :=
  if Vocabulary.isBuiltin t.name = true ∨ t.base.isEnum = true then
    t.isArray = true ∨ t.name ∈ ["List", "Map", "ParcelFileDescriptor"]
  else
    ∃ d, r.named? t.base = some d ∧ d.kind ≠ .interface ∧
      d.annotations.has .javaOnlyImmutable = false

/-- Whether a known type can be passed back is always known. -/
theorem TypeSpec.Known.outUsage_iff {t : TypeSpec} (h : t.Known r) :
    ∃ canBeOut aspect, r.outUsage t = .ok (canBeOut, aspect) ∧
      (canBeOut = true ↔ t.CanBeOut r) := by
  obtain ⟨resolution, hresolution, hdecl⟩ := h t t.self_mem_nodes
  have hname : t.canonicalName = .ok t.name := by
    simp [TypeSpec.canonicalName, name, TypeName.text, hresolution]
  have htarget : t.base.target? = resolution.target := by simp [TypeName.target?, hresolution]
  rw [Registry.outUsage, CanBeOut, Registry.named?, htarget]
  simp only [hname, bind, Except.bind, Bool.or_eq_true]
  split
  · exact ⟨_, _, rfl, by simp⟩
  · cases hsome : resolution.target with
    | none => exact ⟨_, _, rfl, by simp⟩
    | some target =>
      obtain ⟨d, hd⟩ := Option.isSome_iff_exists.mp (hdecl target hsome)
      simp only [hd, Option.bind_some]
      split
      · next hinterface => exact ⟨_, _, rfl, by simp [hinterface]⟩
      · next hinterface =>
        split
        · next himmutable => exact ⟨_, _, rfl, by simp [himmutable]⟩
        · next himmutable => exact ⟨_, _, rfl, by simpa [hinterface] using himmutable⟩

/-- The rules for an argument of a method, which may be oneway. -/
@[mk_iff]
structure Argument.IsValid (r : Registry) (isOneway : Bool) (a : Argument) : Prop where
  type : a.type.IsValid r
  notHolder : a.type.name ≠ "ParcelableHolder"
  oneway : isOneway = true → a.direction.isOut = false
  explicit : a.type.CanBeOut r → a.written ≠ none
  direction : a.direction ≠ .input → a.type.CanBeOut r
  notReserved : Vocabulary.isReservedWord a.name = false
  beginning : Vocabulary.beginsReserved a.name = false

/-- What is asked of an argument besides a valid type: holders are not passed, nothing is passed out
of a oneway method, the direction is written where there is a choice and is one that the type
allows, and the name is not reserved. -/
theorem Argument.fault?_eq_none_iff {m : Method} {a : Argument} (h : a.type.Known r) :
    a.fault? r m = .ok none ↔
      a.type.name ≠ "ParcelableHolder" ∧ (m.isOneway = true → a.direction.isOut = false) ∧
        (a.type.CanBeOut r → a.written ≠ none) ∧ (a.direction ≠ .input → a.type.CanBeOut r) ∧
        Vocabulary.isReservedWord a.name = false ∧ Vocabulary.beginsReserved a.name = false := by
  obtain ⟨canBeOut, aspect, husage, hiff⟩ := h.outUsage_iff
  have hfault : ∀ d : Diagnostic,
      ¬ (pure (some d) : Except InternalError (Option Diagnostic)) = .ok none :=
    fun d h => Option.some_ne_none d (Except.ok.inj h)
  rw [fault?, ← hiff]
  by_cases hholder : a.type.name = "ParcelableHolder"
  · rw [if_pos hholder]
    exact iff_of_false (hfault _) fun h => h.1 hholder
  · rw [if_neg hholder]
    by_cases honeway : m.isOneway = true ∧ a.direction.isOut = true
    · rw [if_pos (by simpa using honeway)]
      refine iff_of_false (hfault _) fun h => ?_
      simp [h.2.1 honeway.1] at honeway
    · rw [if_neg (by simpa using honeway)]
      have hforward : m.isOneway = true → a.direction.isOut = false := by simpa using honeway
      simp only [husage, bind, Except.bind, pure, Except.pure, Except.ok.injEq,
        firstFault?_eq_none_iff, List.forall_mem_cons, List.not_mem_nil, false_imp_iff,
        implies_true, and_true]
      rw [and_iff_right hholder, and_iff_right hforward]
      cases canBeOut <;> simp [Option.isSome_iff_ne_none]

theorem Argument.decides_check {m : Method} {a : Argument} (h : a.type.Known r) :
    Decides true (a.check r m) (a.IsValid r m.isOneway) := by
  have hfault : (∃ fault, a.fault? r m = .ok fault ∧ fault = none) ↔ _ :=
    exists_eq_right.trans (fault?_eq_none_iff h)
  rw [isValid_iff, check, ← hfault]
  refine .bind TypeSpec.decides_check fun typeValid => .guard ?_
  refine .bind_answer fun fault _ => ?_
  -- a direction that is only missing is advice, and advice leaves the verdict positive
  cases fault with
  | some d => exact Decides.reject.congr (by simp)
  | none =>
    dsimp only
    split
    · exact (Decides.advise (.pure rfl)).congr (by simp)
    · exact (Decides.pure rfl).congr (by simp)

/-! ### Methods -/

namespace Method

/-- The rules for a method by itself; it may be oneway because its interface is. -/
@[mk_iff]
structure IsValid (r : Registry) (isOneway : Bool) (m : Method) : Prop where
  returnType : m.returnType.IsValid r
  returnNotHolder : m.returnType.name ≠ "ParcelableHolder"
  returnOneway : isOneway = true → m.returnType.name = "void"
  argumentNames : (m.arguments.map (·.name)).Nodup
  arguments : ∀ a ∈ m.arguments, a.IsValid r isOneway

variable {m : Method}

/-- Arguments are checked up to the first that fails, and pass when each is valid and has none of
the names before it. -/
theorem decides_checkArguments {arguments : List (List Argument × Argument)}
    (h : ∀ x ∈ arguments, x.2.type.Known r) :
    Decides true (m.checkArguments r arguments)
      (∀ x ∈ arguments, (∀ e ∈ x.1, e.name ≠ x.2.name) ∧ x.2.IsValid r m.isOneway) := by
  induction arguments with
  | nil => exact (Decides.pure rfl).congr (by simp)
  | cons x rest ih =>
    obtain ⟨earlier, a⟩ := x
    rw [List.forall_mem_cons] at h
    rw [checkArguments]
    simp only [List.forall_mem_cons]
    split
    · next htaken =>
      have hne : ¬ ∀ e ∈ earlier, e.name ≠ a.name := by simpa using htaken
      exact Decides.reject.congr (by simp [hne])
    · next hfresh =>
      have hne : ∀ e ∈ earlier, e.name ≠ a.name := by simpa using hfresh
      refine Decides.congr (.bind (Argument.decides_check h.1) fun _ => .while_positive (ih h.2)) ?_
      rw [and_iff_right hne]

/-- What is asked of the type that a method returns besides that it is valid. -/
theorem returnFault?_eq_none_iff :
    m.returnFault? = none ↔
      m.returnType.name ≠ "ParcelableHolder" ∧
        (m.isOneway = true → m.returnType.name = "void") := by
  simp [returnFault?, firstFault?_eq_none_iff]

/-- A method passes when its types, its arguments and what it returns keep the rules; where the
check ends early, a rule is violated already. -/
theorem decides_check (h : m.returnType.Known r ∧ ∀ a ∈ m.arguments, a.type.Known r) :
    Decides true (m.check r) (m.IsValid r m.isOneway) := by
  have hparts : Decides true (m.check r)
      (m.returnType.IsValid r ∧ m.returnFault? = none ∧
        (m.arguments.map (·.name)).Nodup ∧ ∀ a ∈ m.arguments, a.IsValid r m.isOneway) := by
    rw [check]
    refine .bind TypeSpec.decides_check fun _ => .guard ?_
    cases m.returnFault? with
    | some fault => exact Decides.reject.congr (by simp)
    | none =>
      have harguments := decides_checkArguments (m := m) (forall_withEarlier_snd.mpr h.2)
      rw [forall_withEarlier_iff] at harguments
      exact harguments.congr (by simp)
  exact hparts.congr (by rw [returnFault?_eq_none_iff, and_assoc, isValid_iff])

/-- A method passes by name when no earlier one has the name and the signature is not reserved. -/
theorem nameFault?_eq_none_iff {earlier : List Method} :
    m.nameFault? earlier = none ↔
      (∀ e ∈ earlier, e.name ≠ m.name) ∧
        (m.isUserDefined = true → m.signature ∉ Vocabulary.reservedSignatures) := by
  rw [nameFault?]
  cases hfirst : earlier.find? (·.name == m.name) with
  | some first =>
    have hname : first.name = m.name := by simpa using List.find?_some hfirst
    have hmem : first ∈ earlier := List.mem_of_find?_eq_some hfirst
    exact iff_of_false (Option.some_ne_none _) fun h => h.1 first hmem hname
  | none =>
    have hfresh : ∀ e ∈ earlier, e.name ≠ m.name := by simpa using hfirst
    rw [and_iff_right hfresh]
    simp

/-- Methods differ in name, have no reserved signature unless they are not user defined, and each is
valid by itself. -/
theorem decides_checkAll {methods : List Method}
    (h : ∀ m ∈ methods, m.returnType.Known r ∧ ∀ a ∈ m.arguments, a.type.Known r) :
    Decides true (checkAll r methods)
      ((methods.map (·.name)).Nodup ∧ ∀ m ∈ methods,
        (m.isUserDefined = true → m.signature ∉ Vocabulary.reservedSignatures) ∧
          m.IsValid r m.isOneway) := by
  rw [← forall_withEarlier_iff]
  refine .checkEach fun x hx => ?_
  have hcheck : Decides true (x.2.check r) (x.2.IsValid r x.2.isOneway) :=
    decides_check (h x.2 (mem_of_mem_withEarlier hx))
  have hname : x.2.nameFault? x.1 = none ↔ _ := nameFault?_eq_none_iff
  refine Decides.congr (.bind hcheck fun _ => .last (.verdict hname) fun _ => rfl) ?_
  rw [and_comm, and_assoc]

end Method

end InterfaceDefinition
