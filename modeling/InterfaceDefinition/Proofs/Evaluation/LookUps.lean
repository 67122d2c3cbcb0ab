import InterfaceDefinition.Evaluation

/-!
# What evaluation looks up

The value of an expression is made of the values of its references, each read with or without an
array in mind (`Expr.evalWith_eq_of_references`). Where an enum is expected a reference names one of
its enumerators, and no constant is looked up. Everywhere else a constant is, and its value makes
evaluation look up the constants that this refers to in turn: `Registry.LooksUp` relates a reference
to everything that is looked up for it. When the constants referred to in a document are made of
literals, that is the references in the document and nothing else
(`Registry.mem_references_of_documentLooksUp`).
-/

namespace InterfaceDefinition

/-! ### References of expressions -/

namespace Expr

mutual

/-- The references of an expression, each with whether an array is expected where it stands. -/
def references (isArray : Bool) : Expr → List (Bool × String)
  | literal .. => []
  | array _ items => itemReferences items
  | reference _ name => [(isArray, name)]
  | unary _ _ operand => operand.references isArray
  | binary _ _ lhs rhs => lhs.references isArray ++ rhs.references isArray

/-- The references of the items of an array. -/
def itemReferences : List Expr → List (Bool × String)
  | [] => []
  | e :: rest => e.references false ++ itemReferences rest

end

section References

variable {f g : Bool → String → Bounded Value}

mutual

/-- An expression has the same value when each of its references has. -/
theorem evalWith_eq_of_references (isArray : Bool) : (e : Expr) →
    (∀ ref ∈ e.references isArray, f ref.1 ref.2 = g ref.1 ref.2) →
      e.evalWith f isArray = e.evalWith g isArray
  | literal .., _ => by
    rw [evalWith, evalWith]
  | array _ items, h => by
    rw [references] at h
    rw [evalWith, evalWith, evalAll_eq_of_references items h]
  | reference _ name, h => by
    rw [references, List.forall_mem_singleton] at h
    rw [evalWith, evalWith]
    exact h
  | unary _ _ operand, h => by
    rw [references] at h
    rw [evalWith, evalWith, evalWith_eq_of_references isArray operand h]
  | binary _ _ lhs rhs, h => by
    rw [references, List.forall_mem_append] at h
    rw [evalWith, evalWith, evalWith_eq_of_references isArray lhs h.1,
      evalWith_eq_of_references isArray rhs h.2]

theorem evalAll_eq_of_references : (es : List Expr) →
    (∀ ref ∈ itemReferences es, f ref.1 ref.2 = g ref.1 ref.2) → evalAll f es = evalAll g es
  | [], _ => by
    rw [evalAll, evalAll]
  | e :: rest, h => by
    rw [itemReferences, List.forall_mem_append] at h
    rw [evalAll, evalAll, evalWith_eq_of_references false e h.1, evalAll_eq_of_references rest h.2]

end

end References

end Expr

/-! ### Looking up -/

namespace Registry

/-- Evaluating a reference, written in a scope where a type is expected, looks up a constant of some
name in some scope. -/
inductive LooksUp (r : Registry) : String → TypeName → Bool → String → String → String → Prop
  /-- The reference itself is looked up where no enum is expected. -/
  | self {scope : String} {type : TypeName} {isArray : Bool} {name : String}
      (h : isArray = true ∨ type.isEnum = false) : LooksUp r scope type isArray name scope name
  /-- So is what the constant it denotes refers to. -/
  | through {scope : String} {type : TypeName} {isArray : Bool} {name : String} {c : NamedConstant}
      {ref : Bool × String} {scope' name' : String}
      (hc : r.referent scope type isArray name = .ok (.inr c))
      (href : ref ∈ c.value.references c.type.isArray)
      (h : LooksUp r c.scope c.type.base ref.1 ref.2 scope' name') :
      LooksUp r scope type isArray name scope' name'

/-- Evaluating an expression, written in a scope where a type is expected, looks up a constant of
some name in some scope. -/
def ValueLooksUp (r : Registry) (e : Expr) (type : ValueType) (scope scope' name' : String) :
    Prop :=
  ∃ ref ∈ e.references type.isArray, r.LooksUp scope type.base ref.1 ref.2 scope' name'

/-- The place of the declaration in which a reference written in a scope is looked for. -/
def owner? (r : Registry) (scope name : String) : Option DeclId :=
  match Dotted.qualifier? name with
  | some typeName =>
    (r.lookup? ((Dotted.qualifier? scope).getD "") typeName).map fun (_, target) => target.id
  | none => (r.lookup? "" scope).map fun (_, target) => target.id

/-- A reference denotes a constant of its owner. -/
theorem constant?_eq_bind_owner? (r : Registry) (scope name : String) :
    r.constant? scope name = ((r.owner? scope name).bind r.decl?).bind
      (·.constant? (Dotted.lastSegment name)) := by
  rw [constant?, owner?]
  cases hqualifier : Dotted.qualifier? name with
  | some typeName =>
    dsimp only
    rw [declIn?, Option.bind_map]
    rfl
  | none =>
    dsimp only
    rw [declIn?, Option.bind_map, Dotted.lastSegment_of_qualifier?_eq_none hqualifier]
    rfl

/-- The owners of references are in the index. -/
theorem owner?_congr {r r' : Registry} (h : r'.index = r.index) : r'.owner? = r.owner? := by
  funext scope name
  rw [owner?, owner?, lookup?_congr h]

/-- No enum is expected where an array is, nor where another type is. -/
theorem expected_eq_none_iff {type : TypeName} {isArray : Bool} :
    (if isArray then none else type.target?).filter (·.kind == .enum) = none ↔
      isArray = true ∨ type.isEnum = false := by
  cases isArray with
  | true => simp
  | false => cases h : type.target? <;> simp [TypeName.isEnum, TypeName.isKind, h]

/-- Where an enum is expected nothing is looked up. -/
theorem not_looksUp_of_isEnum {r : Registry} {type : TypeName} (h : type.isEnum = true)
    (scope name scope' name' : String) : ¬ r.LooksUp scope type false name scope' name' := by
  intro hlooksUp
  cases hlooksUp with
  | self hother => simp [h] at hother
  | through hc =>
    rw [referent] at hc
    split at hc
    · next target _ =>
      -- an enumerator is a value, and no constant whose value is still to be found
      cases henumerator : r.enumerator target type name <;> simp [henumerator, Except.map] at hc
    · next hnone =>
      have hother := expected_eq_none_iff.mp hnone
      simp [h] at hother

end Registry

/-! ### Values that are checked -/

/-- The values that are written in a declaration and checked, each with its type. -/
def Decl.values (d : Decl) : List (TypeSpec × Expr) :=
  let constants := d.constants.map fun c => (c.type, c.value)
  match d.kind with
  | .parcelable => []
  | .structured | .union =>
    (d.fields.filterMap fun f => f.default?.map fun value => (f.type, value)) ++ constants
  | .enum =>
    d.backing?.toList.flatMap fun backing =>
      (d.enumerators?.getD []).map fun (_, value) => (backing, value)
  | .interface => constants

namespace Registry

/-- Evaluating the values that are written in a document looks up a constant of some name in some
scope. -/
def DocumentLooksUp (r : Registry) (number : Nat) (scope' name' : String) : Prop :=
  ∃ doc ∈ r.document? number, ∃ d ∈ doc.decls, ∃ v ∈ d.values,
    r.ValueLooksUp v.2 v.1.valueType d.canonicalName scope' name'

/-- The references in the values of a document for which a constant is looked up, each with the
scope that it is written in: those that stand where no enum is expected. -/
def references (r : Registry) (number : Nat) : List (String × String) :=
  (r.document? number).toList.flatMap fun doc => doc.decls.flatMap fun d =>
    d.values.flatMap fun v =>
      ((v.2.references v.1.isArray).filter fun ref => ref.1 || !v.1.base.isEnum).map fun ref =>
        (d.canonicalName, ref.2)

/-- When the constants that are referred to in a document refer to nothing themselves, these
references are all that is looked up. -/
theorem mem_references_of_documentLooksUp {r : Registry} {number : Nat} {scope' name' : String}
    (h : r.DocumentLooksUp number scope' name')
    (hclosed : ∀ x ∈ r.references number, ∀ c ∈ r.constant? x.1 x.2,
      c.value.references c.type.isArray = []) : (scope', name') ∈ r.references number := by
  obtain ⟨doc, hdoc, d, hd, v, hv, ref, href, hlooksUp⟩ := h
  have hexpected : (ref.1 || !v.1.base.isEnum) = true := by
    refine (Bool.not_eq_false _).mp fun hother => ?_
    obtain ⟨hisArray, henum⟩ : ref.1 = false ∧ v.1.base.isEnum = true := by simpa using hother
    rw [hisArray] at hlooksUp
    exact not_looksUp_of_isEnum henum _ _ _ _ hlooksUp
  have hmem : (d.canonicalName, ref.2) ∈ r.references number := by
    rw [references, List.mem_flatMap]
    refine ⟨doc, Option.mem_toList.mpr hdoc, List.mem_flatMap.mpr ⟨d, hd, ?_⟩⟩
    refine List.mem_flatMap.mpr ⟨v, hv, List.mem_map.mpr ⟨ref, ?_, rfl⟩⟩
    exact List.mem_filter.mpr ⟨href, hexpected⟩
  cases hlooksUp with
  | self => exact hmem
  | through hc hinner =>
    rw [hclosed _ hmem _ (constant?_of_referent hc)] at hinner
    cases hinner

end Registry

end InterfaceDefinition
