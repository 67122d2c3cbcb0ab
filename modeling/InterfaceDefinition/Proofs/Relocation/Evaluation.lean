import InterfaceDefinition.Proofs.Evaluation.LookUps
import InterfaceDefinition.Proofs.Evaluation.Unfolding
import InterfaceDefinition.Proofs.Relocation.Declarations
import InterfaceDefinition.Resolution

/-!
# Looking up and evaluating at other places

One registry is another one at other places when a name is looked up at the other place
(`Registry.SameNames`). The shells of declarations may be the same then (`Registry.SameShells`), or
whole declarations, with the declarations that they name (`Registry.SameDecls`).

Evaluation reads of a constant its value, its scope, and of its type how that is spelled and what it
stands for (`NamedConstant.ReadsAs`); of an enum it reads the names of the enumerators, which are
part of the shell. So an expression has the same value in two registries with the same shells when
the constants that it makes evaluation look up are read the same
(`Registry.SameShells.evaluate_eq`).
Where the declarations are the same, all constants are (`Registry.SameDecls.constant?_rel`).

Names are all that reading a type needs; declarations are looked at only when resolution and
completion are done.
-/

namespace InterfaceDefinition

variable {ρ : DeclId → DeclId}

/-! ### What evaluation reads -/

/-- Two names are read the same, but for places. -/
structure TypeName.ReadsAs (ρ : DeclId → DeclId) (n n' : TypeName) : Prop where
  text_eq : n'.text = n.text
  target?_eq : n'.target? = n.target?.map (·.relocate ρ)

/-- Two constants are read the same, but for places. -/
structure NamedConstant.ReadsAs (ρ : DeclId → DeclId) (c c' : NamedConstant) : Prop where
  value_eq : c'.value = c.value
  scope_eq : c'.scope = c.scope
  isArray_eq : c'.type.isArray = c.type.isArray
  base : c.type.base.ReadsAs ρ c'.type.base

/-- A moved name is read in the moved registry as the name was in the other. -/
theorem TypeName.readsAs_relocate (ρ : DeclId → DeclId) (n : TypeName) :
    n.ReadsAs ρ (n.relocate ρ) :=
  ⟨n.text_relocate ρ, n.target?_relocate ρ⟩

theorem NamedConstant.ReadsAs.refl (c : NamedConstant) : c.ReadsAs id c :=
  ⟨rfl, rfl, rfl, ⟨rfl, Option.map_id'.symm⟩⟩

theorem NamedConstant.readsAs_relocate (ρ : DeclId → DeclId) (c : NamedConstant) :
    c.ReadsAs ρ (c.relocate ρ) :=
  ⟨rfl, rfl, c.type.isArray_relocate ρ, c.type.base_relocate ρ ▸ c.type.base.readsAs_relocate ρ⟩

namespace TypeName.ReadsAs

variable {n n' : TypeName}

theorem simpleName_eq (h : n.ReadsAs ρ n') : n'.simpleName = n.simpleName := by
  rw [simpleName, simpleName, h.text_eq]

/-- Rendering looks at what a name is called and at the kind of its target, and neither moves. -/
theorem renderAs_eq (h : n.ReadsAs ρ n') (v : Value) :
    Value.renderAs n' v = Value.renderAs n v := by
  simp only [Value.renderAs, h.target?_eq, h.text_eq]
  cases n.target? <;> rfl

/-- The text of a value does not depend on places. -/
theorem render_eq (h : n.ReadsAs ρ n') (isArray : Bool) (v : Value) :
    v.render ⟨n', isArray⟩ = v.render ⟨n, isArray⟩ := by
  have hitem : Value.renderAs n' = Value.renderAs n := funext h.renderAs_eq
  simp only [Value.render, ValueType.text, h.text_eq, hitem]

end TypeName.ReadsAs

/-! ### Registries -/

namespace Registry

/-- The index of the second registry is that of the first with every declaration at its other
place, up to the order of names. -/
structure SameNames (ρ : DeclId → DeclId) (r r' : Registry) : Prop where
  indexed?_eq : ∀ name, r'.indexed? name = (r.indexed? name).map (·.relocate ρ)

/-- The second registry is the first with the shell of every declaration at its other place. -/
structure SameShells (ρ : DeclId → DeclId) (r r' : Registry) : Prop extends SameNames ρ r r' where
  shell?_eq : ∀ id, (r'.decl? (ρ id)).map Decl.shell = (r.decl? id).map Decl.shell

/-- The second registry is the first with every declaration at its other place. -/
structure SameDecls (ρ : DeclId → DeclId) (r r' : Registry) : Prop extends SameNames ρ r r' where
  decl?_eq : ∀ id, r'.decl? (ρ id) = (r.decl? id).map (·.relocate ρ)

variable {r r' : Registry}

/-! ### Names -/

namespace SameNames

/-- What is found below a package or by its full name has moved, under the same canonical name. -/
theorem lookup?_eq (h : SameNames ρ r r') (package name : String) :
    r'.lookup? package name = (r.lookup? package name).map fun (canonicalName, target) =>
      (canonicalName, target.relocate ρ) := by
  simp only [lookup?, h.indexed?_eq]
  split
  · cases r.indexed? name <;> rfl
  · cases r.indexed? (package ++ "." ++ name) <;> cases r.indexed? name <;> rfl

theorem resolveIn_eq (h : SameNames ρ r r') (package name : String) :
    r'.resolveIn package name = (r.resolveIn package name).map (·.relocate ρ) := by
  rw [resolveIn, resolveIn, h.lookup?_eq]
  split
  · rfl
  · rw [Option.map_map, Option.map_map]
    rfl

/-- A name that is read has the same meaning, and reading it reports the same. -/
theorem resolver_eq (h : SameNames ρ r r') (imports : List Import) (package : String)
    (typeParams : List String) (name : String) :
    r'.resolver imports package typeParams name =
      Option.map (·.relocate ρ) <$> r.resolver imports package typeParams name := by
  rw [resolver, resolver]
  split
  · rfl
  · rw [map_bind]
    congr 1
    funext full
    cases full with
    | none => rfl
    | some full =>
      dsimp only
      rw [h.resolveIn_eq]
      rfl

end SameNames

/-! ### Shells -/

namespace SameShells

variable (h : SameShells ρ r r')
include h

/-- At its other place there is a declaration of the same shell, or none. -/
theorem decl?_cases (id : DeclId) :
    (r.decl? id = none ∧ r'.decl? (ρ id) = none) ∨
      ∃ d d', r.decl? id = some d ∧ r'.decl? (ρ id) = some d' ∧ d'.shell = d.shell := by
  have hshell := h.shell?_eq id
  cases hd : r.decl? id with
  | none =>
    rw [hd] at hshell
    exact .inl ⟨rfl, Option.map_eq_none_iff.mp hshell⟩
  | some d =>
    rw [hd] at hshell
    obtain ⟨d', hd', hshell⟩ := Option.map_eq_some_iff.mp hshell
    exact .inr ⟨d, d', rfl, hd', hshell⟩

/-- The declaration that a name stands for has the same shell at its other place. -/
theorem target?_decl?_cases {n n' : TypeName} (hn : n.ReadsAs ρ n') :
    ((n.target?.bind fun target => r.decl? target.id) = none ∧
        (n'.target?.bind fun target => r'.decl? target.id) = none) ∨
      ∃ d d', (n.target?.bind fun target => r.decl? target.id) = some d ∧
        (n'.target?.bind fun target => r'.decl? target.id) = some d' ∧ d'.shell = d.shell := by
  rw [hn.target?_eq]
  cases n.target? with
  | none => exact .inl ⟨rfl, rfl⟩
  | some target => exact h.decl?_cases target.id

/-- The enumerators of a declaration do not depend on its place. -/
theorem isEnumerator_eq (id : DeclId) (name : String) :
    r'.isEnumerator (ρ id) name = r.isEnumerator id name := by
  rw [isEnumerator, isEnumerator]
  rcases h.decl?_cases id with ⟨hd, hd'⟩ | ⟨d, d', hd, hd', hshell⟩
  · rw [hd, hd']
  · rw [hd, hd', Option.any_some, Option.any_some, Decl.enumerator?_of_shell hshell]

variable {type type' : TypeName} (htype : type.ReadsAs ρ type') {scope : String} {isArray : Bool}
  {name : String}
include htype

theorem enumerator_eq (target : DeclRef) (name : String) :
    r'.enumerator (target.relocate ρ) type' name = r.enumerator target type name := by
  simp only [enumerator, htype.simpleName_eq, htype.text_eq, DeclRef.id_relocate, h.isEnumerator_eq]

/-- A reference has the same outcome of its own, or denotes constants that are read the same. -/
theorem referent_cases
    (hconstant : isArray = true ∨ type.isEnum = false →
      Option.Rel (NamedConstant.ReadsAs ρ) (r.constant? scope name) (r'.constant? scope name)) :
    (∃ outcome : Except EvalError Value, r.referent scope type isArray name = outcome.map .inl ∧
        r'.referent scope type' isArray name = outcome.map .inl) ∨
      ∃ c c', c.ReadsAs ρ c' ∧ r.referent scope type isArray name = .ok (.inr c) ∧
        r'.referent scope type' isArray name = .ok (.inr c') := by
  have hexpected : (if isArray then none else type'.target?).filter (·.kind == .enum) =
      ((if isArray then none else type.target?).filter (·.kind == .enum)).map (·.relocate ρ) := by
    rw [htype.target?_eq]
    split
    · rfl
    · exact Option.filter_map ..
  rw [referent, referent, hexpected]
  cases hold : (if isArray then none else type.target?).filter (·.kind == .enum) with
  | some target =>
    refine .inl ⟨r.enumerator target type name, rfl, ?_⟩
    exact congrArg (Except.map Sum.inl) (h.enumerator_eq htype target name)
  | none =>
    have hrel := hconstant (expected_eq_none_iff.mp hold)
    rw [Option.map_none]
    generalize r.constant? scope name = c, r'.constant? scope name = c' at hrel ⊢
    cases hrel with
    | none => exact .inl ⟨.error (.unknownReference name), rfl, rfl⟩
    | some hc => exact .inr ⟨_, _, hc, rfl, rfl⟩

omit htype in
/-- A reference has the same value when everything that is looked up for it is read the same: by
induction on the room, as each constant that is entered takes some of it. -/
theorem dereference_eq (room : Nat) (opened : List OpenReference) (scope : String)
    {type type' : TypeName} (htype : type.ReadsAs ρ type') (isArray : Bool) (name : String)
    (hlookUp : ∀ scope' name', r.LooksUp scope type isArray name scope' name' →
      Option.Rel (NamedConstant.ReadsAs ρ) (r.constant? scope' name') (r'.constant? scope' name')) :
    r'.dereference room opened scope type' isArray name =
      r.dereference room opened scope type isArray name := by
  induction room generalizing opened scope type type' isArray name with
  | zero =>
    rcases h.referent_cases htype fun hself => hlookUp _ _ (.self hself) with
      ⟨_ | _, hr, hr'⟩ | ⟨c, c', hc, hr, hr'⟩
    · rw [dereference_of_error hr, dereference_of_error hr']
    · rw [dereference_of_value hr, dereference_of_value hr']
    · by_cases hopen : (c.scope, name) ∈ opened
      · rw [dereference_of_open hr hopen, dereference_of_open hr' (hc.scope_eq ▸ hopen)]
      · rw [dereference_zero hr hopen, dereference_zero hr' (hc.scope_eq ▸ hopen)]
  | succ room ih =>
    rcases h.referent_cases htype fun hself => hlookUp _ _ (.self hself) with
      ⟨_ | _, hr, hr'⟩ | ⟨c, c', hc, hr, hr'⟩
    · rw [dereference_of_error hr, dereference_of_error hr']
    · rw [dereference_of_value hr, dereference_of_value hr']
    · by_cases hopen : (c.scope, name) ∈ opened
      · rw [dereference_of_open hr hopen, dereference_of_open hr' (hc.scope_eq ▸ hopen)]
      · rw [dereference_succ hr hopen, dereference_succ hr' (hc.scope_eq ▸ hopen), hc.scope_eq,
          hc.value_eq, hc.isArray_eq]
        -- the constant is evaluated in its own scope and as its own type
        refine Expr.evalWith_eq_of_references c.type.isArray c.value fun ref href => ?_
        exact ih _ c.scope hc.base ref.1 ref.2 fun scope' name' hnext =>
          hlookUp scope' name' (.through hr href hnext)

variable {e : Expr}
  (hlookUp : ∀ scope' name', r.ValueLooksUp e ⟨type, isArray⟩ scope scope' name' →
    Option.Rel (NamedConstant.ReadsAs ρ) (r.constant? scope' name') (r'.constant? scope' name'))
include hlookUp

/-- An expression has the same value when everything that is looked up for it is read the same. -/
theorem evaluate_eq :
    r'.evaluate e ⟨type', isArray⟩ scope = r.evaluate e ⟨type, isArray⟩ scope := by
  -- both bounds on open references are enough, and so is the larger
  have hle := r.run_evaluateWithin_of_le e ⟨type, isArray⟩ scope
    (Nat.le_max_left (r.openBound e) (r'.openBound e))
  have hle' := r'.run_evaluateWithin_of_le e ⟨type', isArray⟩ scope
    (Nat.le_max_right (r.openBound e) (r'.openBound e))
  have hwithin : ∀ room, r'.evaluateWithin room e ⟨type', isArray⟩ scope =
      r.evaluateWithin room e ⟨type, isArray⟩ scope := fun room =>
    Expr.evalWith_eq_of_references isArray e fun ref href =>
      h.dereference_eq room [] scope htype ref.1 ref.2 fun scope' name' hnext =>
        hlookUp scope' name' ⟨ref, href, hnext⟩
  rw [hwithin, hle] at hle'
  exact (Option.some.inj hle').symm

/-- An expression has the same text in both registries, since the value and its rendering are the
same. -/
theorem valueText_eq :
    r'.valueText e ⟨type', isArray⟩ scope = r.valueText e ⟨type, isArray⟩ scope := by
  rw [valueText, valueText, h.evaluate_eq htype hlookUp]
  congr 1
  funext v
  exact htype.render_eq isArray v

end SameShells

/-! ### Declarations -/

namespace SameDecls

variable (h : SameDecls ρ r r')
include h

/-- Declarations that are the same up to places are the same in their shells. -/
theorem sameShells : SameShells ρ r r' :=
  ⟨h.toSameNames, fun id => by
    rw [h.decl?_eq, Option.map_map]
    exact congrArg (Option.map · _) (funext fun d => d.shell_relocate ρ)⟩

theorem declIn?_eq (package name : String) :
    r'.declIn? package name = (r.declIn? package name).map (·.relocate ρ) := by
  rw [declIn?, declIn?, h.lookup?_eq]
  cases r.lookup? package name with
  | none => rfl
  | some found => exact h.decl?_eq found.2.id

theorem constant?_eq (scope name : String) :
    r'.constant? scope name = (r.constant? scope name).map (·.relocate ρ) := by
  have hdecl : ∀ package typeName simpleName : String,
      (r'.declIn? package typeName).bind (·.constant? simpleName) =
        ((r.declIn? package typeName).bind (·.constant? simpleName)).map (·.relocate ρ) := by
    intro package typeName simpleName
    rw [h.declIn?_eq]
    cases r.declIn? package typeName with
    | none => rfl
    | some d => exact d.constant?_relocate ρ simpleName
  rw [constant?, constant?]
  split
  · exact hdecl ..
  · exact hdecl ..

/-- Every constant is read the same. -/
theorem constant?_rel (scope name : String) :
    Option.Rel (NamedConstant.ReadsAs ρ) (r.constant? scope name) (r'.constant? scope name) := by
  rw [h.constant?_eq]
  cases r.constant? scope name with
  | none => exact .none
  | some c => exact .some (c.readsAs_relocate ρ)

end SameDecls

end Registry

end InterfaceDefinition
