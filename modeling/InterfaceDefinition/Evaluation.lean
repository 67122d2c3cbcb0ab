import InterfaceDefinition.Registry
import InterfaceDefinition.Value.Rendering

/-!
# Evaluation

The value of an expression, with references looked up in a registry from inside a scope, the
canonical name of a declaration.

`Expr.evalWith` evaluates an expression when the meaning of its references is given;
`Registry.dereference` gives that meaning by evaluating what a reference denotes. The references
whose evaluation is under way are kept as keys, and one that comes up again is circular. Every key
pairs the name of an indexed declaration with a name that occurs in some expression, so no more
references can be open at once than there are such pairs (`Registry.isSome_evaluateWithin`); that
is the bound `Registry.evaluate` runs with.
-/

namespace InterfaceDefinition

/-! ### Constants that references denote -/

/-- What a reference denotes: an expression, its declared type (for an enumerator, the backing type)
and the canonical name of the declaration it stands in. -/
structure NamedConstant where
  value : Expr
  type : TypeSpec
  scope : String

namespace Decl

/-- The constant or enumerator of a name in a declaration. An enumerator whose backing type is not
known yet denotes nothing. -/
def constant? (d : Decl) (name : String) : Option NamedConstant :=
  match d.kind with
  | .enum => do
    let (_, value) ← d.enumerator? name
    let backing ← d.backing?
    return ⟨value, backing, d.canonicalName⟩
  | _ =>
    (d.constants.find? (·.name == name)).map fun c => ⟨c.value, c.type, d.canonicalName⟩

/-- The expressions that references into a declaration may denote. -/
def exprs (d : Decl) : List Expr :=
  d.constants.map (·.value) ++ (d.enumerators?.getD []).map (·.2)

end Decl

theorem Decl.mem_exprs_of_constant? {d : Decl} {name : String} {c : NamedConstant}
    (h : d.constant? name = some c) : c.value ∈ d.exprs ∧ c.scope = d.canonicalName := by
  rw [Decl.constant?] at h
  split at h
  · simp only [Option.bind_eq_bind, Option.bind_eq_some_iff, Option.pure_def] at h
    obtain ⟨⟨e, value⟩, he, backing, -, hc⟩ := h
    obtain rfl := Option.some.inj hc
    obtain ⟨all, hall, he⟩ := Option.bind_eq_some_iff.mp he
    refine ⟨List.mem_append_right _ ?_, rfl⟩
    rw [hall]
    exact List.mem_map_of_mem (List.mem_of_find?_eq_some he)
  · obtain ⟨constant, hc, rfl⟩ := Option.map_eq_some_iff.mp h
    exact ⟨List.mem_append_left _ (List.mem_map_of_mem (List.mem_of_find?_eq_some hc)), rfl⟩

namespace Registry

/-- What a reference written inside a scope denotes. A name without a dot is looked for in the scope
itself; a name with a dot in the type before the last dot, which is read in the scope's package. -/
def constant? (r : Registry) (scope name : String) : Option NamedConstant :=
  match Dotted.qualifier? name with
  | some typeName =>
    (r.declIn? ((Dotted.qualifier? scope).getD "") typeName).bind
      (·.constant? (Dotted.lastSegment name))
  | none => (r.declIn? "" scope).bind (·.constant? name)

/-- A constant is one of a declaration that the index holds, under the last segment of the name. -/
theorem exists_declIn?_of_constant? {r : Registry} {scope name : String} {c : NamedConstant}
    (h : r.constant? scope name = some c) : ∃ package typeName d,
      r.declIn? package typeName = some d ∧ d.constant? (Dotted.lastSegment name) = some c := by
  rw [constant?] at h
  split at h
  · obtain ⟨d, hd, hc⟩ := Option.bind_eq_some_iff.mp h
    exact ⟨_, _, d, hd, hc⟩
  · next hq =>
    obtain ⟨d, hd, hc⟩ := Option.bind_eq_some_iff.mp h
    exact ⟨_, _, d, hd, by rwa [Dotted.lastSegment_of_qualifier?_eq_none hq]⟩

/-- Whether a name is that of an enumerator of the enum at a place. -/
def isEnumerator (r : Registry) (id : DeclId) (name : String) : Bool :=
  (r.decl? id).any fun d => (d.enumerator? name).isSome

end Registry

/-! ### Expressions, given the meaning of references -/

/-- A computation of a value that is cut off, and then has no outcome, when it needs more open
references than it may have. -/
abbrev Bounded := ExceptT EvalError Option

/-- The computation without an outcome. -/
def Bounded.cutOff {α : Type} : Bounded α :=
  ExceptT.mk none

/-- A relation between bounded computations that evaluation passes on: it holds between a finished
computation and itself, circular references apart, and is kept by sequencing. -/
structure Bounded.Congruence (R : {α : Type} → Bounded α → Bounded α → Prop) : Prop where
  lift : ∀ {α : Type} (x : Except EvalError α), (∀ name, x ≠ .error (.circularReference name)) →
    R (liftM x : Bounded α) (liftM x)
  bind : ∀ {α β : Type} {x y : Bounded α} {f g : α → Bounded β},
    R x y → (∀ a, R (f a) (g a)) → R (x >>= f) (y >>= g)

namespace Expr

mutual

/-- The value of an expression, left to right and strict; `ref` gives the value of a reference and
is told whether an array is expected where it stands. -/
def evalWith (ref : Bool → String → Bounded Value) (isArray : Bool) : Expr → Bounded Value
  | literal _ kind written => liftM (kind.value written)
  | array _ items => do return .array (← evalAll ref items)
  | reference _ name => ref isArray name
  | unary _ op operand => do
    let v ← evalWith ref isArray operand
    liftM (v.unary op)
  | binary _ op lhs rhs => do
    let l ← evalWith ref isArray lhs
    let r ← evalWith ref isArray rhs
    liftM (l.binary op r)

/-- The values of the items of an array, none of which is expected to be an array. -/
def evalAll (ref : Bool → String → Bounded Value) : List Expr → Bounded (List Value)
  | [] => pure []
  | e :: rest => do
    let v ← evalWith ref false e
    let vs ← evalAll ref rest
    return v :: vs

end

theorem evalAll_eq_mapM (ref : Bool → String → Bounded Value) (es : List Expr) :
    evalAll ref es = es.mapM (evalWith ref false) := by
  induction es with
  | nil => rw [evalAll]; rfl
  | cons e es ih => rw [evalAll, ih, List.mapM_cons]

section Congruence

variable {R : {α : Type} → Bounded α → Bounded α → Prop} {f g : Bool → String → Bounded Value}

mutual

/-- Two evaluations of an expression are related as the values of its references are. -/
theorem evalWith_congr (hR : Bounded.Congruence R) (isArray : Bool) :
    (e : Expr) → (∀ isArray, ∀ name ∈ e.referenceNames, R (f isArray name) (g isArray name)) →
      R (e.evalWith f isArray) (e.evalWith g isArray)
  | literal _ kind written, _ => by
    rw [evalWith, evalWith]
    exact hR.lift _ (kind.value_ne_circular written)
  | array _ items, h => by
    rw [evalWith, evalWith]
    refine hR.bind (evalAll_congr hR items fun isArray e he name hname => ?_) fun vs => ?_
    · exact h isArray name (by simpa using ⟨e, he, hname⟩)
    · exact hR.lift (.ok (Value.array vs)) (by simp)
  | reference _ name, h => by
    rw [evalWith, evalWith]
    exact h isArray name (by simp)
  | unary _ op operand, h => by
    rw [evalWith, evalWith]
    refine hR.bind (evalWith_congr hR isArray operand fun isArray name hname => ?_) fun v => ?_
    · exact h isArray name (by simpa using hname)
    · exact hR.lift _ (v.unary_ne_circular op)
  | binary _ op lhs rhs, h => by
    rw [evalWith, evalWith]
    refine hR.bind (evalWith_congr hR isArray lhs fun isArray name hname => ?_) fun l =>
      hR.bind (evalWith_congr hR isArray rhs fun isArray name hname => ?_) fun r => ?_
    · exact h isArray name (by simp [hname])
    · exact h isArray name (by simp [hname])
    · exact hR.lift _ (l.binary_ne_circular op r)

theorem evalAll_congr (hR : Bounded.Congruence R) :
    (es : List Expr) → (∀ isArray, ∀ e ∈ es, ∀ name ∈ e.referenceNames,
      R (f isArray name) (g isArray name)) → R (evalAll f es) (evalAll g es)
  | [], _ => by
    rw [evalAll, evalAll]
    exact hR.lift (.ok []) (by simp)
  | e :: rest, h => by
    rw [evalAll, evalAll]
    refine hR.bind (evalWith_congr hR false e fun isArray name hname => ?_) fun v =>
      hR.bind (evalAll_congr hR rest fun isArray e' he' name hname => ?_) fun vs => ?_
    · exact h isArray e (by simp) name hname
    · exact h isArray e' (by simp [he']) name hname
    · exact hR.lift (.ok (v :: vs)) (by simp)

end

end Congruence

end Expr

/-! ### The meaning of references -/

/-- A reference under evaluation: the scope of the constant it denotes and its name as written. -/
abbrev OpenReference := String × String

namespace Registry

/-- The enumerator that a reference names where an enum is expected: by itself, or behind the simple
or canonical name of the enum. -/
def enumerator (r : Registry) (target : DeclRef) (type : TypeName) (name : String) :
    Except EvalError Value :=
  let qualifierFits :=
    match Dotted.qualifier? name with
    | none => true
    | some q => q == type.simpleName || q == type.text
  if qualifierFits && r.isEnumerator target.id (Dotted.lastSegment name) then
    .ok (.enumerator name)
  else .error (.notAnEnumerator name type.text)

/-- What a reference stands for where a type is expected: an enumerator where an enum is expected,
elsewhere the constant that it denotes, whose value is still to be found. -/
def referent (r : Registry) (scope : String) (type : TypeName) (isArray : Bool) (name : String) :
    Except EvalError (Value ⊕ NamedConstant) :=
  match (if isArray then none else type.target?).filter (·.kind == .enum) with
  | some target => (r.enumerator target type name).map .inl
  | none =>
    match r.constant? scope name with
    | some c => .ok (.inr c)
    | none => .error (.unknownReference name)

/-- The value of a reference where a type is expected. The constant that it denotes is evaluated in
its own scope and as its own type, unless that is under way already. `room` is the number of
references that may still be opened. -/
def dereference (r : Registry) :
    Nat → List OpenReference → String → TypeName → Bool → String → Bounded Value
  | room, opened, scope, type, isArray, name => do
    match ← (liftM (r.referent scope type isArray name) : Bounded _) with
    | .inl v => return v
    | .inr c =>
      if opened.contains (c.scope, name) then throw (.circularReference name)
      else
        match room with
        | 0 => Bounded.cutOff
        | room + 1 =>
          c.value.evalWith (r.dereference room ((c.scope, name) :: opened) c.scope c.type.base)
            c.type.isArray

section Dereference

variable {r : Registry} {scope : String} {type : TypeName} {isArray : Bool} {name : String}

theorem constant?_of_referent {c : NamedConstant}
    (h : r.referent scope type isArray name = .ok (.inr c)) : r.constant? scope name = some c := by
  rw [referent] at h
  split at h
  · next target _ => cases hv : r.enumerator target type name <;> simp [hv, Except.map] at h
  · split at h
    · next hc => rw [hc]; simpa using h
    · simp at h

theorem dereference_of_error {room : Nat} {opened : List OpenReference} {error : EvalError}
    (h : r.referent scope type isArray name = .error error) :
    r.dereference room opened scope type isArray name = throw error := by
  rw [dereference, h]
  rfl

theorem dereference_of_value {room : Nat} {opened : List OpenReference} {v : Value}
    (h : r.referent scope type isArray name = .ok (.inl v)) :
    r.dereference room opened scope type isArray name = pure v := by
  rw [dereference, h]
  rfl

theorem dereference_of_open {room : Nat} {opened : List OpenReference} {c : NamedConstant}
    (h : r.referent scope type isArray name = .ok (.inr c)) (hopen : (c.scope, name) ∈ opened) :
    r.dereference room opened scope type isArray name = throw (.circularReference name) := by
  rw [dereference, h]
  exact if_pos (List.contains_iff_mem.mpr hopen)

theorem dereference_zero {opened : List OpenReference} {c : NamedConstant}
    (h : r.referent scope type isArray name = .ok (.inr c)) (hopen : (c.scope, name) ∉ opened) :
    r.dereference 0 opened scope type isArray name = Bounded.cutOff := by
  rw [dereference, h]
  exact if_neg (mt List.contains_iff_mem.mp hopen)

theorem dereference_succ {room : Nat} {opened : List OpenReference} {c : NamedConstant}
    (h : r.referent scope type isArray name = .ok (.inr c)) (hopen : (c.scope, name) ∉ opened) :
    r.dereference (room + 1) opened scope type isArray name =
      c.value.evalWith (r.dereference room ((c.scope, name) :: opened) c.scope c.type.base)
        c.type.isArray := by
  rw [dereference, h]
  exact if_neg (mt List.contains_iff_mem.mp hopen)

end Dereference

/-! ### The bound on open references -/

/-- The expressions that references may denote. -/
def exprs (r : Registry) : List Expr :=
  r.documents.flatMap fun doc => doc.decls.flatMap Decl.exprs

/-- The names of the references that can come up while an expression is evaluated. -/
def openNames (r : Registry) (e : Expr) : List String :=
  (e :: r.exprs).flatMap Expr.referenceNames

/-- The keys under which those references can be open. -/
def openKeys (r : Registry) (e : Expr) : List OpenReference :=
  r.indexedDecls.flatMap fun d => (r.openNames e).map fun name => (d.canonicalName, name)

/-- The number of references that can be open at once while an expression is evaluated. -/
def openBound (r : Registry) (e : Expr) : Nat :=
  r.index.length * (r.openNames e).length

section Bound

variable {r : Registry}

theorem length_openKeys_le (r : Registry) (e : Expr) : (r.openKeys e).length ≤ r.openBound e := by
  have hkeys : (r.openKeys e).length = r.indexedDecls.length * (r.openNames e).length := by
    simp only [openKeys, List.length_flatMap, List.length_map, List.map_const',
      List.sum_replicate_nat]
  rw [hkeys, openBound]
  exact Nat.mul_le_mul_right _ (List.length_filterMap_le ..)

theorem mem_exprs_of_constant? {scope name : String} {c : NamedConstant}
    (h : r.constant? scope name = some c) : c.value ∈ r.exprs := by
  obtain ⟨_, _, d, hd, hc⟩ := exists_declIn?_of_constant? h
  obtain ⟨_, -, hd⟩ := Option.bind_eq_some_iff.mp hd
  obtain ⟨doc, hdoc, hd⟩ := exists_mem_of_decl? hd
  exact List.mem_flatMap.mpr
    ⟨doc, hdoc, List.mem_flatMap.mpr ⟨d, hd, (Decl.mem_exprs_of_constant? hc).1⟩⟩

theorem mem_openKeys_of_constant? {scope name : String} {c : NamedConstant} {e : Expr}
    (h : r.constant? scope name = some c) (hname : name ∈ r.openNames e) :
    (c.scope, name) ∈ r.openKeys e := by
  obtain ⟨_, _, d, hd, hc⟩ := exists_declIn?_of_constant? h
  have hkey : (d.canonicalName, name) = (c.scope, name) := by
    rw [(Decl.mem_exprs_of_constant? hc).2]
  exact List.mem_flatMap.mpr
    ⟨d, mem_indexedDecls_of_declIn? hd, List.mem_map.mpr ⟨name, hname, hkey⟩⟩

theorem congruence_isSome : Bounded.Congruence fun x _ => x.run.isSome := by
  constructor
  · exact fun _ _ => rfl
  · intro α β x _ f _ hx hf
    rcases x with _ | (error | a)
    · simp [ExceptT.run] at hx
    · rfl
    · exact hf a

/-- An expression has an outcome when its references have. -/
theorem isSome_evalWith {f : Bool → String → Bounded Value} {isArray : Bool} {e : Expr}
    (h : ∀ isArray, ∀ name ∈ e.referenceNames, (f isArray name).run.isSome) :
    (e.evalWith f isArray).run.isSome :=
  Expr.evalWith_congr (R := fun x _ => x.run.isSome) (g := f) congruence_isSome isArray e h

/-- A reference has an outcome when there is room for every key that is not open yet. -/
theorem isSome_dereference (e : Expr) (room : Nat) {opened : List OpenReference}
    (hnodup : opened.Nodup) (hsub : opened ⊆ r.openKeys e)
    (hroom : (r.openKeys e).length ≤ opened.length + room) (scope : String) (type : TypeName)
    (isArray : Bool) {name : String} (hname : name ∈ r.openNames e) :
    (r.dereference room opened scope type isArray name).run.isSome := by
  induction room generalizing opened scope type isArray name with
  | zero =>
    rcases h : r.referent scope type isArray name with error | (v | c)
    · rw [dereference_of_error h]
      rfl
    · rw [dereference_of_value h]
      rfl
    · have hkey := mem_openKeys_of_constant? (constant?_of_referent h) hname
      by_cases hopen : (c.scope, name) ∈ opened
      · rw [dereference_of_open h hopen]
        rfl
      · -- the key would be one more than there are
        have hle := (List.nodup_cons.mpr ⟨hopen, hnodup⟩).length_le_of_subset
          (List.cons_subset.mpr ⟨hkey, hsub⟩)
        rw [List.length_cons] at hle
        omega
  | succ room ih =>
    rcases h : r.referent scope type isArray name with error | (v | c)
    · rw [dereference_of_error h]
      rfl
    · rw [dereference_of_value h]
      rfl
    · have hc := constant?_of_referent h
      have hkey := mem_openKeys_of_constant? hc hname
      by_cases hopen : (c.scope, name) ∈ opened
      · rw [dereference_of_open h hopen]
        rfl
      · rw [dereference_succ h hopen]
        refine isSome_evalWith fun isArray name hname => ?_
        have hnames : name ∈ r.openNames e :=
          List.mem_flatMap.mpr
            ⟨c.value, List.mem_cons_of_mem _ (mem_exprs_of_constant? hc), hname⟩
        -- one more key is open, and one less is left to be opened
        refine ih (List.nodup_cons.mpr ⟨hopen, hnodup⟩) (List.cons_subset.mpr ⟨hkey, hsub⟩) ?_ _ _ _
          hnames
        rw [List.length_cons]
        omega

end Bound

/-! ### Values -/

/-- The value of an expression where a type is expected, its references read inside a scope, with
room for some open references. -/
def evaluateWithin (r : Registry) (room : Nat) (e : Expr) (type : ValueType) (scope : String) :
    Bounded Value :=
  e.evalWith (r.dereference room [] scope type.base) type.isArray

/-- With room for as many open references as there can be, every expression has an outcome. -/
theorem isSome_evaluateWithin (r : Registry) (e : Expr) (type : ValueType) (scope : String) :
    (r.evaluateWithin (r.openBound e) e type scope).run.isSome := by
  refine isSome_evalWith fun isArray name hname => ?_
  refine isSome_dereference e (r.openBound e) List.nodup_nil (List.nil_subset _) ?_ scope type.base
    isArray (List.mem_flatMap.mpr ⟨e, List.mem_cons_self, hname⟩)
  simpa using r.length_openKeys_le e

/-- The value of an expression where a type is expected, its references read inside a scope. -/
def evaluate (r : Registry) (e : Expr) (type : ValueType) (scope : String) :
    Except EvalError Value :=
  (r.evaluateWithin (r.openBound e) e type scope).run.get (r.isSome_evaluateWithin e type scope)

/-- The text of the value of an expression as a value of the expected type. -/
def valueText (r : Registry) (e : Expr) (type : ValueType) (scope : String) :
    Except EvalError String := do
  (← r.evaluate e type scope).render type

/-- The text of the value, empty when there is none. -/
def valueTextOrEmpty (r : Registry) (e : Expr) (type : ValueType) (scope : String) : String :=
  match r.valueText e type scope with
  | .ok text => text
  | .error _ => ""

end Registry

end InterfaceDefinition
