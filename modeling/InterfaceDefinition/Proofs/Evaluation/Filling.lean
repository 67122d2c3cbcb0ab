import InterfaceDefinition.Proofs.Evaluation.Circular
import InterfaceDefinition.Proofs.Evaluation.LookUps
import InterfaceDefinition.Proofs.Registry.Readings
import InterfaceDefinition.Proofs.Registry.Scopes
import Mathlib.Data.List.Nodup

/-!
# Enumerators without values

An enumerator that is written without a value gets one as an expression: zero, or one more than the
name of the enumerator before it. So what it evaluates to goes through a look-up of that name and
the evaluation of what is found, which may refer forward, backward or in a circle.

The value of an expression is made of the values of its parts (`Registry.evaluate_binary`), and the
value of a reference is that of the constant it denotes, except that two circular references may be
spelled differently (`Registry.Indexed.evaluate_reference`). Where the backing type is no enum, a
name without a dot denotes the first enumerator of that name (`Registry.constant?_enumerator`). So
an enumerator without a value has one more than the first enumerator that is called like the one
before it (`Registry.Indexed.enumeratorValue_next`). When all names differ, that is the one before
it, and the enumerators count on (`Registry.Reachable.evaluate_filled`).
-/

namespace InterfaceDefinition

open Bounded

/-! ### Results -/

/-- Two results are the same, except that the names of circular references may differ. -/
def EqUpToSpelling {α : Type} (result result' : Except EvalError α) : Prop :=
  result = result' ∨ IsCircular result ∧ IsCircular result'

namespace EqUpToSpelling

variable {α β : Type} {result result' : Except EvalError α}

/-- It does not matter which of two results is looked at first. -/
theorem symm (h : EqUpToSpelling result result') : EqUpToSpelling result' result :=
  h.imp Eq.symm And.symm

/-- Sequencing keeps results the same. -/
theorem bind (h : EqUpToSpelling result result') (f : α → Except EvalError β) :
    EqUpToSpelling (result >>= f) (result' >>= f) := by
  rcases h with rfl | ⟨⟨name, rfl⟩, ⟨name', rfl⟩⟩
  · exact .inl rfl
  · exact .inr ⟨⟨name, rfl⟩, ⟨name', rfl⟩⟩

/-- A value is no circular reference, so that a result that is a value up to spelling is this value.
-/
theorem eq_ok {a : α} (h : EqUpToSpelling result (.ok a)) : result = .ok a :=
  h.resolve_right fun hcircular => not_isCircular_ok a hcircular.2

/-- The same holds of any error but that about circular references. -/
theorem eq_error {error : EvalError} (h : EqUpToSpelling result (.error error))
    (hne : ∀ name, error ≠ .circularReference name) : result = .error error := by
  refine h.resolve_right ?_
  rintro ⟨-, name, hname⟩
  exact hne name (Except.error.inj hname)

/-- A result is an error if it is the same as one. -/
theorem exists_error {error : EvalError} (h : EqUpToSpelling result (.error error)) :
    ∃ error', result = .error error' := by
  rcases h with rfl | ⟨⟨name, rfl⟩, -⟩
  · exact ⟨error, rfl⟩
  · exact ⟨_, rfl⟩

end EqUpToSpelling

/-! ### Values of parts -/

namespace Registry

variable {r : Registry}

@[simp] theorem evaluate_literal (r : Registry) (loc : Location) (kind : LiteralKind)
    (written : String) (type : ValueType) (scope : String) :
    r.evaluate (.literal loc kind written) type scope = kind.value written := by
  have hrun := r.run_evaluateWithin_of_le (.literal loc kind written) type scope (Nat.le_refl _)
  rw [evaluateWithin, Expr.evalWith, run_lift] at hrun
  exact (Option.some.inj hrun).symm

/-- Evaluation of an operator with one operand evaluates that first. -/
theorem evaluate_unary (r : Registry) (loc : Location) (op : UnaryOp) (operand : Expr)
    (type : ValueType) (scope : String) :
    r.evaluate (.unary loc op operand) type scope = (do
      let v ← r.evaluate operand type scope
      v.unary op) := by
  -- there is a room that is enough for the whole and for the operand
  let room := r.openBound (.unary loc op operand) + r.openBound operand
  have hwhole := r.run_evaluateWithin_of_le (.unary loc op operand) type scope
    (show _ ≤ room by omega)
  have hoperand := r.run_evaluateWithin_of_le operand type scope (show _ ≤ room by omega)
  rw [evaluateWithin] at hwhole hoperand
  rw [Expr.evalWith] at hwhole
  cases hvalue : r.evaluate operand type scope with
  | error error =>
    rw [run_bind_of_error (hoperand.trans (congrArg some hvalue))] at hwhole
    exact (Option.some.inj hwhole).symm
  | ok v =>
    rw [run_bind_of_ok (hoperand.trans (congrArg some hvalue)), run_lift] at hwhole
    exact (Option.some.inj hwhole).symm

/-- Evaluation of an operator evaluates its operands, the left one first. -/
theorem evaluate_binary (r : Registry) (loc : Location) (op : BinaryOp) (lhs rhs : Expr)
    (type : ValueType) (scope : String) :
    r.evaluate (.binary loc op lhs rhs) type scope = (do
      let left ← r.evaluate lhs type scope
      let right ← r.evaluate rhs type scope
      left.binary op right) := by
  -- there is a room that is enough for the whole and for both operands
  let room := r.openBound (.binary loc op lhs rhs) + r.openBound lhs + r.openBound rhs
  have hwhole := r.run_evaluateWithin_of_le (.binary loc op lhs rhs) type scope
    (show _ ≤ room by omega)
  have hlhs := r.run_evaluateWithin_of_le lhs type scope (show _ ≤ room by omega)
  have hrhs := r.run_evaluateWithin_of_le rhs type scope (show _ ≤ room by omega)
  rw [evaluateWithin] at hwhole hlhs hrhs
  rw [Expr.evalWith] at hwhole
  cases hleft : r.evaluate lhs type scope with
  | error error =>
    rw [run_bind_of_error (hlhs.trans (congrArg some hleft))] at hwhole
    exact (Option.some.inj hwhole).symm
  | ok left =>
    rw [run_bind_of_ok (hlhs.trans (congrArg some hleft))] at hwhole
    cases hright : r.evaluate rhs type scope with
    | error error =>
      rw [run_bind_of_error (hrhs.trans (congrArg some hright))] at hwhole
      exact (Option.some.inj hwhole).symm
    | ok right =>
      rw [run_bind_of_ok (hrhs.trans (congrArg some hright)), run_lift] at hwhole
      exact (Option.some.inj hwhole).symm

/-- The value of a reference is the value of the constant that it denotes. -/
theorem Indexed.evaluate_reference (hr : r.Indexed) {type : ValueType} {scope name : String}
    {c : NamedConstant} (hc : r.referent scope type.base type.isArray name = .ok (.inr c))
    (loc : Location) :
    EqUpToSpelling (r.evaluate (.reference loc name) type scope)
      (r.evaluate c.value c.type.valueType c.scope) := by
  have hunfolded : ∀ depth, r.unfolded (depth + 1) (.reference loc name) type scope =
      r.unfolded depth c.value c.type.valueType c.scope := by
    intro depth
    rw [unfolded, Expr.evalWith, unfold_succ hc]
  by_cases hcircular : IsCircular (r.evaluate c.value c.type.valueType c.scope)
  · refine .inr ⟨?_, hcircular⟩
    -- unfolding of the reference would end one deeper than unfolding of the constant
    by_contra hne
    obtain ⟨depth, hdepth⟩ := exists_run_unfolded hne
    cases depth with
    | zero =>
      rw [unfolded, Expr.evalWith, unfold_zero hc] at hdepth
      exact nomatch hdepth
    | succ depth =>
      rw [hunfolded] at hdepth
      exact (hr.evaluate_of_run_unfolded hdepth).2 hcircular
  · obtain ⟨depth, hdepth⟩ := exists_run_unfolded hcircular
    rw [← hunfolded] at hdepth
    exact .inl (hr.evaluate_of_run_unfolded hdepth).1

end Registry

/-! ### Enumerators in order -/

/-- The first enumerator behind a given name has the value that it was given, or that which counts
on from that name. -/
theorem Enumerator.value_of_first {previous : Option String} {es : List Enumerator}
    {x : Enumerator × Expr} (h : (valuesAfter previous es)[0]? = some x) :
    x.2 = x.1.value previous := by
  cases es with
  | nil => cases h
  | cons e rest =>
    obtain rfl := Option.some.inj h
    rfl

/-- The value of an enumerator depends on the name of the one before it. -/
theorem Enumerator.value_of_next {previous : Option String} {es : List Enumerator} {i : Nat}
    {x y : Enumerator × Expr} (hx : (valuesAfter previous es)[i]? = some x)
    (hy : (valuesAfter previous es)[i + 1]? = some y) : y.2 = y.1.value (some x.1.name) := by
  induction es generalizing previous i with
  | nil => cases hx
  | cons e rest ih =>
    rw [valuesAfter, List.getElem?_cons_succ] at hy
    cases i with
    | zero =>
      obtain rfl := Option.some.inj hx
      exact value_of_first hy
    | succ i => exact ih hx hy

namespace Decl

variable {d : Decl} {enumerators : List (Enumerator × Expr)}

theorem kind_of_enumerators? (h : d.enumerators? = some enumerators) : d.kind = .enum := by
  unfold enumerators? at h
  unfold kind
  split at h
  · next heq => rw [heq]
  · cases h

/-- In front of the first enumerator of an enum there is nothing to count on from. -/
theorem value_of_first (h : d.enumerators? = some enumerators) {x : Enumerator × Expr}
    (hx : enumerators[0]? = some x) : x.2 = x.1.value none := by
  unfold enumerators? at h
  split at h
  · obtain rfl := Option.some.inj h
    exact Enumerator.value_of_first hx
  · cases h

/-- Every later enumerator counts on from the one in front of it. -/
theorem value_of_next (h : d.enumerators? = some enumerators) {i : Nat}
    {x y : Enumerator × Expr} (hx : enumerators[i]? = some x)
    (hy : enumerators[i + 1]? = some y) : y.2 = y.1.value (some x.1.name) := by
  unfold enumerators? at h
  split at h
  · obtain rfl := Option.some.inj h
    exact Enumerator.value_of_next hx hy
  · cases h

/-- Enumerators are looked up by name in the order in which they stand in the enum. -/
theorem enumerator?_eq (h : d.enumerators? = some enumerators) (name : String) :
    d.enumerator? name = enumerators.find? (·.1.name == name) := by
  rw [enumerator?, h, Option.bind_some]

/-- For the name of an enumerator one is found. -/
theorem exists_enumerator? (h : d.enumerators? = some enumerators) {x : Enumerator × Expr}
    (hx : x ∈ enumerators) : ∃ found, d.enumerator? x.1.name = some found := by
  rw [enumerator?_eq h, ← Option.isSome_iff_exists, List.find?_isSome]
  exact ⟨x, hx, BEq.rfl⟩

/-- When all names differ, each is found again. -/
theorem enumerator?_of_nodup (h : d.enumerators? = some enumerators)
    (hnames : (enumerators.map (·.1.name)).Nodup) {x : Enumerator × Expr}
    (hx : x ∈ enumerators) : d.enumerator? x.1.name = some x := by
  obtain ⟨found, hfound⟩ := exists_enumerator? h hx
  rw [enumerator?_eq h] at hfound ⊢
  have hname : found.1.name = x.1.name := by simpa using List.find?_some hfound
  obtain rfl := List.inj_on_of_nodup_map hnames (List.mem_of_find?_eq_some hfound) hx hname
  exact hfound

end Decl

/-! ### Counting -/

namespace LiteralKind

theorem value_zero : integral.value "0" = .ok (.integral 0) := by
  have hzero : Number.integral? "0" = some 0 := by decide +kernel
  rw [value, value?, hzero]
  rfl

theorem value_one : integral.value "1" = .ok (.integral 1) := by
  have hone : Number.integral? "1" = some 1 := by decide +kernel
  rw [value, value?, hone]
  rfl

end LiteralKind

namespace Value

/-- The value of an enumerator that comes after one of the given value. -/
def next (v : Value) : Except EvalError Value :=
  v.binary .add (.integral 1)

/-- One can be added to every word but the greatest. -/
theorem word?_add_one (n : Int64) : Number.word? (n.toInt + 1) =
    if n.toInt < Int64.maxValue.toInt then some (Int64.ofInt (n.toInt + 1)) else none := by
  have hmin : Int64.minValue.toInt ≤ n.toInt := Int64.le_iff_toInt_le.mp (Int64.minValue_le n)
  rw [Number.word?]
  exact if_congr ⟨fun h => by omega, fun h => ⟨by omega, by omega⟩⟩ rfl rfl

/-- Below the greatest word, the value of the next enumerator is the successor. -/
theorem next_integral {n : Int64} (h : n.toInt < Int64.maxValue.toInt) :
    ∃ m : Int64, (integral n).next = .ok (integral m) ∧ m.toInt = n.toInt + 1 := by
  have hmin : Int64.minValue.toInt ≤ n.toInt := Int64.le_iff_toInt_le.mp (Int64.minValue_le n)
  have hword := word?_add_one n
  rw [if_pos h] at hword
  refine ⟨Int64.ofInt (n.toInt + 1), ?_, Int64.toInt_ofInt_of_le ?_ ?_⟩
  · rw [next, binary, integerOp, show (1 : Int64).toInt = 1 by decide, ofInt, hword]
  · exact Int.le_trans hmin (by omega)
  · exact Int.lt_of_le_of_lt (Int.add_one_le_of_lt h) (by decide)

/-- After the greatest integer there is none. -/
theorem next_integral_of_max : (integral Int64.maxValue).next = .error .overflow := by
  have hword := word?_add_one Int64.maxValue
  rw [if_neg (Int.lt_irrefl _)] at hword
  rw [next, binary, integerOp, show (1 : Int64).toInt = 1 by decide, ofInt, hword]

/-- Only integers are counted on from. -/
theorem next_of_ne_integral {v : Value} (h : ∀ n, v ≠ .integral n) :
    v.next = .error (.badOperand "+" v.kind) := by
  cases v with
  | integral n => exact absurd rfl (h n)
  | _ => rfl

/-- Where there is a next value, it is one more. -/
theorem integral_of_next {v w : Value} (h : v.next = .ok w) :
    ∃ n m : Int64, v = .integral n ∧ w = .integral m ∧ m.toInt = n.toInt + 1 := by
  by_cases hintegral : ∃ n, v = .integral n
  · obtain ⟨n, rfl⟩ := hintegral
    have hbound : n.toInt ≤ Int64.maxValue.toInt := Int64.le_iff_toInt_le.mp (Int64.le_maxValue n)
    rcases Int.lt_or_eq_of_le hbound with hlt | hmax
    · obtain ⟨m, hm, heq⟩ := next_integral hlt
      exact ⟨n, m, rfl, Except.ok.inj (h.symm.trans hm), heq⟩
    · rw [Int64.toInt_inj.mp hmax, next_integral_of_max] at h
      cases h
  · rw [next_of_ne_integral fun n hn => hintegral ⟨n, hn⟩] at h
    cases h

end Value

/-! ### The value of the next enumerator -/

namespace Registry

section Next

variable {r : Registry} {d : Decl} {backing : TypeSpec} {scope name : String}
  {first : Enumerator × Expr}

/-- A reference denotes the first enumerator of its last segment in the enum where it is looked
for. -/
theorem constant?_enumerator (howner : (r.owner? scope name).bind r.decl? = some d)
    (hbacking : d.backing? = some backing) (hkind : d.kind = .enum)
    (hfirst : d.enumerator? (Dotted.lastSegment name) = some first) :
    r.constant? scope name = some ⟨first.2, backing, d.canonicalName⟩ := by
  rw [constant?_eq_bind_owner?, howner, Option.bind_some, d.constant?_of_enum hkind, hfirst,
    hbacking]
  rfl

/-- A name without a dot is looked for in its scope. -/
theorem owner?_of_plain (r : Registry) (scope : String) (hname : '.' ∉ name.toList) :
    (r.owner? scope name).bind r.decl? = r.declIn? "" scope := by
  rw [owner?, Dotted.qualifier?_eq_none hname]
  dsimp only
  rw [Option.bind_map]
  rfl

/-- Where no enum is expected, a reference stands for the constant that is looked up. -/
theorem referent_of_constant? {type : TypeName} {isArray : Bool} {c : NamedConstant}
    (hother : type.isEnum = false) (hc : r.constant? scope name = some c) :
    r.referent scope type isArray name = .ok (.inr c) := by
  rw [referent, expected_eq_none_iff.mpr (.inr hother), hc]

/-- Without a value of its own an enumerator evaluates the name of the one before it. -/
theorem evaluate_default (r : Registry) {e : Enumerator} (hwritten : e.written = none)
    (name : String) (type : ValueType) (scope : String) :
    r.evaluate (e.value (some name)) type scope =
      r.evaluate (.reference e.location name) type scope >>= Value.next := by
  have hvalue : e.value (some name) = .binary e.location .add (.reference e.location name)
      (.literal e.location .integral "1") := by
    simp only [Enumerator.value, hwritten]
  rw [hvalue, evaluate_binary, evaluate_literal, LiteralKind.value_one]
  rfl

/-- The value of an enumerator of an enum, as its backing type and from its scope. -/
def enumeratorValue (r : Registry) (d : Decl) (backing : TypeSpec) (x : Enumerator × Expr) :
    Except EvalError Value :=
  r.evaluate x.2 backing.valueType d.canonicalName

/-- An enumerator without a value has the value next to that of the first enumerator which is called
like the one before it. -/
theorem Indexed.enumeratorValue_next (hr : r.Indexed)
    (hindexed : r.declIn? "" d.canonicalName = some d) (hbacking : d.backing? = some backing)
    (hother : backing.base.isEnum = false) {enumerators : List (Enumerator × Expr)}
    (henumerators : d.enumerators? = some enumerators) {i : Nat} {x y : Enumerator × Expr}
    (hx : enumerators[i]? = some x) (hy : enumerators[i + 1]? = some y)
    (hwritten : y.1.written = none) (hname : '.' ∉ x.1.name.toList)
    (hfirst : d.enumerator? x.1.name = some first) :
    EqUpToSpelling (r.enumeratorValue d backing y)
      (r.enumeratorValue d backing first >>= Value.next) := by
  have howner := (r.owner?_of_plain d.canonicalName hname).trans hindexed
  have hlast := Dotted.lastSegment_of_qualifier?_eq_none (Dotted.qualifier?_eq_none hname)
  have hc := constant?_enumerator howner hbacking (Decl.kind_of_enumerators? henumerators)
    (hlast.symm ▸ hfirst)
  have hreferent : r.referent d.canonicalName backing.valueType.base backing.valueType.isArray
      x.1.name = .ok (.inr ⟨first.2, backing, d.canonicalName⟩) :=
    referent_of_constant? hother hc
  rw [enumeratorValue, Decl.value_of_next henumerators hx hy, evaluate_default r hwritten]
  exact (hr.evaluate_reference hreferent y.1.location).bind Value.next

/-- A backing type with a builtin name is no enum. -/
theorem Reachable.isEnum_backing_eq_false (hr : r.Reachable Document.IsFresh)
    (hindexed : r.declIn? "" d.canonicalName = some d) (hbacking : d.backing? = some backing)
    (hbuiltin : Vocabulary.isBuiltin backing.name = true) : backing.base.isEnum = false := by
  obtain ⟨_, -, hd⟩ := Option.bind_eq_some_iff.mp hindexed
  obtain ⟨doc, hdoc, hmem⟩ := exists_mem_of_decl? hd
  have hall : backing ∈ d.allNodes := by
    rw [Decl.allNodes, hbacking]
    exact List.mem_append_right _ (List.mem_flatMap.mpr
      ⟨backing, Option.mem_toList.mpr rfl, TypeSpec.self_mem_nodes backing⟩)
  have hread := hr.readIn (fun _ => id) hdoc hmem hall
  have htarget := (hread backing backing.self_mem_nodes).target?_eq_none hbuiltin
  simp [TypeName.isEnum, TypeName.isKind, htarget]

end Next

/-! ### Enums with distinct names -/

/-- The index holds an enum over a type that is no enum, and the names of its enumerators differ and
have no dot. -/
structure HoldsPlainEnum (r : Registry) (d : Decl) (enumerators : List (Enumerator × Expr))
    (backing : TypeSpec) : Prop where
  indexed : r.declIn? "" d.canonicalName = some d
  enumerators_eq : d.enumerators? = some enumerators
  backing_eq : d.backing? = some backing
  isEnum : backing.base.isEnum = false
  nodup : (enumerators.map (·.1.name)).Nodup
  plain : ∀ x ∈ enumerators, '.' ∉ x.1.name.toList

namespace HoldsPlainEnum

variable {r : Registry} {d : Decl} {enumerators : List (Enumerator × Expr)} {backing : TypeSpec}
  (h : r.HoldsPlainEnum d enumerators backing) {i : Nat} {x y : Enumerator × Expr}
include h

/-- The first enumerator is filled in with the literal `0`, and evaluates to it. -/
theorem enumeratorValue_first (hx : enumerators[0]? = some x) (hwritten : x.1.written = none) :
    r.enumeratorValue d backing x = .ok (.integral 0) := by
  have hzero : x.2 = .literal x.1.location .integral "0" := by
    rw [Decl.value_of_first h.enumerators_eq hx]
    simp only [Enumerator.value, hwritten]
  rw [enumeratorValue, hzero, evaluate_literal, LiteralKind.value_zero]

variable (hr : r.Indexed) (hx : enumerators[i]? = some x) (hy : enumerators[i + 1]? = some y)
  (hwritten : y.1.written = none)
include hr hx hy hwritten

/-- The value next to that of the enumerator before. -/
theorem enumeratorValue_next : EqUpToSpelling (r.enumeratorValue d backing y)
    (r.enumeratorValue d backing x >>= Value.next) := by
  have hmem := List.mem_of_getElem? hx
  exact hr.enumeratorValue_next h.indexed h.backing_eq h.isEnum h.enumerators_eq hx hy hwritten
    (h.plain x hmem) (Decl.enumerator?_of_nodup h.enumerators_eq h.nodup hmem)

/-- An enumerator without a value evaluates to what counts on from the value of the one before it; a
failure there comes up again here, though a circular reference may be noticed under another name. -/
theorem enumeratorValue_after {v : Value} (hv : r.enumeratorValue d backing x = .ok v) :
    EqUpToSpelling (r.enumeratorValue d backing y) v.next := by
  have hnext := h.enumeratorValue_next hr hx hy hwritten
  rw [hv] at hnext
  exact hnext

/-- So its number is the successor, as long as that is a word. -/
theorem enumeratorValue_succ {n : Int64} (hn : r.enumeratorValue d backing x = .ok (.integral n))
    (hlt : n.toInt < Int64.maxValue.toInt) :
    ∃ m, r.enumeratorValue d backing y = .ok (.integral m) ∧ m.toInt = n.toInt + 1 := by
  obtain ⟨m, hm, heq⟩ := Value.next_integral hlt
  have hafter := h.enumeratorValue_after hr hx hy hwritten hn
  rw [hm] at hafter
  exact ⟨m, hafter.eq_ok, heq⟩

omit hy hwritten in
/-- Enumerators without values count on from the last one that has a value. -/
theorem enumeratorValue_run {n : Int64} (hn : r.enumeratorValue d backing x = .ok (.integral n))
    {k : Nat} (hbound : n.toInt + k ≤ Int64.maxValue.toInt)
    (hwritten : ∀ j < k, ∃ y, enumerators[i + j + 1]? = some y ∧ y.1.written = none) :
    ∀ j ≤ k, ∃ y m, enumerators[i + j]? = some y ∧
      r.enumeratorValue d backing y = .ok (.integral m) ∧ m.toInt = n.toInt + j := by
  intro j hj
  induction j with
  | zero => exact ⟨x, n, hx, hn, by omega⟩
  | succ j ih =>
    obtain ⟨x', n', hx', hn', heq⟩ := ih (by omega)
    obtain ⟨y, hy, hunwritten⟩ := hwritten j (by omega)
    obtain ⟨m, hm, hsum⟩ := h.enumeratorValue_succ hr hx' hy hunwritten hn' (by omega)
    exact ⟨y, m, hy, hm, by omega⟩

end HoldsPlainEnum

/-- **Enumerators without values**: in a reachable registry let the index hold an enum over `byte`,
`int` or `long` whose enumerators differ in name and have no dot in it. From the scope of the enum
and as its backing type, an enumerator without a value evaluates

* to zero, if it is the first;
* to `n + 1`, if the one before it evaluates to the integer `n` and that is not the greatest one;
* to an overflow, if that is the greatest one;
* to an error, if the one before it has no value, or one that is no integer.

So enumerators without values that follow one of value `n` have the values `n + 1`, `n + 2` and so
on, up to the greatest integer. -/
theorem Reachable.evaluate_filled {r : Registry} (hr : r.Reachable Document.IsFresh) {d : Decl}
    (hindexed : r.declIn? "" d.canonicalName = some d)
    {enumerators : List (Enumerator × Expr)} (henumerators : d.enumerators? = some enumerators)
    {backing : TypeSpec} (hbacking : d.backing? = some backing)
    (hinteger : backing.name ∈ ["byte", "int", "long"])
    (hnodup : (enumerators.map (·.1.name)).Nodup)
    (hnames : ∀ x ∈ enumerators, '.' ∉ x.1.name.toList) :
    let value := r.enumeratorValue d backing
    (∀ x, enumerators[0]? = some x → x.1.written = none → value x = .ok (.integral 0)) ∧
    (∀ (i : Nat) x y, enumerators[i]? = some x → enumerators[i + 1]? = some y →
      y.1.written = none →
        (∀ n, value x = .ok (.integral n) → n.toInt < Int64.maxValue.toInt →
          ∃ m, value y = .ok (.integral m) ∧ m.toInt = n.toInt + 1) ∧
        (value x = .ok (.integral Int64.maxValue) → value y = .error .overflow) ∧
        (∀ error, value x = .error error → ∃ error', value y = .error error') ∧
        (∀ v, value x = .ok v → (∀ n, v ≠ .integral n) →
          value y = .error (.badOperand "+" v.kind))) ∧
    (∀ (i k : Nat) x n, enumerators[i]? = some x → value x = .ok (.integral n) →
      n.toInt + k ≤ Int64.maxValue.toInt →
      (∀ j < k, ∃ y, enumerators[i + j + 1]? = some y ∧ y.1.written = none) →
        ∀ j ≤ k, ∃ y m, enumerators[i + j]? = some y ∧ value y = .ok (.integral m) ∧
          m.toInt = n.toInt + j) := by
  intro value
  have hbuiltin : ∀ name ∈ ["byte", "int", "long"], Vocabulary.isBuiltin name = true := by
    decide +kernel
  have hother := hr.isEnum_backing_eq_false hindexed hbacking (hbuiltin _ hinteger)
  have h : r.HoldsPlainEnum d enumerators backing :=
    ⟨hindexed, henumerators, hbacking, hother, hnodup, hnames⟩
  have hr := hr.indexed
  refine ⟨fun x => h.enumeratorValue_first, fun i x y hx hy hwritten =>
    ⟨fun n => h.enumeratorValue_succ hr hx hy hwritten, fun hmax => ?_, fun error herror => ?_,
      fun v hv hne => ?_⟩, fun i k x n hx hn => h.enumeratorValue_run hr hx hn⟩
  · have hafter := h.enumeratorValue_after hr hx hy hwritten hmax
    rw [Value.next_integral_of_max] at hafter
    exact hafter.eq_error (by simp)
  · have hnext := h.enumeratorValue_next hr hx hy hwritten
    rw [show r.enumeratorValue d backing x = _ from herror] at hnext
    exact hnext.exists_error
  · have hafter := h.enumeratorValue_after hr hx hy hwritten hv
    rw [Value.next_of_ne_integral hne] at hafter
    exact hafter.eq_error (by simp)

/-- A document with an enum whose enumerators have the given names, some of them a number. -/
def countedEnum (enumerators : List (String × Option String)) : Document :=
  let loc : Location := ⟨"E.aidl", none⟩
  ⟨[], [⟨⟨loc, "p", "E", "", {}⟩, .enum (enumerators.map fun (name, number) =>
    ⟨loc, name, number.map (.literal loc .integral), ""⟩) none {}⟩]⟩

/-- After completion three enumerators without values have the values 0, 1 and 2, of which the last
is looked at here: two steps on from the first one. -/
theorem evaluate_filled_countedEnum :
    let doc := countedEnum [("A", none), ("B", none), ("C", none)]
    let r := ((empty.addDocument doc).value.completeDocument 0).value.1
    r.Reachable Document.IsFresh ∧ ∃ d enumerators backing x n,
      r.declIn? "" "p.E" = some d ∧ d.enumerators? = some enumerators ∧
      d.backing? = some backing ∧ backing.name = "byte" ∧
      enumerators[2]? = some x ∧ x.1.name = "C" ∧ x.1.written = none ∧
      r.enumeratorValue d backing x = .ok (.integral n) ∧ n.toInt = 2 := by
  intro doc r
  have hr : r.Reachable Document.IsFresh :=
    .completeDocument 0 (.addDocument .empty (by decide +kernel))
  have hfacts : (r.declIn? "" "p.E").map (fun d => (d.canonicalName, d.backing?.map (·.name),
      d.enumerators?.map fun xs => xs.map fun x => (x.1.name, x.1.written.isSome))) =
        some ("p.E", some "byte", some [("A", false), ("B", false), ("C", false)]) := by
    decide +kernel
  simp only [Option.map_eq_some_iff, Prod.mk.injEq, List.map_eq_cons_iff, List.map_eq_nil_iff,
    Option.isSome_eq_false_iff, Option.isNone_iff_eq_none] at hfacts
  obtain ⟨d, hd, hname, ⟨backing, hbacking, hbyte⟩, enumerators, henumerators,
    a, _, rfl, ⟨ha, hwrittenA⟩, b, _, rfl, ⟨hb, hwrittenB⟩, c, _, rfl, ⟨hc, hwrittenC⟩, rfl⟩ :=
      hfacts
  have hindexed : r.declIn? "" d.canonicalName = some d := hname ▸ hd
  have hnodup : ([a, b, c].map (·.1.name)).Nodup := by simp [ha, hb, hc]
  have hnames : ∀ x ∈ [a, b, c], '.' ∉ x.1.name.toList := by simp [ha, hb, hc]
  obtain ⟨hfirst, -, hrun⟩ := hr.evaluate_filled hindexed henumerators hbacking (by simp [hbyte])
    hnodup hnames
  have hwritten : ∀ j < 2, ∃ y, [a, b, c][0 + j + 1]? = some y ∧ y.1.written = none := by
    intro j hj
    rcases Nat.le_one_iff_eq_zero_or_eq_one.mp (Nat.le_of_lt_succ hj) with rfl | rfl
    · exact ⟨b, rfl, hwrittenB⟩
    · exact ⟨c, rfl, hwrittenC⟩
  obtain ⟨y, m, hy, hm, heq⟩ := hrun 0 2 a 0 rfl (hfirst a rfl hwrittenA) (by decide) hwritten 2
    (Nat.le_refl 2)
  obtain rfl : c = y := Option.some.inj hy
  exact ⟨hr, d, _, backing, c, m, hd, henumerators, hbacking, hbyte, rfl, hc, hwrittenC, hm, heq⟩

end Registry

end InterfaceDefinition
