import InterfaceDefinition.Proofs.Acceptance.Passing
import InterfaceDefinition.Proofs.Resolution.Nodes
import InterfaceDefinition.TypeSpec.Check

/-!
# Types that pass their check

The rules for types are local, and the check of a type passes exactly when each of its nodes keeps
them by itself (`TypeSpec.passes_check_iff`): its annotations are valid, its name is resolved, and
nothing is wrong with its arguments and its form. What that leaves of lists and maps is said without
the order in which faults are looked for (`TypeSpec.listFault?_eq_none_iff`,
`TypeSpec.mapFault?_eq_none_iff`).
-/

namespace InterfaceDefinition

open Fallible

/-! ### Rules of which none applies -/

/-- There is no first fault where no condition holds. -/
theorem firstFault?_eq_none_iff {α : Type} {rules : List (Bool × α)} :
    firstFault? rules = none ↔ ∀ rule ∈ rules, rule.1 = false := by
  simp [firstFault?, List.find?_eq_none]

namespace TypeSpec

/-! ### Nodes -/

/-- What a node of a type that passes its check keeps by itself. -/
structure KeepsRules (r : Registry) (n : TypeSpec) : Prop where
  annotations : n.checkAnnotations.value = true
  resolved : n.base.isResolved = true
  fault : n.fault? r = none

theorem value_checkForm {r : Registry} {t : TypeSpec} :
    (t.checkForm r).value = (t.fault? r).isNone := by
  simp [checkForm]

mutual

/-- **Local rules**: a type passes its check exactly when every node of it keeps the rules. -/
theorem passes_check_iff (r : Registry) :
    (t : TypeSpec) → ((t.check r).passes = true ↔ ∀ n ∈ t.nodes, n.KeepsRules r)
  | ⟨loc, base, arguments, isArray, annotations, comments⟩ => by
    rw [check, nodes, List.forall_mem_cons, ← passes_checkAll_iff r arguments, passes_guard_iff,
      passes_bind_iff, passes_lift]
    simp only [passes_guard_iff, passes_lift, value_checkForm, Option.isNone_iff_eq_none]
    have hname := exists_canonicalName_iff
      (t := ⟨loc, base, arguments, isArray, annotations, comments⟩)
    constructor
    · rintro ⟨hannotations, name, hresolved, harguments, hfault⟩
      exact ⟨⟨hannotations, hname.mp ⟨name, hresolved⟩, hfault⟩, harguments⟩
    · rintro ⟨⟨hannotations, hresolved, hfault⟩, harguments⟩
      obtain ⟨name, hresolved⟩ := hname.mpr hresolved
      exact ⟨hannotations, name, hresolved, harguments, hfault⟩

theorem passes_checkAll_iff (r : Registry) :
    (ts : List TypeSpec) → ((checkAll r ts).passes = true ↔ ∀ n ∈ nodesOf ts, n.KeepsRules r)
  | [] => by
    rw [checkAll, nodesOf]
    simp
  | t :: rest => by
    rw [checkAll, nodesOf, List.forall_mem_append, ← passes_check_iff r t,
      ← passes_checkAll_iff r rest, passes_and_iff]

end

/-- The nodes of the arguments of a node are nodes. -/
theorem mem_nodes_of_mem_arguments {t n a : TypeSpec} (hn : n ∈ t.nodes) (ha : a ∈ n.arguments) :
    a ∈ t.nodes := by
  have hnode : a ∈ n.nodes := by
    rw [nodes_eq]
    exact List.mem_cons_of_mem _ (List.mem_flatMap.mpr ⟨a, ha, a.self_mem_nodes⟩)
  exact nodes_subset_of_mem t hn hnode

/-! ### Arguments -/

theorem any_isPrimitiveOrEnum_eq_false {ts : List TypeSpec} :
    ts.any isPrimitiveOrEnum = false ↔ ∀ t ∈ ts, t.isPrimitiveOrEnum = false := by
  simp

/-- Nothing is wrong with the arguments of a list: there is one, and it may be an element. -/
theorem listFault?_eq_none_iff {t : TypeSpec} :
    t.listFault? = none ↔
      (∀ a ∈ t.arguments, a.isPrimitiveOrEnum = false) ∧
        ∃ element, t.arguments = [element] ∧ element.isListElement = true := by
  rw [listFault?, ← any_isPrimitiveOrEnum_eq_false]
  cases t.arguments.any isPrimitiveOrEnum with
  | true => simp
  | false =>
    simp only [Bool.false_eq_true, if_false, true_and]
    split
    · next element harguments => simp [harguments]
    · next hne => simpa using fun element heq => absurd heq (hne element)

/-- Nothing is wrong with the arguments of a map: there are two, and the first is text. -/
theorem mapFault?_eq_none_iff {t : TypeSpec} :
    t.mapFault? = none ↔
      (∀ a ∈ t.arguments, a.isPrimitiveOrEnum = false) ∧
        ∃ key value, t.arguments = [key, value] ∧ key.name = "String" := by
  rw [mapFault?, ← any_isPrimitiveOrEnum_eq_false]
  cases t.arguments.any isPrimitiveOrEnum with
  | true => simp
  | false =>
    simp only [Bool.false_eq_true, if_false, true_and]
    split
    · next key value harguments => simp [harguments]
    · next hne => simpa using fun key value heq => absurd heq (hne key value)

/-- A type that has arguments and is neither a list nor a map is declared with as many
parameters. -/
theorem declaredFault?_eq_none_iff {r : Registry} {t : TypeSpec} :
    t.declaredFault? r = none ↔
      ∃ target d declared, t.base.target? = some target ∧ r.decl? target.id = some d ∧
        d.typeParams? = some declared ∧ declared.length = t.arguments.length := by
  rw [declaredFault?]
  cases htarget : t.base.target? with
  | none => simp
  | some target =>
    cases hd : r.decl? target.id with
    | none => simp [hd]
    | some d =>
      cases hparams : d.typeParams? with
      | none => simp [hd, hparams]
      | some declared => simp [hd, hparams]

namespace KeepsRules

variable {r : Registry} {n : TypeSpec}

theorem genericFault?_eq_none (h : n.KeepsRules r) : n.genericFault? r = none :=
  (Option.or_eq_none_iff.mp h.fault).1

theorem formFault?_eq_none (h : n.KeepsRules r) : n.formFault? = none :=
  (Option.or_eq_none_iff.mp h.fault).2

/-- A list with arguments has one, and it may be an element. -/
theorem list (h : n.KeepsRules r) (hname : n.name = "List") (hgeneric : n.isGeneric = true) :
    (∀ a ∈ n.arguments, a.isPrimitiveOrEnum = false) ∧
      ∃ element, n.arguments = [element] ∧ element.isListElement = true := by
  have hfault := h.genericFault?_eq_none
  rw [genericFault?, if_pos hgeneric, if_pos hname] at hfault
  exact listFault?_eq_none_iff.mp hfault

/-- A map with arguments has two, and the first is text. -/
theorem map (h : n.KeepsRules r) (hname : n.name = "Map") (hgeneric : n.isGeneric = true) :
    (∀ a ∈ n.arguments, a.isPrimitiveOrEnum = false) ∧
      ∃ key value, n.arguments = [key, value] ∧ key.name = "String" := by
  have hfault := h.genericFault?_eq_none
  rw [genericFault?, if_pos hgeneric, if_neg (by simp [hname]), if_pos hname] at hfault
  exact mapFault?_eq_none_iff.mp hfault

/-- Only types that were declared with parameters have arguments besides lists and maps. -/
theorem isGeneric_eq_false (h : n.KeepsRules r) (htarget : n.base.target? = none)
    (hlist : n.name ≠ "List") (hmap : n.name ≠ "Map") : n.isGeneric = false := by
  rw [Bool.eq_false_iff]
  intro hgeneric
  have hfault := h.genericFault?_eq_none
  rw [genericFault?, if_pos hgeneric, if_neg hlist, if_neg hmap] at hfault
  obtain ⟨target, _, _, hsome, -⟩ := declaredFault?_eq_none_iff.mp hfault
  simp [htarget] at hsome

/-- What is marked as UTF-8 text is text or a list of texts. -/
theorem isTextual (h : n.KeepsRules r) (hutf8 : n.isUtf8 = true) : n.isTextual = true := by
  have hrule := firstFault?_eq_none_iff.mp h.formFault?_eq_none _ List.mem_cons_self
  simpa [hutf8] using hrule

end KeepsRules

end TypeSpec

end InterfaceDefinition
