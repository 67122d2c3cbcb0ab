import InterfaceDefinition.Decl.Source
import InterfaceDefinition.Proofs.Acceptance.Enums
import InterfaceDefinition.Proofs.Evaluation.EnumValues
import InterfaceDefinition.Proofs.Evaluation.Filling

/-!
# References to enumerators

No check looks at the names of enumerators, so an enum that repeats one passes
(`Registry.validate_repeatedEnum`). What a reference denotes is the first enumerator of a name
(`Enumerator.IsFirst`), and an enumerator without a value counts on from the first one that is
called like the one before it. In a valid document both is true of every enum, whatever its names
are (`Registry.Reachable.validate_enumerators`); when they differ, the first enumerator of a name is
the only one.
-/

namespace InterfaceDefinition

open Fallible

/-! ### First enumerators -/

/-- The enumerator at a position is the first one of a name. -/
structure Enumerator.IsFirst (enumerators : List (Enumerator × Expr)) (name : String)
    (position : Nat) (first : Enumerator × Expr) : Prop where
  getElem?_eq : enumerators[position]? = some first
  name_eq : first.1.name = name
  earlier : ∀ k < position, ∀ x, enumerators[k]? = some x → x.1.name ≠ name

namespace Enumerator.IsFirst

variable {enumerators : List (Enumerator × Expr)} {name : String} {i j : Nat}
  {x first : Enumerator × Expr}

/-- The first enumerator of a name is not after any other. -/
theorem le (h : IsFirst enumerators name j first) (hx : enumerators[i]? = some x)
    (hname : x.1.name = name) : j ≤ i := by
  by_contra hlt
  exact h.earlier i (Nat.lt_of_not_le hlt) x hx hname

/-- When all names differ, there is no other. -/
theorem eq_of_nodup (h : IsFirst enumerators name j first)
    (hnodup : (enumerators.map (·.1.name)).Nodup) (hx : enumerators[i]? = some x)
    (hname : x.1.name = name) : j = i := by
  have hj : j < (enumerators.map (·.1.name)).length := by
    rw [List.length_map]
    exact (List.getElem?_eq_some_iff.mp h.getElem?_eq).1
  exact (List.getElem?_inj hj hnodup).mp (by simp [h.getElem?_eq, hx, h.name_eq, hname])

end Enumerator.IsFirst

/-- Where there is an enumerator of a name, the first one is found. -/
theorem Decl.exists_isFirst {d : Decl} {enumerators : List (Enumerator × Expr)}
    (henumerators : d.enumerators? = some enumerators) {x : Enumerator × Expr}
    (hx : x ∈ enumerators) : ∃ j first, Enumerator.IsFirst enumerators x.1.name j first ∧
      d.enumerator? x.1.name = some first := by
  obtain ⟨first, hfirst⟩ := exists_enumerator? henumerators hx
  rw [enumerator?_eq henumerators] at hfirst ⊢
  obtain ⟨hname, j, hj, hfound, hearlier⟩ := List.find?_eq_some_iff_getElem.mp hfirst
  refine ⟨j, first, ⟨List.getElem?_eq_some_iff.mpr ⟨hj, hfound⟩, by simpa using hname, ?_⟩, hfirst⟩
  intro k hk z hz
  obtain ⟨-, rfl⟩ := List.getElem?_eq_some_iff.mp hz
  simpa using hearlier k hk

/-! ### Enumerators that pass -/

variable {r : Registry}

/-- The backing type of an enum that passes its check accepts all values. -/
theorem Decl.accepts_of_passes {d : Decl} {enumerators : List (Enumerator × Expr)}
    (henumerators : d.enumerators? = some enumerators) {backing : TypeSpec}
    (hbacking : d.backing? = some backing) (hpasses : (d.check r).passes = true) :
    ∀ x ∈ enumerators, r.Accepts d.canonicalName backing x.2 := by
  obtain ⟨enumerators', heq, hrules⟩ :=
    enumRules_of_passes (kind_of_enumerators? henumerators) hpasses
  obtain rfl : enumerators = enumerators' := Option.some.inj (henumerators.symm.trans heq)
  obtain ⟨backing', htype, haccepts⟩ := hrules.values
  obtain rfl : backing = backing' := Option.some.inj (hbacking.symm.trans htype)
  exact haccepts

namespace Registry

/-- Where an enum is expected, a reference stands for an enumerator of it. -/
theorem evaluate_reference_of_isEnum (r : Registry) {type : ValueType}
    (harray : type.isArray = false) (henum : type.base.isEnum = true) (loc : Location)
    (name scope : String) :
    ∃ target, r.evaluate (.reference loc name) type scope = r.enumerator target type.base name := by
  obtain ⟨target, htarget, hkind⟩ := exists_target_of_isEnum henum
  have hrun := r.run_evaluateWithin_of_le (.reference loc name) type scope (Nat.le_refl _)
  rw [evaluateWithin, Expr.evalWith, harray, dereference_enumerator htarget hkind,
    Bounded.run_lift] at hrun
  exact ⟨target, (Option.some.inj hrun).symm⟩

/-- An enumerator without a value that comes after another has none in an enum over an enum. -/
theorem not_accepts_of_isEnum {scope : String} {backing : TypeSpec}
    (hresolved : backing.IsResolvedName) (henum : backing.base.isEnum = true) {e : Enumerator}
    (hwritten : e.written = none) (name : String) :
    ¬ r.Accepts scope backing (e.value (some name)) := by
  intro haccepts
  obtain ⟨v, -, hv, -⟩ := haccepts.exists_value
  have harray : backing.valueType.isArray = false := hresolved.isArray
  have hexpected : backing.valueType.base.isEnum = true := henum
  obtain ⟨target, htarget⟩ :=
    r.evaluate_reference_of_isEnum harray hexpected e.location name scope
  rw [evaluate_default r hwritten, htarget] at hv
  -- an enumerator cannot be added to
  rcases r.enumerator_cases target backing.valueType.base name with hname | hname
  · rw [hname] at hv
    cases hv
  · rw [hname] at hv
    cases hv

/-- In an enum that passes its check, an enumerator without a value has one more than the first
enumerator that is called like the one before it. -/
theorem Indexed.exists_next_of_accepts (hr : r.Indexed) {d : Decl}
    (hindexed : r.declIn? "" d.canonicalName = some d) {backing : TypeSpec}
    (hbacking : d.backing? = some backing) (hresolved : backing.IsResolvedName)
    {enumerators : List (Enumerator × Expr)} (henumerators : d.enumerators? = some enumerators)
    {i : Nat} {x y first : Enumerator × Expr} (hx : enumerators[i]? = some x)
    (hy : enumerators[i + 1]? = some y) (hwritten : y.1.written = none)
    (hname : '.' ∉ x.1.name.toList) (hfirst : d.enumerator? x.1.name = some first)
    (haccepts : r.Accepts d.canonicalName backing y.2) :
    ∃ n m : Int64, r.enumeratorValue d backing first = .ok (.integral n) ∧
      r.enumeratorValue d backing y = .ok (.integral m) ∧ m.toInt = n.toInt + 1 := by
  have hother : backing.base.isEnum = false := by
    rw [Decl.value_of_next henumerators hx hy] at haccepts
    exact Bool.eq_false_iff.mpr fun henum =>
      not_accepts_of_isEnum hresolved henum hwritten _ haccepts
  have hnext := hr.enumeratorValue_next hindexed hbacking hother henumerators hx hy hwritten hname
    hfirst
  obtain ⟨v, -, hv, -⟩ := haccepts.exists_value
  have hv : r.enumeratorValue d backing y = .ok v := hv
  rw [hv] at hnext
  have hsum := hnext.symm.eq_ok
  cases hvalue : r.enumeratorValue d backing first with
  | error error =>
    rw [hvalue] at hsum
    cases hsum
  | ok w =>
    rw [hvalue] at hsum
    obtain ⟨n, m, rfl, rfl, heq⟩ := Value.integral_of_next hsum
    exact ⟨n, m, rfl, hv, heq⟩

/-- **References to enumerators**: in the registry that a positive validation leaves, each enum of
the document has a backing type, and for each of its enumerators the following is true of the first
one of the same name, which is the enumerator itself when all names of the enum differ.

* Every reference that is looked for in the enum and ends in the name denotes it.
* If the index holds the enum, the name has no dot and the next enumerator has no value of its own,
  then it evaluates to some integer `n`, and the next enumerator to `n + 1`. -/
theorem Reachable.validate_enumerators {Admitted : Document → Prop} (hr : r.Reachable Admitted)
    {number : Nat} {options : Options} {report : ValidationReport}
    (h : (r.validate number options).2 = .ok report) (hvalid : report.valid = true) :
    let after := (r.validate number options).1
    ∃ doc, after.document? number = some doc ∧
      ∀ d ∈ doc.decls, ∀ enumerators, d.enumerators? = some enumerators →
        ∃ backing, d.backing? = some backing ∧ ∀ (i : Nat) x, enumerators[i]? = some x →
          ∃ j ≤ i, ∃ first, Enumerator.IsFirst enumerators x.1.name j first ∧
            ((enumerators.map (·.1.name)).Nodup → j = i) ∧
            (∀ scope name, (after.owner? scope name).bind after.decl? = some d →
              Dotted.lastSegment name = x.1.name →
                after.constant? scope name = some ⟨first.2, backing, d.canonicalName⟩) ∧
            (after.declIn? "" d.canonicalName = some d → '.' ∉ x.1.name.toList →
              ∀ y, enumerators[i + 1]? = some y → y.1.written = none →
                ∃ n m : Int64, after.enumeratorValue d backing first = .ok (.integral n) ∧
                  after.enumeratorValue d backing y = .ok (.integral m) ∧
                    m.toInt = n.toInt + 1) := by
  intro after
  obtain ⟨hpassed, hsilent⟩ := passed_of_valid h hvalid
  obtain ⟨doc, hdoc, hpasses⟩ := passes_of_valid h hvalid
  have hafter : after = (r.checkGenerally number).value.1 := by
    rw [show after = (r.validate number options).1 from rfl, validate_eq]
  refine ⟨doc, hdoc, fun d hd enumerators henumerators => ?_⟩
  have hkind := Decl.kind_of_enumerators? henumerators
  obtain ⟨backing, hbacking, hresolved⟩ :=
    backing_of_checkGenerally (hafter ▸ hdoc) hpassed hsilent d hd hkind
  have haccepts : ∀ y ∈ enumerators, after.Accepts d.canonicalName backing y.2 :=
    Decl.accepts_of_passes henumerators hbacking (passes_checkEach_iff.mp hpasses d hd)
  refine ⟨backing, hbacking, fun i x hx => ?_⟩
  obtain ⟨j, first, hisFirst, hfirst⟩ := Decl.exists_isFirst henumerators (List.mem_of_getElem? hx)
  refine ⟨j, hisFirst.le hx rfl, first, hisFirst, fun hnodup => hisFirst.eq_of_nodup hnodup hx rfl,
    fun scope name howner hname => ?_, fun hindexed hname y hy hwritten => ?_⟩
  · exact constant?_enumerator howner hbacking hkind (hname ▸ hfirst)
  · exact (hr.validate number options).indexed.exists_next_of_accepts hindexed hbacking hresolved
      henumerators hx hy hwritten hname hfirst (haccepts y (List.mem_of_getElem? hy))

/-- An enum that uses one name twice. -/
def repeatedEnum : Document :=
  countedEnum [("A", none), ("A", some "7"), ("B", none)]

/-- Such an enum is accepted. What follows the second `A` counts on from the value of the first one,
which the name stands for, and not from the 7 that is written before it. -/
theorem validate_enumerators_repeatedEnum :
    let validated := (empty.addDocument repeatedEnum).value.validate 0 {}
    ∃ d enumerators backing first last n m, validated.1.declIn? "" "p.E" = some d ∧
      d.enumerators? = some enumerators ∧ d.backing? = some backing ∧
      enumerators[0]? = some first ∧ enumerators[2]? = some last ∧
      validated.1.enumeratorValue d backing first = .ok (.integral n) ∧
      validated.1.enumeratorValue d backing last = .ok (.integral m) ∧
      m.toInt = n.toInt + 1 := by
  intro validated
  have hr : (empty.addDocument repeatedEnum).value.Reachable Document.IsFresh :=
    .addDocument .empty (by decide +kernel)
  have hvalid : validated.2.toOption.map (·.valid) = some true := by decide +kernel
  obtain ⟨report, hreport, hvalid⟩ := Option.map_eq_some_iff.mp hvalid
  obtain ⟨doc, hdoc, henums⟩ :=
    hr.validate_enumerators (toOption_eq_some_iff.mp hreport) hvalid
  have hlookup : validated.1.lookup? "" "p.E" = some ("p.E", ⟨⟨0, 0⟩, .enum⟩) := by
    decide +kernel
  have hfacts : (validated.1.document? 0).map (fun doc => doc.decls.map fun d =>
      (d.canonicalName, d.enumerators?.map fun enumerators =>
        enumerators.map fun x => (x.1.name, x.1.written.isSome))) =
          some [("p.E", some [("A", false), ("A", true), ("B", false)])] := by decide +kernel
  have hdoc : validated.1.document? 0 = some doc := hdoc
  rw [hdoc, Option.map_some, Option.some.injEq] at hfacts
  obtain ⟨d, hdecls, hdecl⟩ := List.map_eq_singleton_iff.mp hfacts
  simp only [Prod.mk.injEq, Option.map_eq_some_iff, List.map_eq_cons_iff, List.map_eq_nil_iff,
    Option.isSome_eq_false_iff, Option.isNone_iff_eq_none] at hdecl
  obtain ⟨hname, enumerators, henumerators, a, _, rfl, ⟨ha, -⟩, b, _, rfl, ⟨hb, -⟩,
    c, _, rfl, ⟨-, hwritten⟩, rfl⟩ := hdecl
  have hd : validated.1.declIn? "" "p.E" = some d := by
    have hfirst : validated.1.decl? ⟨0, 0⟩ = some d := by simp [decl?, hdoc, hdecls]
    rw [declIn?, hlookup, Option.bind_some]
    exact hfirst
  obtain ⟨backing, hbacking, hall⟩ :=
    henums d (hdecls ▸ List.mem_cons_self) _ henumerators
  obtain ⟨j, -, first, hfirst, -, -, hnext⟩ := hall 1 b rfl
  obtain rfl : j = 0 := Nat.le_zero.mp (hfirst.le (rfl : [a, b, c][0]? = some a) (ha.trans hb.symm))
  obtain rfl : a = first := Option.some.inj hfirst.getElem?_eq
  obtain ⟨n, m, hn, hm, heq⟩ := hnext (hname ▸ hd) (by simp [hb]) c rfl hwritten
  exact ⟨d, _, backing, a, c, n, m, hd, henumerators, hbacking, rfl, rfl, hn, hm, heq⟩

/-- The enum is valid, and its last enumerator, which comes after one of value seven, has the value
one. -/
theorem validate_repeatedEnum :
    let r := (empty.addDocument repeatedEnum).value
    let validated := r.validate 0 {}
    r.Reachable Document.IsFresh ∧ validated.2.toOption.map (·.valid) = some true ∧
      ∃ d, validated.1.declIn? "" "p.E" = some d ∧
        d.enumerators?.map (fun enumerators => enumerators.map fun x =>
          (x.1.name, d.enumeratorText validated.1 x.2)) =
            some [("A", "0"), ("A", "7"), ("B", "1")] := by
  intro r validated
  have hr : r.Reachable Document.IsFresh := .addDocument .empty (by decide +kernel)
  have hdecl : (validated.1.declIn? "" "p.E").map (fun d => d.enumerators?.map fun enumerators =>
      enumerators.map fun x => (x.1.name, d.enumeratorText validated.1 x.2)) =
        some (some [("A", "0"), ("A", "7"), ("B", "1")]) := by decide +kernel
  obtain ⟨d, hd, htexts⟩ := Option.map_eq_some_iff.mp hdecl
  exact ⟨hr, by decide +kernel, d, hd, htexts⟩

end Registry

end InterfaceDefinition
