import InterfaceDefinition.Proofs.Acceptance.Interfaces
import InterfaceDefinition.Proofs.Verdict.Checks
import Mathlib.Data.List.Infix

/-!
# Which arguments are reported on

The check of an interface goes on behind a method that is not valid, but the check of a method stops
at its first problem. So what is wrong with an argument is reported whatever else is wrong in the
interface, if the check of its own method comes to it (`Method.Reaches`): the return type and all
earlier arguments are valid and no name has been repeated. If the check does not come to it, the
argument is not looked at but for its name, and another problem of the method hides its own
(`Decl.check_hides_argument`). `Decl.check_reports_argument` says both.

The first half is composed line by line like the check: what a part reports stands together in the
report of the whole (`Fallible.Includes`).
-/

namespace InterfaceDefinition

/-! ### Reports of parts -/

namespace Fallible

variable {α β : Type} {ds : List Diagnostic}

/-- A check that reports some diagnostics, one behind the other. -/
def Includes (ds : List Diagnostic) (x : Fallible α) : Prop :=
  ds <:+: x.run.diagnostics

namespace Includes

protected theorem self (x : Fallible α) : Includes x.run.diagnostics x :=
  List.infix_rfl

/-- What a part in front reports stays. -/
theorem front {x : Fallible α} {f : α → Fallible β} (hx : Includes ds x) :
    Includes ds (x >>= f) := by
  refine hx.trans (List.IsPrefix.isInfix ?_)
  cases h : x.run.value with
  | error e => rw [run_bind_of_error h]
  | ok a =>
    rw [run_bind_of_ok h]
    exact List.prefix_append ..

/-- What the second half of a sequence reports is among the reports of the whole if the first half
completes. -/
theorem behind_ok {x : Fallible α} {f : α → Fallible β} {a : α} (hx : x.run.value = .ok a)
    (hf : Includes ds (f a)) : Includes ds (x >>= f) := by
  rw [Includes, run_bind_of_ok hx]
  exact hf.trans (List.suffix_append ..).isInfix

/-- What is reported behind a part that completes is reported whatever its answer. -/
theorem behind {x : Fallible α} {f : α → Fallible β} (hx : x.Completes)
    (hf : ∀ a, Includes ds (f a)) : Includes ds (x >>= f) := by
  obtain ⟨a, ha⟩ := hx.exists_value
  exact behind_ok ha (hf a)

/-- What the check of one element reports is in the report of all. -/
protected theorem checkEach {check : α → Fallible Bool} {xs : List α}
    (h : ∀ x ∈ xs, (check x).Completes) {x : α} (hx : x ∈ xs)
    (hincludes : Includes ds (check x)) : Includes ds (checkEach check xs) := by
  rw [Includes, run_checkEach h]
  exact hincludes.trans (List.infix_of_mem_flatten (List.mem_map_of_mem hx))

end Includes

end Fallible

open Fallible

/-! ### Arguments of a method -/

section Arguments

variable {r : Registry} {m : Method} {a : Argument} {earlier before after : List Argument}

/-- Arguments differ in name if the last has none of the names before it. -/
theorem nodup_map_concat_iff :
    ((earlier ++ [a]).map (·.name)).Nodup ↔
      (earlier.map (·.name)).Nodup ∧ earlier.any (·.name == a.name) = false := by
  simp [List.nodup_append, List.any_eq_false]

/-- Where names differ, no argument has the name of an earlier one. -/
theorem any_name_eq_false (h : ((earlier ++ a :: after).map (·.name)).Nodup) :
    earlier.any (·.name == a.name) = false := by
  rw [List.append_cons, List.map_append] at h
  exact (nodup_map_concat_iff.mp (List.nodup_append.mp h).1).2

namespace Method

/-- The check of a method comes to an argument that stands behind some others: the return type and
the others are valid, and up to the argument all names differ. -/
structure Reaches (r : Registry) (m : Method) (before : List Argument) (a : Argument) : Prop where
  returnType : (m.returnType.check r).passes = true
  returned : m.returnFault? = none
  accepted : ∀ e ∈ before, (e.check r m).passes = true
  distinct : ((before ++ [a]).map (·.name)).Nodup

/-- Behind valid arguments of other names an argument is checked. -/
theorem includes_checkArguments (haccepted : ∀ e ∈ before, (e.check r m).passes = true)
    (hdistinct : ((earlier ++ before ++ [a]).map (·.name)).Nodup) (after : List Argument) :
    Includes (a.check r m).run.diagnostics
      (m.checkArguments r (withEarlierFrom earlier (before ++ a :: after))) := by
  -- `earlier` grows by each argument that is passed, as in the list that is checked
  induction before generalizing earlier with
  | nil =>
    rw [List.append_nil] at hdistinct
    rw [List.nil_append, withEarlierFrom, checkArguments, any_name_eq_false hdistinct]
    exact .front (.self _)
  | cons e before ih =>
    rw [List.forall_mem_cons] at haccepted
    rw [List.append_assoc, List.cons_append] at hdistinct
    rw [List.cons_append, withEarlierFrom, checkArguments, any_name_eq_false hdistinct]
    refine .behind_ok (passes_iff.mp haccepted.1) (ih haccepted.2 ?_)
    simpa using hdistinct

/-- If the check does not come to an argument, only its name matters. -/
theorem checkArguments_eq_of_hidden (hearlier : (earlier.map (·.name)).Nodup)
    (hhidden : (∀ e ∈ before, (e.check r m).passes = true) →
      ¬ ((earlier ++ before ++ [a]).map (·.name)).Nodup)
    {b : Argument} (hname : b.name = a.name) (after after' : List Argument) :
    (m.checkArguments r (withEarlierFrom earlier (before ++ b :: after'))).run =
      (m.checkArguments r (withEarlierFrom earlier (before ++ a :: after))).run := by
  induction before generalizing earlier with
  | nil =>
    have htaken : earlier.any (·.name == a.name) = true := by
      by_contra hfresh
      refine hhidden (by simp) ?_
      rw [List.append_nil]
      exact nodup_map_concat_iff.mpr ⟨hearlier, Bool.not_eq_true _ ▸ hfresh⟩
    simp only [List.nil_append, withEarlierFrom, checkArguments, hname, htaken, if_true]
  | cons e before ih =>
    simp only [List.cons_append, withEarlierFrom, checkArguments]
    split
    · rfl
    · next hfresh =>
      have hearlier' := nodup_map_concat_iff.mpr ⟨hearlier, Bool.not_eq_true _ ▸ hfresh⟩
      -- the rest is looked at only if this argument is accepted
      cases hvalue : (e.check r m).run.value with
      | error cause => rw [run_bind_of_error hvalue, run_bind_of_error hvalue]
      | ok accepted =>
        rw [run_bind_of_ok hvalue, run_bind_of_ok hvalue]
        cases accepted with
        | false => rfl
        | true =>
          have hrest := ih hearlier' fun haccepted => by
            simpa using hhidden (List.forall_mem_cons.mpr ⟨passes_iff.mpr hvalue, haccepted⟩)
          simp only [if_true, hrest]

/-- An argument that the check comes to is reported on. -/
theorem Reaches.includes_check (h : m.Reaches r before a)
    (harguments : m.arguments = before ++ a :: after) :
    Includes (a.check r m).run.diagnostics (m.check r) := by
  rw [check]
  refine .behind_ok (passes_iff.mp h.returnType) ?_
  rw [h.returned, harguments]
  exact includes_checkArguments h.accepted h.distinct after

/-- Of its own arguments a method has only the list that is checked. -/
theorem checkArguments_with (r : Registry) (m : Method) (arguments : List Argument)
    (xs : List (List Argument × Argument)) :
    checkArguments r { m with arguments } xs = m.checkArguments r xs := by
  induction xs with
  | nil => rfl
  | cons x xs ih => rw [checkArguments, checkArguments, ih]; rfl

/-- The check of a method, as it depends on the list of arguments: the type that is returned comes
first, and ends it with the first problem there. -/
theorem check_with (r : Registry) (m : Method) (arguments : List Argument) :
    check r { m with arguments } = (do
      if !(← m.returnType.check r) then
        return false
      else
        match m.returnFault? with
        | some fault => Reporting.reject (fault.diagnostic m.location)
        | none => m.checkArguments r (withEarlier arguments)) := by
  simp only [check, checkArguments_with]
  rfl

/-- An argument that the check does not come to is not looked at but for its name. -/
theorem check_eq_of_not_reaches (h : ¬ m.Reaches r before a)
    (harguments : m.arguments = before ++ a :: after) {b : Argument} (hname : b.name = a.name)
    (after' : List Argument) :
    (check r { m with arguments := before ++ b :: after' }).run = (m.check r).run := by
  rw [check_with, check, harguments]
  cases hvalue : (m.returnType.check r).run.value with
  | error cause => rw [run_bind_of_error hvalue, run_bind_of_error hvalue]
  | ok valid =>
    rw [run_bind_of_ok hvalue, run_bind_of_ok hvalue]
    cases valid with
    | false => rfl
    | true =>
      cases hfault : m.returnFault? with
      | some fault => rfl
      | none =>
        have hnone : (([] : List Argument).map (·.name)).Nodup := List.nodup_nil
        have hrest : (m.checkArguments r (withEarlier (before ++ b :: after'))).run =
            (m.checkArguments r (withEarlier (before ++ a :: after))).run :=
          checkArguments_eq_of_hidden hnone
            (fun haccepted hdistinct => h ⟨passes_iff.mpr hvalue, hfault, haccepted, hdistinct⟩)
            hname after after'
        simp only [Bool.not_true, Bool.false_eq_true, if_false, hrest]

end Method

end Arguments

/-! ### Interfaces -/

section Interfaces

variable {r : Registry} {ds : List Diagnostic}

/-- All methods are checked, so that what is reported about one of them alone is reported about them
together. -/
theorem Method.includes_checkAll {methods : List Method}
    (hknown : ∀ m ∈ methods, m.returnType.Known r ∧ ∀ a ∈ m.arguments, a.type.Known r)
    {m : Method} (hm : m ∈ methods) (h : Includes ds (m.check r)) :
    Includes ds (checkAll r methods) := by
  obtain ⟨earlier, hmem⟩ := exists_mem_withEarlier hm
  refine .checkEach (fun x hx => ?_) hmem (.front h)
  exact .bind (completes_check (hknown x.2 (mem_of_mem_withEarlier hx))) fun _ =>
    .bind (.lift _) fun _ => .pure _

/-- Nothing that the check of an interface looks at before the methods ends it. -/
theorem Header.includes_checkInterface {h : Header} {ms : Members} (hknown : ms.Known r)
    {m : Method} (hm : m ∈ ms.methods) (hincludes : Includes ds (m.check r)) :
    Includes ds (h.checkInterface r ms) := by
  refine .behind (.lift _) fun _ => .behind (.lift _) fun _ => .front ?_
  exact Method.includes_checkAll (fun _ hm => hknown.method hm) hm hincludes

/-- **Arguments are reported on up to the first problem of their method**: in an interface whose
types are known, as all resolved types are that were read in a reachable registry, whatever is wrong
with an argument is reported, whatever else is wrong in the interface, if the check of its method
comes to the argument; and if the argument is rejected there is an error among it. If the check of
the method does not come to it, that check says the same with any argument of the name instead. -/
theorem Decl.check_reports_argument (d : Decl) (hknown : d.members.Known r)
    (hkind : d.kind = .interface) {m : Method} (hm : m ∈ d.methods) {before after : List Argument}
    {a : Argument} (harguments : m.arguments = before ++ a :: after) :
    (m.Reaches r before a →
      (a.check r m).run.diagnostics <:+: (d.check r).run.diagnostics) ∧
    ((a.check r m).run.value = .ok false →
      ∃ e ∈ (a.check r m).run.diagnostics, e.isError = true) ∧
    (¬ m.Reaches r before a → ∀ b after', b.name = a.name →
      (Method.check r { m with arguments := before ++ b :: after' }).run = (m.check r).run) := by
  refine ⟨fun hreaches => ?_, fun hvalue => ?_, fun hreaches b after' hname => ?_⟩
  · have hmethod := hreaches.includes_check harguments
    obtain ⟨header, body⟩ := d
    cases body with
    | interface isOneway ms => exact header.includes_checkInterface hknown hm hmethod
    | _ => cases hkind
  · have hhonest := a.honest_check r m
    rw [Fallible.Honest, hvalue] at hhonest
    exact hhonest.exists_error
  · exact Method.check_eq_of_not_reaches hreaches harguments hname after'

/-- An array without a direction stops the check of its method; the argument in the method behind it
is reported on all the same. -/
theorem Decl.check_reports_argument_laterMethod :
    let loc : Nat → Location := fun line => ⟨"IClock.aidl", some ⟨⟨line, 1⟩, ⟨line, 2⟩⟩⟩
    let list : Argument :=
      ⟨loc 3, { TypeSpec.builtin (loc 3) "int" with isArray := true }, "list", none⟩
    let zone : Argument := ⟨loc 5, .builtin (loc 5) "String", "zone", none⟩
    let hour : Argument := ⟨loc 6, .builtin (loc 6) "int", "hour", some .output⟩
    let tick : Method :=
      { location := loc 2, returnType := .builtin (loc 2) "void", name := "tick",
        arguments := [list] }
    let set : Method :=
      { location := loc 4, returnType := .builtin (loc 4) "void", name := "set",
        arguments := [zone, hour] }
    let d : Decl := ⟨⟨loc 1, "p", "IClock", "", {}⟩, .interface false { methods := [tick, set] }⟩
    let r := (Registry.empty.addDocument ⟨[], [d]⟩).value
    r.Reachable Document.IsFresh ∧ d.members.Known r ∧ set.Reaches r [zone] hour ∧
      (hour.check r set).run.value = .ok false ∧
      [(MethodFault.notOut "hour" "out" "'int'").diagnostic (loc 6)] <:+:
        (d.check r).run.diagnostics ∧
      ∃ e ∈ (hour.check r set).run.diagnostics, e.isError = true := by
  intro loc list zone hour tick set d r
  have hr : r.Reachable Document.IsFresh := .addDocument .empty (by decide +kernel)
  have hknown : d.members.Known r := hr.known_of_isFresh (by decide +kernel) (by decide +kernel)
  have hreaches : set.Reaches r [zone] hour :=
    ⟨by decide +kernel, by decide +kernel, by decide +kernel, by decide +kernel⟩
  have hset : set ∈ d.methods := List.mem_cons_of_mem tick List.mem_cons_self
  have harguments : set.arguments = [zone] ++ hour :: [] := rfl
  obtain ⟨hreported, herror, -⟩ := d.check_reports_argument hknown rfl hset harguments
  have hvalue : (hour.check r set).run.value = .ok false :=
    toOption_eq_some_iff.mp (by decide +kernel)
  have hreport : (hour.check r set).run.diagnostics =
      [(MethodFault.notOut "hour" "out" "'int'").diagnostic (loc 6)] := by
    decide +kernel
  exact ⟨hr, hknown, hreaches, hvalue, hreport ▸ hreported hreaches, herror hvalue⟩

/-- Of two arguments of one method that are rejected by themselves only the first is reported on. -/
theorem Decl.check_hides_argument :
    let loc : Nat → Location := fun line => ⟨"IClock.aidl", some ⟨⟨line, 1⟩, ⟨line, 2⟩⟩⟩
    let list : Argument :=
      ⟨loc 3, { TypeSpec.builtin (loc 3) "int" with isArray := true }, "list", none⟩
    let hour : Argument := ⟨loc 4, .builtin (loc 4) "int", "hour", some .output⟩
    let set : Method :=
      { location := loc 2, returnType := .builtin (loc 2) "void", name := "set",
        arguments := [list, hour] }
    let d : Decl := ⟨⟨loc 1, "p", "IClock", "", {}⟩, .interface false { methods := [set] }⟩
    let r := (Registry.empty.addDocument ⟨[], [d]⟩).value
    r.Reachable Document.IsFresh ∧ d.members.Known r ∧ set ∈ d.methods ∧ hour ∈ set.arguments ∧
      (hour.check r set).run.value = .ok false ∧
      ∃ e ∈ (hour.check r set).run.diagnostics, e.isError = true ∧
        e ∉ (d.check r).run.diagnostics := by
  intro loc list hour set d r
  have hr : r.Reachable Document.IsFresh := .addDocument .empty (by decide +kernel)
  have hknown : d.members.Known r := hr.known_of_isFresh (by decide +kernel) (by decide +kernel)
  have hvalue : (hour.check r set).run.value = .ok false :=
    toOption_eq_some_iff.mp (by decide +kernel)
  exact ⟨hr, hknown, List.mem_cons_self, List.mem_cons_of_mem list List.mem_cons_self, hvalue, by
    decide +kernel⟩

end Interfaces

end InterfaceDefinition
