import InterfaceDefinition.Proofs.Abandonment.Cause
import InterfaceDefinition.Proofs.Verdict.Checks

/-!
# The codes of checks

Diagnostics carry codes, and every check has its own: the check of an annotation, of a type, of a
field, a constant or a method reports nothing but diagnostics under the codes that are listed for it
(`Fallible.Under`). What a larger check reports under one code is therefore found in the few lines
of it that have this code (`Fallible.Lists`), whatever else is wrong.
-/

namespace InterfaceDefinition

namespace Diagnostic

variable {codes codes' : List String} {code : String} {ds : List Diagnostic}

/-- A diagnostic under one of the given codes. -/
def HasCode (codes : List String) (d : Diagnostic) : Prop :=
  ∃ code ∈ codes, d.code = some code

theorem HasCode.mono (hsubset : codes ⊆ codes') {d : Diagnostic} (h : d.HasCode codes) :
    d.HasCode codes' := by
  obtain ⟨code, hmem, hcode⟩ := h
  exact ⟨code, hsubset hmem, hcode⟩

/-- The diagnostics under a code, in order. -/
def coded (code : String) (ds : List Diagnostic) : List Diagnostic :=
  ds.filter fun d => d.code == some code

theorem coded_append (code : String) (ds ds' : List Diagnostic) :
    coded code (ds ++ ds') = coded code ds ++ coded code ds' :=
  List.filter_append ..

theorem coded_eq_nil (h : ∀ d ∈ ds, d.HasCode codes) (hcode : code ∉ codes) :
    coded code ds = [] := by
  refine List.filter_eq_nil_iff.mpr fun d hd heq => ?_
  obtain ⟨other, hmem, hother⟩ := h d hd
  rw [hother, beq_iff_eq, Option.some.injEq] at heq
  exact hcode (heq ▸ hmem)

theorem coded_eq_self (h : ∀ d ∈ ds, d.code = some code) : coded code ds = ds :=
  List.filter_eq_self.mpr fun d hd => by simp [h d hd]

end Diagnostic

open Diagnostic

/-! ### Checks that report under some codes -/

/-- A check that reports only under some codes. -/
def Reporting.Under {α : Type} (codes : List String) (x : Reporting α) : Prop :=
  ∀ d ∈ x.diagnostics, d.HasCode codes

namespace Reporting.Under

variable {codes codes' : List String}

theorem mono {α : Type} {x : Reporting α} (hsubset : codes ⊆ codes') (h : x.Under codes) :
    x.Under codes' :=
  fun d hd => (h d hd).mono hsubset

protected theorem pure {α : Type} (a : α) : Under codes (pure a) :=
  fun _ hd => absurd hd List.not_mem_nil

theorem bind {α β : Type} {x : Reporting α} {f : α → Reporting β} (hx : x.Under codes)
    (hf : ∀ a, (f a).Under codes) : (x >>= f).Under codes :=
  List.forall_mem_append.mpr ⟨hx, hf x.value⟩

theorem reject {d : Diagnostic} (h : d.HasCode codes) : Under codes (Reporting.reject d) :=
  List.forall_mem_singleton.mpr h

theorem report {d : Diagnostic} (h : d.HasCode codes) : Under codes (Reporting.report d) :=
  List.forall_mem_singleton.mpr h

theorem verdict {fault : Option Diagnostic} (h : ∀ d ∈ fault, d.HasCode codes) :
    Under codes (Reporting.verdict fault) := by
  intro d hd
  rw [diagnostics_verdict, Option.mem_toList] at hd
  exact h d hd

theorem verdict_map {α : Type} {fault : Option α} {diagnostic : α → Diagnostic}
    (h : ∀ a, (diagnostic a).HasCode codes) :
    Under codes (Reporting.verdict (fault.map diagnostic)) :=
  verdict fun d hd => by
    obtain ⟨a, -, rfl⟩ := Option.map_eq_some_iff.mp hd
    exact h a

theorem verdict_if {c : Prop} [Decidable c] {d : Diagnostic} (h : d.HasCode codes) :
    Under codes (Reporting.verdict (if c then some d else none)) :=
  verdict fun d' hd => by
    split at hd
    · exact Option.some.inj hd ▸ h
    · simp at hd

theorem verdict_unless {c : Prop} [Decidable c] {d : Diagnostic} (h : d.HasCode codes) :
    Under codes (Reporting.verdict (if c then none else some d)) :=
  verdict fun d' hd => by
    split at hd
    · simp at hd
    · exact Option.some.inj hd ▸ h

protected theorem checkEach {α : Type} {check : α → Reporting Bool} {xs : List α}
    (h : ∀ x ∈ xs, (check x).Under codes) : Under codes (checkEach check xs) := by
  rw [Under, diagnostics_checkEach, List.forall_mem_flatMap]
  exact h

end Reporting.Under

namespace Fallible

/-- A check that may be abandoned and reports only under some codes. -/
def Under {α : Type} (codes : List String) (x : Fallible α) : Prop :=
  ∀ d ∈ x.run.diagnostics, d.HasCode codes

namespace Under

variable {codes codes' : List String} {α β : Type}

theorem mono {x : Fallible α} (hsubset : codes ⊆ codes') (h : x.Under codes) : x.Under codes' :=
  fun d hd => (h d hd).mono hsubset

protected theorem pure (a : α) : Under codes (pure a) :=
  fun _ hd => absurd hd List.not_mem_nil

theorem lift {x : Reporting α} (h : x.Under codes) : Under codes (liftM x) := by
  have hrun : (liftM x : Fallible α).run.diagnostics = x.diagnostics ++ [] := rfl
  rw [Under, hrun, List.append_nil]
  exact h

/-- A part that reports nothing. -/
theorem answer (answer : Except InternalError α) : Under codes (ExceptT.mk (pure answer)) :=
  fun _ hd => absurd hd List.not_mem_nil

theorem bind {x : Fallible α} {f : α → Fallible β} (hx : x.Under codes)
    (hf : ∀ a, x.run.value = .ok a → (f a).Under codes) : (x >>= f).Under codes := by
  rw [Under]
  cases h : x.run.value with
  | error e =>
    rw [run_bind_of_error h]
    exact hx
  | ok a =>
    rw [run_bind_of_ok h]
    exact List.forall_mem_append.mpr ⟨hx, hf a h⟩

protected theorem checkEach {check : α → Fallible Bool} {xs : List α}
    (h : ∀ x ∈ xs, (check x).Under codes) : Under codes (checkEach check xs) := by
  induction xs with
  | nil => exact .pure true
  | cons x xs ih =>
    rw [List.forall_mem_cons] at h
    exact .bind h.1 fun _ _ => .bind (ih h.2) fun _ _ => .pure _

end Under

/-- A check that is not abandoned and reports some diagnostics, in order, under a code. -/
structure Lists {α : Type} (code : String) (x : Fallible α) (ds : List Diagnostic) : Prop where
  completes : x.Completes
  coded_eq : coded code x.run.diagnostics = ds

namespace Lists

variable {code : String} {α β : Type} {ds ds' : List Diagnostic}

protected theorem pure (a : α) : Lists code (pure a) [] :=
  ⟨.pure a, rfl⟩

theorem lift {x : Reporting α} (h : coded code x.diagnostics = ds) : Lists code (liftM x) ds := by
  have hrun : (liftM x : Fallible α).run.diagnostics = x.diagnostics ++ [] := rfl
  refine ⟨.lift x, ?_⟩
  rw [hrun, List.append_nil, h]

/-- A check that has other codes. -/
theorem of_under {codes : List String} {x : Fallible α} (hcompletes : x.Completes)
    (h : x.Under codes) (hcode : code ∉ codes) : Lists code x [] :=
  ⟨hcompletes, coded_eq_nil h hcode⟩

theorem bind {x : Fallible α} {f : α → Fallible β} (hx : Lists code x ds)
    (hf : ∀ a, Lists code (f a) ds') : Lists code (x >>= f) (ds ++ ds') := by
  refine ⟨.bind hx.completes fun a => (hf a).completes, ?_⟩
  obtain ⟨a, ha⟩ := hx.completes.exists_value
  rw [run_bind_of_ok ha, coded_append, hx.coded_eq, (hf a).coded_eq]

/-- A part in front that has other codes. -/
theorem skip {x : Fallible α} {f : α → Fallible β} (hx : Lists code x [])
    (hf : ∀ a, Lists code (f a) ds) : Lists code (x >>= f) ds :=
  hx.bind hf

/-- A part in front of parts that have other codes. -/
theorem before {x : Fallible α} {f : α → Fallible β} (hx : Lists code x ds)
    (hf : ∀ a, Lists code (f a) []) : Lists code (x >>= f) ds :=
  List.append_nil ds ▸ hx.bind hf

/-- A check of every element lists what the checks of the elements list. -/
protected theorem checkEach {check : α → Fallible Bool} {f : α → List Diagnostic} {xs : List α}
    (h : ∀ x ∈ xs, Lists code (check x) (f x)) :
    Lists code (checkEach check xs) (xs.flatMap f) := by
  induction xs with
  | nil => exact .pure true
  | cons x xs ih =>
    rw [List.forall_mem_cons] at h
    rw [InterfaceDefinition.checkEach, List.flatMap_cons]
    exact h.1.bind fun _ => (ih h.2).before fun _ => .pure _

end Lists

end Fallible

open Fallible

/-! ### Annotations -/

/-- The codes of the check of an annotation. -/
def Annotation.codes : List String :=
  ["E0002", "E0003", "E0004", "E0005"]

theorem AnnotationFault.hasCode_diagnostic (fault : AnnotationFault) (loc : Location) :
    (fault.diagnostic loc).HasCode Annotation.codes :=
  ⟨fault.code, by cases fault <;> simp [code, Annotation.codes], rfl⟩

theorem Annotation.under_check (a : Annotation) : a.check.Under codes := by
  refine .bind (.checkEach fun _ _ => .verdict fun d hd => ?_) fun _ => ?_
  · obtain ⟨fault, loc, rfl⟩ := exists_of_mem_paramFault? hd
    exact fault.hasCode_diagnostic loc
  · exact .bind (.checkEach fun _ _ => .verdict_unless (AnnotationFault.hasCode_diagnostic ..))
      fun _ => .pure _

namespace AnnotationSet

/-- The codes of the check of the annotations of a node. -/
def codes : List String :=
  Annotation.codes ++ ["E0006", "E0007"]

theorem under_checkOne (owner : Location) (supported : List AnnotationKind)
    (seen : List Annotation) (a : Annotation) :
    (checkOne owner supported seen a).Under codes := by
  rw [checkOne]
  split
  · exact .bind (.report ⟨"E0006", by simp [codes], rfl⟩) fun _ => .pure _
  · refine .bind (a.under_check.mono (List.subset_append_left _ _)) fun _ => ?_
    split
    · exact .pure _
    · split
      · exact .pure _
      · split
        · exact .bind (.report ⟨"E0007", by simp [codes], rfl⟩) fun _ => .pure _
        · exact .pure _

theorem under_checkFrom (owner : Location) (supported : List AnnotationKind)
    (seen annotations : List Annotation) :
    (checkFrom owner supported seen annotations).Under codes := by
  induction annotations generalizing seen with
  | nil => exact .pure true
  | cons a rest ih =>
    exact .bind (under_checkOne owner supported seen a) fun one =>
      .bind (ih one.2) fun _ => .pure _

theorem under_check (s : AnnotationSet) (owner : Location) (supported : List AnnotationKind) :
    (s.check owner supported).Under codes :=
  under_checkFrom owner supported [] s.toList

end AnnotationSet

/-! ### Types -/

namespace TypeSpec

/-- The codes of the check of a type. -/
def codes : List String :=
  AnnotationSet.codes ++ ["E0102", "E0103", "E0104"]

theorem under_checkForm (r : Registry) (t : TypeSpec) : (t.checkForm r).Under codes :=
  .verdict_map fun fault => ⟨fault.code, by cases fault <;> simp [TypeFault.code, codes], rfl⟩

mutual

theorem under_check (r : Registry) : (t : TypeSpec) → (t.check r).Under codes
  | ⟨loc, base, arguments, isArray, annotations, comments⟩ => by
    rw [check]
    refine .bind (.lift ((annotations.under_check loc supportedAnnotations).mono
      (List.subset_append_left _ _))) fun _ _ => ?_
    split
    · exact .pure _
    · refine .bind (.answer _) fun _ _ => .bind (under_checkAll r arguments) fun _ _ => ?_
      split
      · exact .pure _
      · exact .lift (under_checkForm r _)

theorem under_checkAll (r : Registry) : (ts : List TypeSpec) → (checkAll r ts).Under codes
  | [] => by
    rw [checkAll]
    exact .pure _
  | t :: rest => by
    rw [checkAll]
    exact .bind (under_check r t) fun _ _ => .bind (under_checkAll r rest) fun _ _ => .pure _

end

end TypeSpec

/-! ### Members -/

variable {r : Registry} {scope : String}

theorem Registry.under_checkValue {codes : List String} (hcode : ValueFault.code ∈ codes)
    (name : String) (type : TypeSpec) (value : Expr) :
    (r.checkValue scope name type value).Under codes :=
  .verdict_map fun _ => ⟨ValueFault.code, hcode, rfl⟩

/-- The codes of the check of a field. -/
def Field.codes : List String :=
  TypeSpec.codes ++ ["E0206", "E0207"]

theorem Field.under_check (f : Field) : (f.check r scope).Under codes := by
  rw [check]
  refine .bind ((f.type.under_check r).mono (List.subset_append_left _ _)) fun _ _ => ?_
  refine .bind (.lift (.verdict_if ⟨"E0206", by simp [codes], rfl⟩)) fun _ _ => ?_
  split
  · split
    · exact .lift (Registry.under_checkValue (by simp [codes, ValueFault.code]) _ _ _)
    · exact .pure _
  · exact .pure _

/-- The codes of the check of a constant by itself. -/
def Constant.codes : List String :=
  TypeSpec.codes ++ ["E0207"]

theorem Constant.under_check (c : Constant) : (c.check r scope).Under codes := by
  rw [check]
  refine .bind ((c.type.under_check r).mono (List.subset_append_left _ _)) fun _ _ => ?_
  split
  · exact .pure _
  · split
    · exact .lift (.reject ⟨"E0207", by simp [codes], rfl⟩)
    · exact .lift (Registry.under_checkValue (by simp [codes, ValueFault.code]) _ _ _)

/-- Of several constants also names that are taken are reported. -/
theorem Constant.under_checkAll (constants : List Constant) :
    (Constant.checkAll r scope constants).Under ("E0202" :: codes) :=
  .checkEach fun (_, c) _ =>
    .bind (.lift (.verdict_if ⟨"E0202", List.mem_cons_self, rfl⟩)) fun _ _ =>
      .bind (c.under_check.mono (List.subset_cons_self _ _)) fun _ _ => .pure _

/-- The codes of the check of a method by itself. -/
def Method.codes : List String :=
  TypeSpec.codes ++ ["E0302", "E0303", "E0304", "E0305", "E0307", "W0002"]

theorem Argument.under_check (m : Method) (a : Argument) :
    (a.check r m).Under Method.codes := by
  rw [check]
  refine .bind ((a.type.under_check r).mono (List.subset_append_left _ _)) fun _ _ => ?_
  split
  · exact .pure _
  · refine .bind (.answer _) fun fault hfault => ?_
    split
    · next d =>
      obtain ⟨f, loc, hcode, rfl⟩ := exists_of_mem_fault? hfault rfl
      have hsubset : ["E0303", "E0304", "E0305", "E0307"] ⊆ Method.codes := by simp [Method.codes]
      exact .lift (.reject ⟨f.code, hsubset hcode, rfl⟩)
    · dsimp only
      split
      · exact .bind (.lift (.report ⟨"W0002", by simp [Method.codes], rfl⟩)) fun _ _ => .pure _
      · exact .pure _

namespace Method

theorem under_checkArguments (m : Method) (arguments : List (List Argument × Argument)) :
    (m.checkArguments r arguments).Under codes := by
  induction arguments with
  | nil => exact .pure _
  | cons first rest ih =>
    obtain ⟨earlier, a⟩ := first
    rw [checkArguments]
    split
    · exact .lift (.reject ⟨"E0302", by simp [codes], rfl⟩)
    · refine .bind (a.under_check m) fun _ _ => ?_
      split
      · exact ih
      · exact .pure _

theorem under_check (m : Method) : (m.check r).Under codes := by
  rw [check]
  refine .bind ((m.returnType.under_check r).mono (List.subset_append_left _ _)) fun _ _ => ?_
  split
  · exact .pure _
  · split
    · next fault hfault =>
      obtain ⟨rule, hrule, rfl⟩ := exists_mem_of_firstFault? hfault
      simp only [List.mem_cons, List.not_mem_nil, or_false] at hrule
      rcases hrule with rfl | rfl <;>
        exact .lift (.reject ⟨_, by simp [MethodFault.code, codes], rfl⟩)
    · exact m.under_checkArguments _

end Method

end InterfaceDefinition
