import InterfaceDefinition.Proofs.Acceptance.FieldOwners
import InterfaceDefinition.Proofs.Verdict.Validation

/-!
# Declarations that pass their check

A declaration that passes its check has members of the sorts that its kind admits only, and the
types of its values, those of fields, results and arguments, pass theirs
(`Decl.valueTypes_of_passes`). Whatever its kind, its fields and constants are valid by themselves
(`Decl.isValid_of_passes`), and so are its methods (`Decl.isValid_methods_of_passes`) and all types
in it (`Decl.isValid_typeSpecs_of_passes`). A validation that accepts a document for a backend has
come through all of its phases: in the registry that it leaves, the document passes the general
checks and those of the backend (`Registry.accepted_of_mem_backends`).
-/

namespace InterfaceDefinition

open Fallible

variable {r : Registry} {scope : String}

/-! ### Members -/

/-- The check of an argument begins with that of its type, so it cannot pass without it. -/
theorem Argument.passes_type {m : Method} {a : Argument} (h : (a.check r m).passes = true) :
    (a.type.check r).passes = true :=
  (passes_guard_iff.mp h).1

namespace Method

variable {m : Method}

/-- Arguments are checked one after the other, up to the first that fails. -/
theorem passes_argument {arguments : List (List Argument × Argument)}
    (h : (m.checkArguments r arguments).passes = true) :
    ∀ x ∈ arguments, (x.2.check r m).passes = true := by
  induction arguments with
  | nil => simp
  | cons x rest ih =>
    obtain ⟨earlier, a⟩ := x
    rw [checkArguments] at h
    split at h
    · simp [Reporting.reject] at h
    · obtain ⟨valid, hvalid, h⟩ := passes_bind_iff.mp h
      cases valid with
      | false => simp at h
      | true => exact List.forall_mem_cons.mpr ⟨passes_iff.mpr hvalid, ih h⟩

/-- The result and the arguments of a method that passes its check have types that pass. -/
theorem passes_types (h : (m.check r).passes = true) :
    ∀ t ∈ m.returnType :: m.arguments.map (·.type), (t.check r).passes = true := by
  obtain ⟨hreturn, h⟩ := passes_guard_iff.mp h
  refine List.forall_mem_cons.mpr ⟨hreturn, List.forall_mem_map.mpr fun a ha => ?_⟩
  split at h
  · simp [Reporting.reject] at h
  · obtain ⟨earlier, hmem⟩ := exists_mem_withEarlier ha
    have hpasses : (a.check r m).passes = true := passes_argument h (earlier, a) hmem
    exact Argument.passes_type hpasses

/-- When all methods pass together, each passes by itself. -/
theorem passes_of_checkAll {methods : List Method} (h : (checkAll r methods).passes = true) :
    ∀ m ∈ methods, (m.check r).passes = true := by
  rw [checkAll, passes_checkEach_iff] at h
  intro m hm
  obtain ⟨earlier, hmem⟩ := exists_mem_withEarlier hm
  exact (passes_and_iff.mp (h _ hmem)).1

end Method

/-! ### The kinds -/

namespace Header

variable {h : Header} {ms : Members}

/-- The rules for members include the check of the type of every field. -/
theorem MemberRules.passes_types (hrules : h.MemberRules r ms) :
    ∀ t ∈ ms.fields.map (·.type), (t.check r).passes = true :=
  List.forall_mem_map.mpr fun f hf =>
    TypeSpec.passes_check_iff_isValid.mpr (hrules.fields f hf).type

/-- An enum that passes has no members besides its enumerators. -/
theorem isEmpty_of_passes_enum {enumerators : List (Enumerator × Expr)} {backing : Option TypeSpec}
    (hpasses : (h.checkEnum r enumerators backing ms).passes = true) : ms.isEmpty = true := by
  have hrest := (passes_guard_iff.mp hpasses).2
  cases hempty : ms.isEmpty with
  | true => rfl
  | false => simp [hempty, Reporting.reject] at hrest

/-- What of an interface that passes is needed below: it has no fields, and its methods and
constants are valid. -/
theorem passes_interface (hpasses : (h.checkInterface r ms).passes = true) :
    ms.fields = [] ∧ (∀ m ∈ ms.methods, (m.check r).passes = true) ∧
      ∀ c ∈ ms.constants, c.IsValid r h.canonicalName := by
  obtain ⟨annotations, -, hpasses⟩ := passes_bind_iff.mp hpasses
  obtain ⟨noFields, hfields, hpasses⟩ := passes_bind_iff.mp hpasses
  obtain ⟨methods, hmethods, hpasses⟩ := passes_bind_iff.mp hpasses
  obtain ⟨constants, hconstants, hpasses⟩ := passes_bind_iff.mp hpasses
  have hverdicts : noFields = true ∧ methods = true ∧ constants = true := by
    -- the advice about the name changes nothing
    split at hpasses
    · obtain ⟨_, -, hpasses⟩ := passes_bind_iff.mp hpasses
      simp only [passes_pure, Bool.and_eq_true] at hpasses
      exact ⟨hpasses.1.1.2, hpasses.1.2, hpasses.2⟩
    · simp only [passes_pure, Bool.and_eq_true] at hpasses
      exact ⟨hpasses.1.1.2, hpasses.1.2, hpasses.2⟩
  obtain ⟨rfl, rfl, rfl⟩ := hverdicts
  have hnone : (Reporting.verdict (h.fieldsFault? ms.fields)).value = true := Except.ok.inj hfields
  refine ⟨by simpa [fieldsFault?] using hnone,
    Method.passes_of_checkAll (passes_iff.mpr hmethods), ?_⟩
  exact (Constant.decides_checkAll.passes_iff.mp (passes_iff.mpr hconstants)).2

end Header

/-! ### Declarations -/

namespace Decl

/-- The types of the values that a declaration passes on: those of its fields, and of the results
and the arguments of its methods. -/
def valueTypes (d : Decl) : List TypeSpec :=
  d.fields.map (·.type) ++ d.methods.flatMap fun m => m.returnType :: m.arguments.map (·.type)

/-- A declaration that passes its check has no types of values but those that are checked for
backends, and they pass the general check. -/
theorem valueTypes_of_passes {d : Decl} (hpasses : (d.check r).passes = true) :
    d.valueTypes = d.backendTypes ∧ ∀ t ∈ d.valueTypes, (t.check r).passes = true := by
  have hof : ∀ ts, d.valueTypes = ts → d.backendTypes = ts →
      (∀ t ∈ ts, (t.check r).passes = true) →
      d.valueTypes = d.backendTypes ∧ ∀ t ∈ d.valueTypes, (t.check r).passes = true := by
    rintro ts rfl hbackend hts
    exact ⟨hbackend.symm, hts⟩
  obtain ⟨header, body⟩ := d
  cases body with
  | parcelable typeParams cppHeader => exact hof [] rfl rfl (by simp)
  | structured typeParams ms =>
    have hrules : header.StructuredRules r typeParams ms :=
      Header.decides_checkStructured.passes_iff.mp hpasses
    refine hof (ms.fields.map (·.type)) ?_ rfl hrules.passes_types
    simp [valueTypes, methods, fields, members, members?, hrules.methods]
  | union typeParams ms =>
    have hrules : header.UnionRules r typeParams ms :=
      Header.decides_checkUnion.passes_iff.mp hpasses
    refine hof (ms.fields.map (·.type)) ?_ rfl hrules.passes_types
    simp [valueTypes, methods, fields, members, members?, hrules.methods]
  | enum enumerators backing ms =>
    have hempty : ms.isEmpty = true := Header.isEmpty_of_passes_enum hpasses
    simp only [Members.isEmpty, Bool.and_eq_true, List.isEmpty_iff] at hempty
    refine hof [] ?_ rfl (by simp)
    simp [valueTypes, methods, fields, members, members?, hempty]
  | interface isOneway ms =>
    obtain ⟨hfields, hmethods, -⟩ := Header.passes_interface hpasses
    refine hof _ ?_ rfl (List.forall_mem_flatMap.mpr fun m hm => ?_)
    · rw [valueTypes, fields, hfields]
      rfl
    · exact Method.passes_types (hmethods m hm)

/-- The fields and constants of a declaration that passes its check are valid: where the kind
admits none, there are none. -/
theorem isValid_of_passes {d : Decl} (hpasses : (d.check r).passes = true) :
    (∀ f ∈ d.fields, f.IsValid r d.canonicalName) ∧
      ∀ c ∈ d.constants, c.IsValid r d.canonicalName := by
  obtain ⟨header, body⟩ := d
  cases body with
  | parcelable typeParams cppHeader => simp [fields, constants, members, members?]
  | structured typeParams ms =>
    have hrules : header.StructuredRules r typeParams ms :=
      Header.decides_checkStructured.passes_iff.mp hpasses
    exact ⟨hrules.fields, hrules.constants⟩
  | union typeParams ms =>
    have hrules : header.UnionRules r typeParams ms :=
      Header.decides_checkUnion.passes_iff.mp hpasses
    exact ⟨hrules.fields, hrules.constants⟩
  | enum enumerators backing ms =>
    have hempty : ms.isEmpty = true := Header.isEmpty_of_passes_enum hpasses
    simp only [Members.isEmpty, Bool.and_eq_true, List.isEmpty_iff] at hempty
    simp [fields, constants, members, members?, hempty]
  | interface isOneway ms =>
    obtain ⟨hfields, -, hconstants⟩ := Header.passes_interface hpasses
    refine ⟨?_, hconstants⟩
    rw [fields, hfields]
    simp

/-- The methods of a declaration of known types that passes its check are valid. -/
theorem isValid_methods_of_passes {d : Decl} (hknown : d.members.Known r)
    (hpasses : (d.check r).passes = true) : ∀ m ∈ d.methods, m.IsValid r m.isOneway := by
  obtain ⟨header, body⟩ := d
  cases body with
  | parcelable typeParams cppHeader => simp [methods, members, members?]
  | structured typeParams ms =>
    have hrules : header.StructuredRules r typeParams ms :=
      Header.decides_checkStructured.passes_iff.mp hpasses
    simp [methods, members, members?, hrules.methods]
  | union typeParams ms =>
    have hrules : header.UnionRules r typeParams ms :=
      Header.decides_checkUnion.passes_iff.mp hpasses
    simp [methods, members, members?, hrules.methods]
  | enum enumerators backing ms =>
    have hempty : ms.isEmpty = true := Header.isEmpty_of_passes_enum hpasses
    simp only [Members.isEmpty, Bool.and_eq_true, List.isEmpty_iff] at hempty
    simp [methods, members, members?, hempty]
  | interface isOneway ms =>
    have hrules := (Header.decides_checkInterface hknown).passes_iff.mp hpasses
    intro m hm
    simpa using hrules.methods m hm

/-- Every type of a declaration that passes its check is valid. -/
theorem isValid_typeSpecs_of_passes {d : Decl} (hpasses : (d.check r).passes = true) :
    ∀ t ∈ d.typeSpecs, t.IsValid r := by
  have hvalues := (valueTypes_of_passes hpasses).2
  have hconstants := (isValid_of_passes hpasses).2
  intro t ht
  simp only [typeSpecs, Members.typeSpecs, List.mem_append, List.mem_map] at ht
  rcases ht with (hfield | ⟨c, hc, rfl⟩) | hmethod
  · exact TypeSpec.passes_check_iff_isValid.mp
      (hvalues t (List.mem_append_left _ (List.mem_map.mpr hfield)))
  · exact (hconstants c hc).type
  · exact TypeSpec.passes_check_iff_isValid.mp (hvalues t (List.mem_append_right _ hmethod))

end Decl

/-! ### Validations -/

namespace Registry

variable {number : Nat} {options : Options}

/-- The general part of a validation passes only when the document passes its checks in the registry
that the part leaves. -/
theorem passes_of_checkGenerally (h : (r.checkGenerally number).value.2 = .ok true) :
    ∃ doc, (r.checkGenerally number).value.1.document? number = some doc ∧
      (doc.check (r.checkGenerally number).value.1).passes = true := by
  rcases r.checkGenerally_cases number with ⟨hne, heq⟩ | ⟨-, hne, heq⟩ | ⟨-, -, heq⟩
  · exact absurd (heq ▸ h) hne
  · rw [heq] at h
    exact absurd h hne
  · rw [heq] at h ⊢
    dsimp only at h ⊢
    rw [checkDocument] at h
    split at h
    · simp at h
    · next doc hdoc => exact ⟨doc, hdoc, passes_iff.mpr h⟩

/-- A document that a validation accepts passes its checks in the registry that the validation
leaves. -/
theorem passes_of_valid {report : ValidationReport} (h : (r.validate number options).2 = .ok report)
    (hvalid : report.valid = true) :
    ∃ doc, (r.validate number options).1.document? number = some doc ∧
      (doc.check (r.validate number options).1).passes = true := by
  have hafter : (r.validate number options).1 = (r.checkGenerally number).value.1 := by
    rw [validate_eq]
  rw [hafter]
  exact passes_of_checkGenerally (passed_of_valid h hvalid).1

/-- A document that a validation accepts for a backend passes, in the registry that the validation
leaves, the general checks and those of the backend. -/
theorem accepted_of_mem_backends {report : ValidationReport} {b : Backend}
    (h : (r.validate number options).2 = .ok report) (hb : (b, true) ∈ report.backends) :
    ∃ doc, (r.validate number options).1.document? number = some doc ∧
      (doc.check (r.validate number options).1).passes = true ∧
      (doc.checkFor (r.validate number options).1 b).value = true := by
  have hafter : (r.validate number options).1 = (r.checkGenerally number).value.1 := by
    rw [validate_eq]
  rw [hafter]
  obtain ⟨passed, hpassed, hcases⟩ := validate_ok_cases h
  rcases hcases with ⟨-, rfl⟩ | ⟨rfl, -, rfl⟩
  · exact absurd hb List.not_mem_nil
  · obtain ⟨doc, hdoc, hpasses⟩ := passes_of_checkGenerally hpassed
    refine ⟨doc, hdoc, hpasses, ?_⟩
    obtain ⟨b', -, heq⟩ := List.mem_map.mp hb
    obtain ⟨rfl, hverdict⟩ := Prod.mk.inj heq
    rwa [checkBackend, hdoc] at hverdict

end Registry

end InterfaceDefinition
