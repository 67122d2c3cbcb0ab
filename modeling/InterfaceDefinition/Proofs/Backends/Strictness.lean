import InterfaceDefinition.Decl.Check
import InterfaceDefinition.Proofs.Acceptance.Types

/-!
# How strict backends are

About types the backends are in a line: each keeps the rules of the ones before it and adds its own,
in the order Java, C++, Rust, NDK (`Backend.strictness`). What a type has to be like for a backend
is said without the order in which faults are looked for (`TypeSpec.SupportedBy`), and then a type
that a backend supports is supported by every less strict one (`TypeSpec.SupportedBy.mono`).

The headers of parcelables declared elsewhere cut across that line: C++ and the NDK need them, Java
and Rust do not. So a document for Rust is one for C++ only if it names all its headers
(`Document.checkFor_strictness`).
-/

namespace InterfaceDefinition

/-- How strict a backend is about types. -/
def Backend.strictness : Backend → Nat
  | java => 0
  | cpp => 1
  | rust => 2
  | ndk => 3

/-! ### Types -/

namespace TypeSpec

/-- What a type is like that a backend supports. -/
structure SupportedBy (r : Registry) (b : Backend) (t : TypeSpec) : Prop where
  /-- No backend has arrays of collections. -/
  array : t.isArray = true → t.name ∉ ["List", "Map", "CharSequence"]
  /-- Some collections exist for Java only. -/
  collection : b ≠ .java →
    (t.name = "List" → t.isGeneric = true) ∧ t.name ≠ "Map" ∧ t.name ≠ "CharSequence"
  /-- Stable native code has no holders and bare descriptors, and fewer arrays. -/
  native : b.isNativeStable = true →
    t.name ≠ "ParcelableHolder" ∧ t.name ≠ "FileDescriptor" ∧
      (t.isArray = true → t.name ≠ "IBinder" ∧ (t.isNullable = true →
        t.name ≠ "ParcelFileDescriptor" ∧ t.base.isParcelableLike = false))
  /-- The NDK has no lists of binders. -/
  ndkList : b = .ndk → t.name = "List" → ∀ element ∈ t.arguments.head?,
    r.interface? element = none ∧ element.name ≠ "IBinder"

variable {r : Registry} {b b' : Backend} {t : TypeSpec}

/-- No backend has arrays of lists, maps or character sequences. -/
theorem arrayRules_iff :
    (∀ rule ∈ t.arrayRules, rule.1 = false) ↔
      (t.isArray = true → t.name ∉ ["List", "Map", "CharSequence"]) := by
  simp [arrayRules]

/-- Lists without arguments, maps and character sequences are there for Java only. -/
theorem javaOnlyRules_iff :
    (∀ rule ∈ t.javaOnlyRules, rule.1 = false) ↔
      (t.name = "List" → t.isGeneric = true) ∧ t.name ≠ "Map" ∧ t.name ≠ "CharSequence" := by
  simp [javaOnlyRules]

/-- The rules for stable native code differ between backends in their texts only. -/
theorem nativeRules_iff :
    (∀ rule ∈ t.nativeRules b, rule.1 = false) ↔
      t.name ≠ "ParcelableHolder" ∧ t.name ≠ "FileDescriptor" ∧
        (t.isArray = true → t.name ≠ "IBinder" ∧ (t.isNullable = true →
          t.name ≠ "ParcelFileDescriptor" ∧ t.base.isParcelableLike = false)) := by
  simp only [nativeRules, List.forall_mem_cons, List.not_mem_nil, false_imp_iff, implies_true,
    and_true, Bool.and_eq_false_imp, Bool.and_eq_true, and_imp, beq_eq_false_iff_ne]
  constructor
  · rintro ⟨hbinder, hholder, hdescriptor, hparcelable, hfile⟩
    refine ⟨hholder, hfile, fun harray => ⟨hbinder harray, fun hnullable => ?_⟩⟩
    exact ⟨hdescriptor harray hnullable, hparcelable harray hnullable⟩
  · rintro ⟨hholder, hfile, harrays⟩
    exact ⟨fun harray => (harrays harray).1, hholder,
      fun harray hnullable => ((harrays harray).2 hnullable).1,
      fun harray hnullable => ((harrays harray).2 hnullable).2, hfile⟩

/-- The NDK backend has no lists of binders or interfaces; only the first argument is looked at,
which is the element. -/
theorem ndkListRules_iff :
    (∀ rule ∈ t.ndkListRules r, rule.1 = false) ↔
      (t.name = "List" → ∀ element ∈ t.arguments.head?,
        r.interface? element = none ∧ element.name ≠ "IBinder") := by
  rw [ndkListRules]
  split
  · next element rest hname harguments => simp [hname, harguments]
  · next hother =>
    constructor
    · intro _ hname element helement
      obtain ⟨rest, harguments⟩ := List.head?_eq_some_iff.mp helement
      exact absurd harguments (hother element rest hname)
    · simp

/-- A backend passes a type exactly when it supports it. -/
theorem value_checkFor_iff : (t.checkFor r b).value = true ↔ t.SupportedBy r b := by
  have hif : ∀ {c : Prop} [Decidable c] {rules : List (Bool × BackendFault)},
      (∀ rule ∈ (if c then rules else []), rule.1 = false) ↔
        (c → ∀ rule ∈ rules, rule.1 = false) := by
    intro c _ rules
    split <;> simp [*]
  have hifnot : ∀ {c : Prop} [Decidable c] {rules : List (Bool × BackendFault)},
      (∀ rule ∈ (if c then [] else rules), rule.1 = false) ↔
        (¬ c → ∀ rule ∈ rules, rule.1 = false) := by
    intro c _ rules
    split <;> simp [*]
  rw [checkFor, Reporting.value_verdict, Option.isNone_map, Option.isNone_iff_eq_none,
    backendFault?, firstFault?_eq_none_iff, backendRules]
  simp only [List.forall_mem_append, hif, hifnot, arrayRules_iff, javaOnlyRules_iff,
    nativeRules_iff, ndkListRules_iff]
  constructor
  · rintro ⟨⟨⟨hnative, hlist⟩, harray⟩, hcollection⟩
    exact ⟨harray, hcollection, hnative, hlist⟩
  · rintro ⟨harray, hcollection, hnative, hlist⟩
    exact ⟨⟨⟨hnative, hlist⟩, harray⟩, hcollection⟩

/-- What a backend supports is supported by every less strict one. -/
theorem SupportedBy.mono (h : t.SupportedBy r b') (hle : b.strictness ≤ b'.strictness) :
    t.SupportedBy r b where
  array := h.array
  collection hjava := h.collection (by cases b <;> cases b' <;> simp_all [Backend.strictness])
  native hnative := h.native
    (by cases b <;> cases b' <;> simp_all [Backend.strictness, Backend.isNativeStable])
  ndkList hndk := h.ndkList (by cases b' <;> simp_all [Backend.strictness])

end TypeSpec

/-! ### Documents -/

variable {r : Registry} {b b' : Backend}

/-- A backend accepts a declaration when it supports all types of it, and there is a header where it
needs one. -/
theorem Decl.value_checkFor_iff {d : Decl} :
    (d.checkFor r b).value = true ↔
      (b.needsHeader = true → d.cppHeader? ≠ some "") ∧
        ∀ t ∈ d.backendTypes, t.SupportedBy r b := by
  simp [checkFor, checkHeaderFor, TypeSpec.value_checkFor_iff]

namespace Document

variable {doc : Document}

/-- A document is accepted declaration by declaration: it takes all headers that are needed, and the
support of every type. -/
theorem value_checkFor_iff :
    (doc.checkFor r b).value = true ↔
      (b.needsHeader = true → ∀ d ∈ doc.decls, d.cppHeader? ≠ some "") ∧
        ∀ d ∈ doc.decls, ∀ t ∈ d.backendTypes, t.SupportedBy r b := by
  simp only [checkFor, value_checkEach, List.all_eq_true, Decl.value_checkFor_iff]
  constructor
  · intro h
    exact ⟨fun hneeds d hd => (h d hd).1 hneeds, fun d hd => (h d hd).2⟩
  · rintro ⟨hheader, htypes⟩ d hd
    exact ⟨fun hneeds => hheader hneeds d hd, htypes d hd⟩

/-- What a backend accepts is accepted by every less strict one that finds the headers it needs. -/
theorem checkFor_mono (h : (doc.checkFor r b').value = true)
    (hle : b.strictness ≤ b'.strictness)
    (hheader : b.needsHeader = true → b'.needsHeader = false →
      ∀ d ∈ doc.decls, d.cppHeader? ≠ some "") :
    (doc.checkFor r b).value = true := by
  rw [value_checkFor_iff] at h ⊢
  refine ⟨fun hneeds => ?_, fun d hd t ht => (h.2 d hd t ht).mono hle⟩
  cases hneeds' : b'.needsHeader with
  | true => exact h.1 hneeds'
  | false => exact hheader hneeds hneeds'

/-- **Strictness**: in every registry, a document that is accepted for the NDK is accepted for Rust,
for C++ and for Java, and one that is accepted for C++ or for Rust is accepted for Java. One that is
accepted for Rust is accepted for C++ if every parcelable that is declared elsewhere has a
header. -/
theorem checkFor_strictness (r : Registry) (doc : Document) :
    ((doc.checkFor r .ndk).value = true →
      (doc.checkFor r .rust).value = true ∧ (doc.checkFor r .cpp).value = true ∧
        (doc.checkFor r .java).value = true) ∧
    ((doc.checkFor r .cpp).value = true ∨ (doc.checkFor r .rust).value = true →
      (doc.checkFor r .java).value = true) ∧
    ((doc.checkFor r .rust).value = true →
      (∀ d ∈ doc.decls, ∀ header ∈ d.cppHeader?, header ≠ "") →
        (doc.checkFor r .cpp).value = true) := by
  refine ⟨fun h => ⟨?_, ?_, ?_⟩, fun h => ?_, fun h hheader => ?_⟩
  · exact checkFor_mono h (by decide) (by simp [Backend.needsHeader])
  · exact checkFor_mono h (by decide) (by simp [Backend.needsHeader])
  · exact checkFor_mono h (by decide) (by simp [Backend.needsHeader])
  · rcases h with h | h
    · exact checkFor_mono h (by decide) (by simp [Backend.needsHeader])
    · exact checkFor_mono h (by decide) (by simp [Backend.needsHeader])
  · refine checkFor_mono h (by decide) fun _ _ d hd hempty => ?_
    exact hheader d hd "" hempty rfl

/-- A parcelable declared elsewhere, with a header, and one with a list of binders. -/
def binderList (cppHeader : String) : Document :=
  let loc : Location := ⟨"Handles.aidl", none⟩
  let binders : TypeSpec :=
    { TypeSpec.builtin loc "List" with arguments := [.builtin loc "IBinder"] }
  ⟨[], [⟨⟨loc, "p", "Foreign", "", {}⟩, .parcelable none cppHeader⟩,
    ⟨⟨loc, "p", "Handles", "", {}⟩,
      .structured none { fields := [⟨loc, binders, "handles", none⟩] }⟩]⟩

/-- Rust accepts the document with the header, and so do C++ and Java. That NDK is stricter shows in
the list of binders, which it rejects; and without the header Rust still accepts the document and
C++ does not. -/
theorem checkFor_strictness_binders :
    let accepts (cppHeader : String) (b : Backend) : Prop :=
      ((binderList cppHeader).checkFor .empty b).value = true
    accepts "foreign.h" .rust ∧ accepts "foreign.h" .cpp ∧ accepts "foreign.h" .java ∧
      ¬ accepts "foreign.h" .ndk ∧ accepts "" .rust ∧ ¬ accepts "" .cpp := by
  intro accepts
  obtain ⟨-, hjava, hcpp⟩ := checkFor_strictness .empty (binderList "foreign.h")
  have hrust : accepts "foreign.h" .rust := by decide +kernel
  have hheader : ∀ d ∈ (binderList "foreign.h").decls, ∀ header ∈ d.cppHeader?, header ≠ "" := by
    decide +kernel
  refine ⟨hrust, hcpp hrust hheader, hjava (.inr hrust), ?_, ?_, ?_⟩
  · decide +kernel
  · decide +kernel
  · decide +kernel

end Document

end InterfaceDefinition
