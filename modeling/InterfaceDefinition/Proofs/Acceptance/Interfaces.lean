import InterfaceDefinition.Proofs.Acceptance.Members

/-!
# The rules for interfaces

An interface passes its check exactly when it keeps the rules (`Header.check_interface_iff`): valid
annotations, no fields, methods and constants that differ in name and are valid by themselves, and
no signature that is reserved. The methods are read as members of the interface, so all of them are
oneway if it is.

The check has a verdict as soon as the types in the interface are known, as all resolved types are
that were read in a reachable registry (`Registry.Reachable.known`).
-/

namespace InterfaceDefinition

open Fallible

variable {r : Registry} {h : Header} {isOneway : Bool} {ms : Members}

/-- In a reachable registry the members whose types were read and are resolved are known. -/
theorem Registry.Reachable.known {Admitted : Document → Prop} (hr : r.Reachable Admitted)
    {typeParams : List String} (hread : ∀ n ∈ ms.nodes, n.base.ReadIn r typeParams)
    (hresolved : ∀ n ∈ ms.nodes, n.base.isResolved = true) : ms.Known r := by
  intro n hn
  obtain ⟨resolution, hresolution⟩ := Option.isSome_iff_exists.mp (hresolved n hn)
  refine ⟨resolution, hresolution, fun target htarget => ?_⟩
  have hsome : n.base.target? = some target := by
    rw [TypeName.target?, hresolution]
    exact htarget
  obtain ⟨d, hd, -, -⟩ := hr.indexed.exists_named? (hread n hn) hsome
  rw [named?, hsome, Option.bind_some] at hd
  simp [hd]

/-- Resolved members whose types are still as they were written are known, as these are builtin. -/
theorem Registry.Reachable.known_of_isFresh {Admitted : Document → Prop}
    (hr : r.Reachable Admitted) (hfresh : ∀ n ∈ ms.nodes, n.base.IsFresh)
    (hresolved : ∀ n ∈ ms.nodes, n.base.isResolved = true) : ms.Known r := by
  have hread : ∀ n ∈ ms.nodes, n.base.ReadIn r [] := fun n hn => .fresh (hfresh n hn)
  exact hr.known hread hresolved

namespace Header

/-- The rules for an interface of the given members, which makes its methods oneway if it is. -/
structure InterfaceRules (r : Registry) (h : Header) (isOneway : Bool) (ms : Members) : Prop where
  annotations : h.annotations.ValidFor DeclKind.interface.supportedAnnotations
  fields : ms.fields = []
  methodNames : (ms.methods.map (·.name)).Nodup
  signatures : ∀ m ∈ ms.methods, m.isUserDefined = true →
    m.signature ∉ Vocabulary.reservedSignatures
  methods : ∀ m ∈ ms.methods, m.IsValid r (m.isOneway || isOneway)
  constantNames : (ms.constants.map (·.name)).Nodup
  constants : ∀ c ∈ ms.constants, c.IsValid r h.canonicalName

theorem decides_checkAnnotations {kind : DeclKind} :
    Decides true (liftM (h.checkAnnotations kind))
      (h.annotations.ValidFor kind.supportedAnnotations) :=
  .lift AnnotationSet.value_check_iff

/-- The check of an interface that is not oneway by itself passes when its members keep the
rules. -/
theorem decides_checkInterface (hknown : ms.Known r) :
    Decides true (h.checkInterface r ms) (h.InterfaceRules r false ms) := by
  have hparts : Decides true (h.checkInterface r ms)
      (h.annotations.ValidFor DeclKind.interface.supportedAnnotations ∧ ms.fields = [] ∧
        ((ms.methods.map (·.name)).Nodup ∧ ∀ m ∈ ms.methods,
          (m.isUserDefined = true → m.signature ∉ Vocabulary.reservedSignatures) ∧
            m.IsValid r m.isOneway) ∧
        ((ms.constants.map (·.name)).Nodup ∧ ∀ c ∈ ms.constants, c.IsValid r h.canonicalName) ∧
        True) := by
    rw [checkInterface]
    refine .bind decides_checkAnnotations fun _ => ?_
    refine .bind (.verdict (by simp [fieldsFault?])) fun _ => ?_
    refine .bind (Method.decides_checkAll fun m hm => hknown.method hm) fun _ => ?_
    refine .bind Constant.decides_checkAll fun _ => ?_
    -- the advice about the name changes nothing
    dsimp only
    split
    · exact .advise (.pure (by simp))
    · exact .pure (by simp)
  refine hparts.congr ?_
  constructor
  · rintro ⟨hannotations, hfields, ⟨hnames, hmethods⟩, ⟨hconstantNames, hconstants⟩, -⟩
    refine ⟨hannotations, hfields, hnames, fun m hm => (hmethods m hm).1, fun m hm => ?_,
      hconstantNames, hconstants⟩
    rw [Bool.or_false]
    exact (hmethods m hm).2
  · intro h
    refine ⟨h.annotations, h.fields, ⟨h.methodNames, fun m hm => ⟨h.signatures m hm, ?_⟩⟩,
      ⟨h.constantNames, h.constants⟩, trivial⟩
    simpa using h.methods m hm

/-- Members keep the rules for an interface when they do as its members. -/
theorem interfaceRules_within_iff :
    h.InterfaceRules r false { ms with methods := ms.methods.map (·.within isOneway) } ↔
      h.InterfaceRules r isOneway ms := by
  have hnames : (ms.methods.map (·.within isOneway)).map (·.name) = ms.methods.map (·.name) := by
    rw [List.map_map]
    rfl
  have hvalid : ∀ m : Method,
      (m.within isOneway).IsValid r ((m.within isOneway).isOneway || false) ↔
        m.IsValid r (m.isOneway || isOneway) := by
    intro m
    rw [Bool.or_false]
    exact ⟨fun h => ⟨h.1, h.2, h.3, h.4, h.5⟩, fun h => ⟨h.1, h.2, h.3, h.4, h.5⟩⟩
  constructor
  · intro h
    have hmethods := List.forall_mem_map.mp h.methods
    exact ⟨h.annotations, h.fields, hnames ▸ h.methodNames, List.forall_mem_map.mp h.signatures,
      fun m hm => (hvalid m).mp (hmethods m hm), h.constantNames, h.constants⟩
  · intro h
    exact ⟨h.annotations, h.fields, hnames.symm ▸ h.methodNames,
      List.forall_mem_map.mpr h.signatures,
      List.forall_mem_map.mpr fun m hm => (hvalid m).mpr (h.methods m hm), h.constantNames,
      h.constants⟩

/-- **Interfaces**: the check of an interface whose types are known has a verdict, which is positive
exactly when the interface keeps the rules. -/
theorem check_interface_iff (h : Header) (isOneway : Bool) (hknown : ms.Known r) :
    ∃ verdict, (Decl.check r ⟨h, .interface isOneway ms⟩).run.value = .ok verdict ∧
      (verdict = true ↔ h.InterfaceRules r isOneway ms) := by
  have hwithin : Members.Known r { ms with methods := ms.methods.map (·.within isOneway) } := by
    rw [Members.Known, Members.nodes_within]
    exact hknown
  obtain ⟨verdict, hverdict⟩ := (h.completes_checkInterface hwithin).exists_value
  refine ⟨verdict, hverdict, ?_⟩
  rw [← interfaceRules_within_iff, ← (decides_checkInterface hwithin).passes_iff, passes_iff,
    hverdict, Except.ok.injEq]

/-- An interface with a method that passes numbers back keeps the rules. -/
theorem check_interface_reader :
    let loc : Location := ⟨"IReader.aidl", none⟩
    let h : Header := ⟨loc, "p", "IReader", "", {}⟩
    let codes : Argument :=
      ⟨loc, { TypeSpec.builtin loc "int" with isArray := true }, "codes", some .output⟩
    let read : Method :=
      { location := loc, returnType := .builtin loc "void", name := "read", arguments := [codes] }
    let ms : Members := { methods := [read] }
    let r := (Registry.empty.addDocument ⟨[], [⟨h, .interface false ms⟩]⟩).value
    r.Reachable Document.IsFresh ∧ ms.Known r ∧ h.InterfaceRules r false ms := by
  intro loc h codes read ms r
  have hr : r.Reachable Document.IsFresh := .addDocument .empty (by decide +kernel)
  have hfresh : ∀ base ∈ ms.nodes.map (·.base), base.IsFresh := by decide +kernel
  have hread : ∀ n ∈ ms.nodes, n.base.ReadIn r [] :=
    fun n hn => .fresh (hfresh n.base (List.mem_map_of_mem hn))
  have hknown : ms.Known r := hr.known hread (by decide +kernel)
  have hpasses : (Decl.check r ⟨h, .interface false ms⟩).passes = true := by decide +kernel
  obtain ⟨verdict, hverdict, hiff⟩ := check_interface_iff h false hknown
  have hpositive : verdict = true :=
    Except.ok.inj (hverdict.symm.trans (passes_iff.mp hpasses))
  exact ⟨hr, hknown, hiff.mp hpositive⟩

end Header

end InterfaceDefinition
