import InterfaceDefinition.Proofs.Acceptance.Containers
import InterfaceDefinition.Proofs.Acceptance.Declarations

/-!
# Fields of immutable declarations

The types that parts of immutable values are meant to have form the least set with the builtin
types, enums and immutable declarations, and with the lists and maps of such types
(`Registry.ImmutableType`). The check of a declaration asks another question of its fields
(`Registry.canBeImmutable`), with the same answer but for two shapes: it takes a list or map that
has no arguments for a builtin type like any other, and it does not look at whether an argument is
an array. In a valid document the fields of an immutable declaration have types of the set exactly
when they are without these shapes (`Registry.Reachable.validate_immutable`); a field that is a list
of anything passes (`Registry.validate_rawList`).
-/

namespace InterfaceDefinition

open Fallible

variable {r : Registry} {typeParams : List String} {t : TypeSpec}

/-! ### Types of immutable values -/

/-- A list or a map, with arguments or without. -/
def TypeSpec.IsContainer (t : TypeSpec) : Prop :=
  t.name = "List" ∨ t.name = "Map"

/-- A type whose own array mark aside is that of an immutable value: a member of the least set with
the builtin types other than lists and maps, all enums and the declarations that are immutable
themselves, and with the lists and maps whose arguments, none of them an array, are in the set. -/
inductive Registry.ImmutableType (r : Registry) : TypeSpec → Prop
  | builtin {t : TypeSpec} (hbuiltin : Vocabulary.isBuiltin t.name = true)
      (hcontainer : ¬ t.IsContainer) : ImmutableType r t
  | enum {t : TypeSpec} {d : Decl} (hd : r.named? t.base = some d) (hkind : d.kind = .enum) :
      ImmutableType r t
  | declared {t : TypeSpec} {d : Decl} (hd : r.named? t.base = some d)
      (himmutable : d.annotations.has .javaOnlyImmutable = true) : ImmutableType r t
  | container {t : TypeSpec} (hcontainer : t.IsContainer) (hne : t.arguments ≠ [])
      (hplain : ∀ a ∈ t.arguments, a.isArray = false)
      (harguments : ∀ a ∈ t.arguments, ImmutableType r a) : ImmutableType r t

/-- A type that is no list or map without arguments, and none of whose arguments is an array. -/
structure TypeSpec.IsPlain (t : TypeSpec) : Prop where
  container : t.IsContainer → t.arguments ≠ []
  arguments : ∀ a ∈ t.arguments, a.isArray = false

instance (t : TypeSpec) : Decidable t.IsContainer :=
  inferInstanceAs (Decidable (_ ∨ _))

instance (t : TypeSpec) : Decidable t.IsPlain :=
  decidable_of_iff ((t.IsContainer → t.arguments ≠ []) ∧ ∀ a ∈ t.arguments, a.isArray = false)
    ⟨fun h => ⟨h.1, h.2⟩, fun h => ⟨h.1, h.2⟩⟩

namespace Registry

/-- What is asked of the type of a field: of a type with arguments that it is a list or map and the
same of all arguments, and of any other what its name stands for. -/
theorem canBeImmutable_iff : r.canBeImmutable t = true ↔
    (t.arguments = [] ∧ r.isImmutableName t.base = true) ∨
      (t.arguments ≠ [] ∧ t.IsContainer ∧ ∀ a ∈ t.arguments, r.canBeImmutable a = true) := by
  obtain ⟨loc, base, arguments, isArray, annotations, comments⟩ := t
  rw [canBeImmutable, allCanBeImmutable_eq_all]
  cases arguments with
  | nil => simp
  | cons a rest => simp [TypeSpec.IsContainer, TypeSpec.name]

/-- A name that is looked upon as immutable is that of a builtin type, of an enum or of a
declaration with the annotation. -/
theorem isImmutableName_cases (h : r.isImmutableName t.base = true) :
    Vocabulary.isBuiltin t.name = true ∨ ∃ d, r.named? t.base = some d ∧
      (d.kind = .enum ∨ d.annotations.has .javaOnlyImmutable = true) := by
  rw [isImmutableName] at h
  split at h
  · next hbuiltin => exact .inl hbuiltin
  · split at h
    · cases h
    · next d hd => exact .inr ⟨d, hd, by simpa using h⟩

mutual

/-- What is asked of a type is asked of all its nodes. -/
theorem canBeImmutable_of_mem_nodes : (t : TypeSpec) → r.canBeImmutable t = true →
    ∀ n ∈ t.nodes, r.canBeImmutable n = true
  | ⟨loc, base, arguments, isArray, annotations, comments⟩, h => by
    rw [TypeSpec.nodes, List.forall_mem_cons]
    refine ⟨h, ?_⟩
    rcases canBeImmutable_iff.mp h with ⟨hnone, -⟩ | ⟨-, -, harguments⟩
    · obtain rfl : arguments = [] := hnone
      simp [TypeSpec.nodesOf]
    · exact canBeImmutable_of_mem_nodesOf arguments harguments

theorem canBeImmutable_of_mem_nodesOf : (ts : List TypeSpec) →
    (∀ t ∈ ts, r.canBeImmutable t = true) →
      ∀ n ∈ TypeSpec.nodesOf ts, r.canBeImmutable n = true
  | [], _ => by simp [TypeSpec.nodesOf]
  | t :: rest, h => by
    rw [List.forall_mem_cons] at h
    rw [TypeSpec.nodesOf, List.forall_mem_append]
    exact ⟨canBeImmutable_of_mem_nodes t h.1, canBeImmutable_of_mem_nodesOf rest h.2⟩

end

mutual

/-- A type that passes and has none of the two shapes at any depth is in the set. -/
theorem immutableType_of_isPlain : (t : TypeSpec) → r.canBeImmutable t = true →
    (∀ n ∈ t.nodes, n.IsPlain) → r.ImmutableType t
  | ⟨loc, base, arguments, isArray, annotations, comments⟩, h, hplain => by
    have hself := hplain _ (TypeSpec.self_mem_nodes _)
    rcases canBeImmutable_iff.mp h with ⟨hnone, hname⟩ | ⟨hne, hcontainer, harguments⟩
    · rcases isImmutableName_cases hname with hbuiltin | ⟨d, hd, hkind | himmutable⟩
      · exact .builtin hbuiltin fun hcontainer => hself.container hcontainer hnone
      · exact .enum hd hkind
      · exact .declared hd himmutable
    · rw [TypeSpec.nodes, List.forall_mem_cons] at hplain
      exact .container hcontainer hne hself.arguments
        (forall_immutableType_of_isPlain arguments harguments hplain.2)

theorem forall_immutableType_of_isPlain : (ts : List TypeSpec) →
    (∀ t ∈ ts, r.canBeImmutable t = true) → (∀ n ∈ TypeSpec.nodesOf ts, n.IsPlain) →
      ∀ t ∈ ts, r.ImmutableType t
  | [], _, _ => by simp
  | t :: rest, h, hplain => by
    rw [List.forall_mem_cons] at h ⊢
    rw [TypeSpec.nodesOf, List.forall_mem_append] at hplain
    exact ⟨immutableType_of_isPlain t h.1 hplain.1,
      forall_immutableType_of_isPlain rest h.2 hplain.2⟩

end

/-- A type that passes and is neither a list nor a map has no arguments. -/
theorem isPlain_of_not_isContainer (h : r.canBeImmutable t = true) (hnot : ¬ t.IsContainer) :
    ∀ n ∈ t.nodes, n.IsPlain := by
  have hnone : t.arguments = [] := by
    rcases canBeImmutable_iff.mp h with ⟨hnone, -⟩ | ⟨-, hcontainer, -⟩
    · exact hnone
    · exact absurd hcontainer hnot
  rw [TypeSpec.nodes_eq, hnone, List.flatMap_nil, List.forall_mem_singleton]
  exact ⟨fun hcontainer => absurd hcontainer hnot, by simp [hnone]⟩

/-- A name that stands for a declaration is that of no list or map. -/
theorem not_isContainer_of_named? (hread : t.ReadIn r typeParams) {d : Decl}
    (hd : r.named? t.base = some d) : ¬ t.IsContainer := by
  intro hcontainer
  have hbuiltin : Vocabulary.isBuiltin t.base.text = true := by
    rcases hcontainer with hname | hname
    · rw [show t.base.text = "List" from hname]
      decide +kernel
    · rw [show t.base.text = "Map" from hname]
      decide +kernel
  rw [named?, hread.base.target?_eq_none hbuiltin] at hd
  cases hd

/-- A type of the set that passes and was read has none of the two shapes at any depth. -/
theorem ImmutableType.isPlain (h : r.ImmutableType t) (hpasses : r.canBeImmutable t = true)
    (hread : t.ReadIn r typeParams) : ∀ n ∈ t.nodes, n.IsPlain := by
  induction h with
  | builtin _ hnot => exact isPlain_of_not_isContainer hpasses hnot
  | enum hd _ => exact isPlain_of_not_isContainer hpasses (not_isContainer_of_named? hread hd)
  | declared hd _ => exact isPlain_of_not_isContainer hpasses (not_isContainer_of_named? hread hd)
  | @container t _ hne hplain _ ih =>
    have harguments : ∀ a ∈ t.arguments, r.canBeImmutable a = true := by
      rcases canBeImmutable_iff.mp hpasses with ⟨hnone, -⟩ | ⟨-, -, harguments⟩
      · exact absurd hnone hne
      · exact harguments
    rw [TypeSpec.nodes_eq, List.forall_mem_cons, List.forall_mem_flatMap]
    refine ⟨⟨fun _ => hne, hplain⟩, fun a ha => ih a ha (harguments a ha) ?_⟩
    exact hread.of_mem_nodes (TypeSpec.mem_nodes_of_mem_arguments t.self_mem_nodes ha)

/-- A list or map without arguments is not in the set. -/
theorem not_immutableType_of_raw (hcontainer : t.IsContainer) (hnone : t.arguments = [])
    (htarget : t.base.target? = none) : ¬ r.ImmutableType t := by
  intro h
  cases h with
  | builtin _ hnot => exact hnot hcontainer
  | enum hd _ => simp [named?, htarget] at hd
  | declared hd _ => simp [named?, htarget] at hd
  | container _ hne _ _ => exact hne hnone

end Registry

/-! ### Valid documents -/

/-- An immutable declaration that passes its check asks the same of its fields. -/
theorem Decl.canBeImmutable_of_passes {d : Decl} (hkind : d.kind = .structured ∨ d.kind = .union)
    (himmutable : d.annotations.has .javaOnlyImmutable = true)
    (hpasses : (d.check r).passes = true) : ∀ f ∈ d.fields, r.canBeImmutable f.type = true := by
  obtain ⟨header, body⟩ := d
  cases body with
  | structured typeParams ms =>
    exact (Header.decides_checkStructured.passes_iff.mp hpasses).immutable himmutable
  | union typeParams ms =>
    exact (Header.decides_checkUnion.passes_iff.mp hpasses).immutable himmutable
  | _ => simp [Decl.kind] at hkind

/-- The type of a field is among the nodes of the declaration. -/
theorem Decl.type_mem_nodes {d : Decl} {f : Field} (hf : f ∈ d.fields) : f.type ∈ d.nodes := by
  rw [Decl.nodes, Members.nodes_eq]
  exact List.mem_append_left _ (List.mem_flatMap.mpr ⟨f, hf, f.type.self_mem_nodes⟩)

namespace Registry

/-- **Fields of immutable declarations**: take a reachable registry of documents that were
registered as they are written, and in the registry that a positive validation leaves the type of a
field of an immutable parcelable or union of the document.

* At any depth it consists of lists and maps, and of names without arguments that are builtin, an
  enum or an immutable declaration.
* It is in the least set of types for immutable values, its own array mark aside, exactly if no list
  or map in it lacks arguments, at any depth, and no argument in it is an array. -/
theorem Reachable.validate_immutable (hr : r.Reachable Document.IsFresh) {number : Nat}
    {options : Options} {report : ValidationReport}
    (h : (r.validate number options).2 = .ok report) (hvalid : report.valid = true) :
    let after := (r.validate number options).1
    ∃ doc, after.document? number = some doc ∧ ∀ d ∈ doc.decls,
      d.kind = .structured ∨ d.kind = .union → d.annotations.has .javaOnlyImmutable = true →
        ∀ f ∈ d.fields,
          (∀ n ∈ f.type.nodes, n.IsContainer ∨ n.arguments = [] ∧
            (Vocabulary.isBuiltin n.name = true ∨ ∃ part, after.named? n.base = some part ∧
              (part.kind = .enum ∨ part.annotations.has .javaOnlyImmutable = true))) ∧
          (after.ImmutableType f.type ↔ ∀ n ∈ f.type.nodes, n.IsPlain) := by
  intro after
  obtain ⟨doc, hdoc, hchecked⟩ := passes_of_valid h hvalid
  refine ⟨doc, hdoc, fun d hd hkind himmutable f hf => ?_⟩
  have hpasses : (d.check after).passes = true := passes_checkEach_iff.mp hchecked d hd
  have hfield : after.canBeImmutable f.type = true :=
    Decl.canBeImmutable_of_passes hkind himmutable hpasses f hf
  have hread : f.type.ReadIn after d.typeParams :=
    (hr.validate number options).readIn (fun _ => id) (List.mem_of_getElem? hdoc) hd
      (List.mem_append_left _ (Decl.type_mem_nodes hf))
  refine ⟨fun n hn => ?_, fun h => h.isPlain hfield hread, immutableType_of_isPlain f.type hfield⟩
  rcases canBeImmutable_iff.mp (canBeImmutable_of_mem_nodes f.type hfield n hn) with
    ⟨hnone, hname⟩ | ⟨-, hcontainer, -⟩
  · exact .inr ⟨hnone, isImmutableName_cases hname⟩
  · exact .inl hcontainer

/-- An immutable parcelable with fields of the given types. -/
def frozen (types : List TypeSpec) : Document :=
  let loc : Location := ⟨"Frozen.aidl", none⟩
  let header : Header :=
    ⟨loc, "p", "Frozen", "", ⟨[{ location := loc, kind := .javaOnlyImmutable, params := [] }]⟩⟩
  ⟨[], [⟨header, .structured none { fields := types.mapIdx fun i t =>
    ⟨loc, t, "field" ++ toString i, none⟩ }⟩]⟩

/-- A list of strings and a number may be the fields of an immutable parcelable: it is accepted, and
since neither type is a container without arguments, both are immutable. -/
theorem validate_immutable_frozen :
    let loc : Location := ⟨"Frozen.aidl", none⟩
    let names : TypeSpec := { TypeSpec.named loc "List" with arguments := [.named loc "String"] }
    let r := (empty.addDocument (frozen [names, .named loc "int"])).value
    let validated := r.validate 0 {}
    r.Reachable Document.IsFresh ∧ ∃ report doc d, validated.2 = .ok report ∧
      report.valid = true ∧ validated.1.document? 0 = some doc ∧ doc.decls = [d] ∧
      d.fields.map (·.type.signature) = ["List<String>", "int"] ∧
      ∀ f ∈ d.fields, validated.1.ImmutableType f.type := by
  intro loc names r validated
  have hr : r.Reachable Document.IsFresh := .addDocument .empty (by decide +kernel)
  have hvalid : validated.2.toOption.map (·.valid) = some true := by decide +kernel
  have hfacts : (validated.1.document? 0).map (fun doc => doc.decls.map fun d =>
      (d.kind, d.annotations.has .javaOnlyImmutable, d.fields.map (·.type.signature),
        decide (∀ f ∈ d.fields, ∀ n ∈ f.type.nodes, n.IsPlain))) =
          some [(.structured, true, ["List<String>", "int"], true)] := by decide +kernel
  obtain ⟨report, hreport, hvalid⟩ := Option.map_eq_some_iff.mp hvalid
  have hreport : validated.2 = .ok report := toOption_eq_some_iff.mp hreport
  obtain ⟨doc, hdoc, hfields⟩ := hr.validate_immutable hreport hvalid
  have hdoc : validated.1.document? 0 = some doc := hdoc
  rw [hdoc, Option.map_some, Option.some.injEq] at hfacts
  obtain ⟨d, hdecls, hdecl⟩ := List.map_eq_singleton_iff.mp hfacts
  simp only [Prod.mk.injEq, decide_eq_true_eq] at hdecl
  obtain ⟨hkind, himmutable, hsignatures, hplain⟩ := hdecl
  refine ⟨hr, report, doc, d, hreport, hvalid, hdoc, hdecls, hsignatures, fun f hf => ?_⟩
  exact (hfields d (hdecls ▸ List.mem_cons_self) (.inl hkind) himmutable f hf).2.mpr (hplain f hf)

/-- An immutable parcelable with a list of anything is valid. -/
theorem validate_rawList :
    let r := (empty.addDocument (frozen [.named ⟨"Frozen.aidl", none⟩ "List"])).value
    let validated := r.validate 0 {}
    r.Reachable Document.IsFresh ∧ validated.2.toOption.map (·.valid) = some true ∧
      ∃ doc d f, validated.1.document? 0 = some doc ∧ doc.decls = [d] ∧ d.fields = [f] ∧
        d.annotations.has .javaOnlyImmutable = true ∧ f.type.signature = "List" ∧
        ¬ validated.1.ImmutableType f.type := by
  intro r validated
  have hr : r.Reachable Document.IsFresh := .addDocument .empty (by decide +kernel)
  have hfacts : (validated.1.document? 0).map (fun doc => doc.decls.map fun d =>
      (d.annotations.has .javaOnlyImmutable, d.fields.map fun f =>
        (f.type.signature, decide f.type.IsContainer && f.type.arguments.isEmpty &&
          f.type.base.target?.isNone))) = some [(true, [("List", true)])] := by decide +kernel
  obtain ⟨doc, hdoc, hdecls⟩ := Option.map_eq_some_iff.mp hfacts
  obtain ⟨d, hdecls, hdecl⟩ := List.map_eq_singleton_iff.mp hdecls
  obtain ⟨himmutable, hfields⟩ := Prod.mk.inj hdecl
  obtain ⟨f, hfields, hfield⟩ := List.map_eq_singleton_iff.mp hfields
  simp only [Prod.mk.injEq, Bool.and_eq_true, decide_eq_true_eq, List.isEmpty_iff,
    Option.isNone_iff_eq_none] at hfield
  obtain ⟨hsignature, ⟨hcontainer, hnone⟩, htarget⟩ := hfield
  exact ⟨hr, by decide +kernel, doc, d, f, hdoc, hdecls, hfields, himmutable, hsignature,
    not_immutableType_of_raw hcontainer hnone htarget⟩

end Registry

end InterfaceDefinition
