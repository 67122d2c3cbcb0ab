import InterfaceDefinition.Proofs.Acceptance.Containers
import InterfaceDefinition.Proofs.Acceptance.Enums

/-!
# Where `void` may stand

Nothing can be stored as `void`: in a valid document no field, no constant and no backing type of an
enum is `void`, and wherever the name stands it stands by itself, without arguments, array mark or
null (`Decl.KeepsVoid`). It stands as the result of a method, and in two more places that no check
looks at (`Registry.Reachable.validate_void`): as the type of an argument that goes to the callee,
and as an argument of a declared generic type, whose check counts arguments and does not read them.
Both do pass (`Registry.validate_voidMailbox`).
-/

namespace InterfaceDefinition

open Fallible

variable {r : Registry} {typeParams : List String}

/-! ### Nodes -/

namespace TypeSpec

variable {n outer : TypeSpec}

/-- No declaration is called `void`. -/
theorem target?_of_void (hread : n.base.ReadIn r typeParams) (hvoid : n.name = "void") :
    n.base.target? = none := by
  refine hread.target?_eq_none ?_
  rw [show n.base.text = "void" from hvoid]
  decide

/-- `void` stands by itself. -/
theorem ObeysRules.of_void (h : n.ObeysRules r) (hread : n.base.ReadIn r typeParams)
    (hvoid : n.name = "void") :
    n.arguments = [] ∧ n.isArray = false ∧ n.isNullable = false := by
  obtain ⟨harray, hnullable, -⟩ := h.void hvoid
  refine ⟨?_, harray, hnullable⟩
  by_contra hne
  have hadmits := h.arguments hne
  rw [AdmitsArguments, if_neg (by simp [hvoid]), if_neg (by simp [hvoid])] at hadmits
  obtain ⟨d, -, hd, -⟩ := hadmits
  rw [Registry.named?, target?_of_void hread hvoid] at hd
  cases hd

/-- A type with an argument `void` is declared, and generic. -/
theorem ObeysRules.generic_of_void (h : outer.ObeysRules r) (hn : n ∈ outer.arguments)
    (hvoid : n.name = "void") :
    ∃ generic, r.named? outer.base = some generic ∧ generic.typeParams?.isSome = true := by
  have hprimitive : n.isPrimitiveOrEnum = true := by
    rw [isPrimitiveOrEnum, hvoid]
    simp [Vocabulary.isPrimitive, Vocabulary.primitives]
  have hadmits := h.arguments (List.ne_nil_of_mem hn)
  rw [AdmitsArguments] at hadmits
  split at hadmits
  · obtain ⟨element, heq, helement, -⟩ := hadmits
    obtain rfl : n = element := by simpa [heq] using hn
    simp [hprimitive] at helement
  · split at hadmits
    · obtain ⟨key, value, heq, -, hkey, hvalue⟩ := hadmits
      have hcases : n = key ∨ n = value := by simpa [heq] using hn
      rcases hcases with rfl | rfl
      · simp [hprimitive] at hkey
      · simp [hprimitive] at hvalue
    · obtain ⟨generic, params, hgeneric, hparams, -⟩ := hadmits
      exact ⟨generic, hgeneric, by simp [hparams]⟩

/-- What is `void` does not come back. -/
theorem not_canBeOut_of_void (harray : n.isArray = false) (hvoid : n.name = "void") :
    ¬ n.CanBeOut r := by
  rw [CanBeOut, hvoid, if_pos (.inl (by decide))]
  simp [harray]

end TypeSpec

/-! ### Members -/

/-- A constant is of a type that has values. -/
theorem Constant.IsValid.name_ne_void {scope : String} {c : Constant} (h : c.IsValid r scope)
    (hread : c.type.base.ReadIn r typeParams) : c.type.name ≠ "void" := by
  intro hvoid
  obtain ⟨harguments, harray, -⟩ :=
    (h.type c.type c.type.self_mem_nodes).2.of_void hread hvoid
  have hsignature : c.type.signature = "void" := by
    simp [TypeSpec.signature_eq, hvoid, harguments, harray]
  have hmem := h.signature
  rw [hsignature] at hmem
  simp [Vocabulary.constantTypes] at hmem

/-- Nothing renders as a value of `void`. -/
theorem TypeSpec.IsResolvedName.name_ne_void {scope : String} {backing : TypeSpec} {value : Expr}
    (h : backing.IsResolvedName) (hread : backing.base.ReadIn r typeParams)
    (haccepts : r.Accepts scope backing value) : backing.name ≠ "void" := by
  intro hvoid
  obtain ⟨v, text, -, hrender⟩ := haccepts.exists_value
  rcases Value.render_cases h hrender with ⟨-, hbuiltin⟩ | henum
  · rw [hvoid] at hbuiltin
    cases hbuiltin
  · simp [TypeName.isEnum, TypeName.isKind, target?_of_void hread hvoid] at henum

/-! ### Declarations -/

namespace Decl

/-- Where `void` may stand in a declaration. -/
structure KeepsVoid (r : Registry) (d : Decl) : Prop where
  fields : ∀ f ∈ d.fields, f.type.name ≠ "void"
  constants : ∀ c ∈ d.constants, c.type.name ≠ "void"
  backing : ∀ backing ∈ d.backing?, backing.name ≠ "void"
  /-- An argument that is `void` goes to the callee. -/
  arguments : ∀ m ∈ d.methods, ∀ a ∈ m.arguments, a.type.name = "void" → a.direction = .input
  bare : ∀ n ∈ d.allNodes, n.name = "void" →
    n.arguments = [] ∧ n.isArray = false ∧ n.isNullable = false
  /-- It is the type of a result or an argument of a method, or an argument of a generic type that
  is declared. -/
  places : ∀ n ∈ d.allNodes, n.name = "void" →
    (∃ m ∈ d.methods, n = m.returnType ∨ n ∈ m.arguments.map (·.type)) ∨
      ∃ outer ∈ d.allNodes, n ∈ outer.arguments ∧
        ∃ generic, r.named? outer.base = some generic ∧ generic.typeParams?.isSome = true

/-- A type of a declaration is that of a field, of a constant, or of a result or an argument. -/
theorem typeSpecs_cases {d : Decl} {t : TypeSpec} (h : t ∈ d.typeSpecs) :
    (∃ f ∈ d.fields, t = f.type) ∨ (∃ c ∈ d.constants, t = c.type) ∨
      ∃ m ∈ d.methods, t = m.returnType ∨ t ∈ m.arguments.map (·.type) := by
  simp only [typeSpecs, Members.typeSpecs, List.mem_append, List.mem_map, List.mem_flatMap,
    List.mem_cons, or_assoc] at h
  rcases h with ⟨f, hf, rfl⟩ | ⟨c, hc, rfl⟩ | ⟨m, hm, h⟩
  · exact .inl ⟨f, hf, rfl⟩
  · exact .inr (.inl ⟨c, hc, rfl⟩)
  · exact .inr (.inr ⟨m, hm, by simpa using h⟩)

/-- The backing type of an enum that passes its check accepts some value. -/
theorem exists_accepts_of_passes {d : Decl} {backing : TypeSpec} (hkind : d.kind = .enum)
    (hbacking : d.backing? = some backing) (hpasses : (d.check r).passes = true) :
    ∃ value, r.Accepts d.canonicalName backing value := by
  obtain ⟨enumerators, -, hrules⟩ := enumRules_of_passes hkind hpasses
  obtain ⟨backing', heq, hvalues⟩ := hrules.values
  obtain rfl : backing = backing' := Option.some.inj (hbacking.symm.trans heq)
  obtain ⟨first, hfirst⟩ := List.exists_mem_of_ne_nil _ hrules.nonempty
  exact ⟨first.2, hvalues first hfirst⟩

theorem keepsVoid_of_passes {d : Decl} (hread : ∀ n ∈ d.allNodes, n.base.ReadIn r d.typeParams)
    (hknown : d.members.Known r) (hpasses : (d.check r).passes = true)
    (hbacking : d.kind = .enum → ∃ backing ∈ d.backing?, backing.IsResolvedName) :
    d.KeepsVoid r := by
  have hvalid := isValid_typeSpecs_of_passes hpasses
  obtain ⟨hfields, hconstants⟩ := isValid_of_passes hpasses
  have hmethods := isValid_methods_of_passes hknown hpasses
  have hnode : ∀ t ∈ d.typeSpecs, t ∈ d.allNodes :=
    fun t ht => mem_allNodes_iff.mpr ⟨t, .inl ht, t.self_mem_nodes⟩
  have hresolvedName : ∀ backing ∈ d.backing?, backing.IsResolvedName := by
    intro backing hsome
    obtain ⟨backing', hsome', hresolved⟩ := hbacking (kind_of_backing? hsome)
    obtain rfl : backing = backing' := Option.some.inj (hsome.symm.trans hsome')
    exact hresolved
  have hbackingVoid : ∀ backing ∈ d.backing?, backing.name ≠ "void" := by
    intro backing hsome
    obtain ⟨value, haccepts⟩ := exists_accepts_of_passes (kind_of_backing? hsome) hsome hpasses
    have hmem : backing ∈ d.allNodes :=
      mem_allNodes_iff.mpr ⟨backing, .inr hsome, backing.self_mem_nodes⟩
    exact (hresolvedName backing hsome).name_ne_void (hread backing hmem) haccepts
  -- the backing type is not `void` and has no arguments, so only the other types are left
  have htypes : ∀ n ∈ d.allNodes, n.name = "void" → ∃ t ∈ d.typeSpecs, n ∈ t.nodes := by
    intro n hn hvoid
    obtain ⟨t, ht | ht, hmem⟩ := mem_allNodes_iff.mp hn
    · exact ⟨t, ht, hmem⟩
    · obtain rfl : n = t := by
        simpa [TypeSpec.nodes_eq, (hresolvedName t ht).arguments] using hmem
      exact absurd hvoid (hbackingVoid n ht)
  have hconstantVoid : ∀ c ∈ d.constants, c.type.name ≠ "void" := by
    intro c hc
    refine (hconstants c hc).name_ne_void (hread c.type (hnode c.type ?_))
    exact List.mem_append_left _ (List.mem_append_right _ (List.mem_map_of_mem hc))
  refine ⟨fun f hf => (hfields f hf).notVoid, hconstantVoid, hbackingVoid, ?_, ?_, ?_⟩
  · intro m hm a ha hvoid
    have hrules := (hmethods m hm).arguments a ha
    by_contra hdirection
    obtain ⟨harray, -, -⟩ := (hrules.type a.type a.type.self_mem_nodes).2.void hvoid
    exact TypeSpec.not_canBeOut_of_void harray hvoid (hrules.direction hdirection)
  · intro n hn hvoid
    obtain ⟨t, ht, hmem⟩ := htypes n hn hvoid
    exact (hvalid t ht n hmem).2.of_void (hread n hn) hvoid
  · intro n hn hvoid
    obtain ⟨t, ht, hmem⟩ := htypes n hn hvoid
    rcases t.eq_or_mem_arguments hmem with rfl | ⟨outer, houter, hargument⟩
    · rcases typeSpecs_cases ht with ⟨f, hf, rfl⟩ | ⟨c, hc, rfl⟩ | hmethod
      · exact absurd hvoid (hfields f hf).notVoid
      · exact absurd hvoid (hconstantVoid c hc)
      · exact .inl hmethod
    · refine .inr ⟨outer, mem_allNodes_iff.mpr ⟨t, .inl ht, houter⟩, hargument, ?_⟩
      exact (hvalid t ht outer houter).2.generic_of_void hargument hvoid

end Decl

/-! ### Documents -/

namespace Registry

/-- **Places of `void`**: in the registry that a positive validation leaves, no field, no constant
and no backing type of the document is `void`, and wherever it stands in a type, it is without
arguments, array mark and null. It stands as the type of a result or an argument of a method, where
an argument goes to the callee, or as an argument of a type that is declared as generic. -/
theorem Reachable.validate_void (hr : r.Reachable Document.IsFresh) {number : Nat}
    {options : Options} {report : ValidationReport}
    (h : (r.validate number options).2 = .ok report) (hvalid : report.valid = true) :
    let after := (r.validate number options).1
    ∃ doc, after.document? number = some doc ∧ ∀ d ∈ doc.decls, d.KeepsVoid after := by
  intro after
  obtain ⟨doc, hdoc, hpasses⟩ := passes_of_valid h hvalid
  refine ⟨doc, hdoc, fun d hd => ?_⟩
  have hdecl : (d.check after).passes = true := passes_checkEach_iff.mp hpasses d hd
  have hreachable : after.Reachable Document.IsFresh := hr.validate number options
  have hread : ∀ n ∈ d.allNodes, n.base.ReadIn after d.typeParams :=
    fun n hn => (hreachable.readIn (fun _ => id) (List.mem_of_getElem? hdoc) hd hn).base
  have hknown : d.members.Known after := by
    refine hreachable.known (fun n hn => hread n (List.mem_append_left _ hn)) fun n hn => ?_
    obtain ⟨t, ht, hmem⟩ := List.mem_flatMap.mp hn
    exact (Decl.isValid_typeSpecs_of_passes hdecl t ht n hmem).1
  exact Decl.keepsVoid_of_passes hread hknown hdecl (backing_of_valid h hvalid hdoc d hd)

/-- A generic parcelable, and an interface with a method that takes `void`, by itself and boxed. -/
def voidMailbox : Document :=
  let loc : Location := ⟨"IMailbox.aidl", none⟩
  let header (name : String) : Header := ⟨loc, "p", name, "", {}⟩
  let nothing : TypeSpec := .named loc "void"
  let boxed : TypeSpec := { TypeSpec.named loc "Box" with arguments := [nothing] }
  let put : Method :=
    { location := loc, returnType := nothing, name := "put",
      arguments := [⟨loc, nothing, "letter", none⟩, ⟨loc, boxed, "parcel", some .input⟩] }
  let value : Field := ⟨loc, .named loc "T", "value", none⟩
  ⟨[], [⟨header "Box", .structured (some ["T"]) { fields := [value] }⟩,
    ⟨header "IMailbox", .interface false { methods := [put] }⟩]⟩

/-- The document is valid, so `void` goes to the callee only. -/
theorem validate_void_mailbox :
    let r := (empty.addDocument voidMailbox).value
    let validated := r.validate 0 {}
    r.Reachable Document.IsFresh ∧ validated.2.toOption.map (·.valid) = some true ∧
      ∃ doc, validated.1.document? 0 = some doc ∧ ∀ d ∈ doc.decls, ∀ m ∈ d.methods,
        ∀ a ∈ m.arguments, a.type.name = "void" → a.direction = .input := by
  intro r validated
  have hr : r.Reachable Document.IsFresh := .addDocument .empty (by decide +kernel)
  have haccepted : validated.2.toOption.map (·.valid) = some true := by decide +kernel
  obtain ⟨report, hreport, hvalid⟩ := Option.map_eq_some_iff.mp haccepted
  obtain ⟨doc, hdoc, hall⟩ := hr.validate_void (toOption_eq_some_iff.mp hreport) hvalid
  exact ⟨hr, haccepted, doc, hdoc, fun d hd => (hall d hd).arguments⟩

/-- A method takes `void`, and a type that holds it, in a valid document without any report. -/
theorem validate_voidMailbox :
    let r := (empty.addDocument voidMailbox).value
    let validated := r.validate 0 {}
    r.Reachable Document.IsFresh ∧
      validated.2.toOption.map (fun report => (report.valid, report.diagnostics.length)) =
        some (true, 0) ∧
      (validated.1.document? 0).map (fun doc => doc.decls.flatMap fun d =>
        d.methods.flatMap fun m => m.arguments.map (·.type.signature)) =
          some ["void", "p.Box<void>"] := by
  intro r validated
  exact ⟨.addDocument .empty (by decide +kernel), by decide +kernel, by decide +kernel⟩

end Registry

end InterfaceDefinition
