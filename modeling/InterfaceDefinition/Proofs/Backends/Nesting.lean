import InterfaceDefinition.Proofs.Acceptance.Declarations
import InterfaceDefinition.Proofs.Backends.Strictness
import InterfaceDefinition.Proofs.Registry.Reachable

/-!
# Backends and nested types

The check for a backend looks at the types of values themselves and not at their arguments. In lists
and maps it need not look deeper: the general check leaves only such elements that every backend
supports, and maps are for Java alone, which supports all values. So a document that is accepted for
a backend has, in lists and maps at any depth, no type that the backend does not support, unless for
being an array (`Registry.validate_supports`).

Arrays in lists and maps, and all arguments of types that are declared with parameters, are checked
for no backend (`Registry.validate_boxedDescriptor`, `Registry.validate_listOfBinderArrays`).
-/

namespace InterfaceDefinition

namespace TypeSpec

/-- What a type holds in lists and maps, at any depth; the type itself included. -/
inductive InContainers (t : TypeSpec) : TypeSpec → Prop
  | self : InContainers t t
  | argument {n a : TypeSpec} (h : InContainers t n) (hname : n.name = "List" ∨ n.name = "Map")
      (ha : a ∈ n.arguments) : InContainers t a

variable {r : Registry} {b : Backend} {t n a : TypeSpec}

/-- Lists and maps hold their arguments, so what is inside of a type is a node of it. -/
theorem InContainers.mem_nodes (h : t.InContainers n) : n ∈ t.nodes := by
  induction h with
  | self => exact t.self_mem_nodes
  | argument _ _ ha ih => exact mem_nodes_of_mem_arguments ih ha

/-- A type whose name a backend supports, and the whole of it unless it is an array. -/
structure SupportedInside (r : Registry) (b : Backend) (t : TypeSpec) : Prop where
  supported : t.isArray = false → t.SupportedBy r b
  collection : b ≠ .java → t.name ≠ "Map" ∧ t.name ≠ "CharSequence"
  native : b.isNativeStable = true → t.name ≠ "FileDescriptor" ∧ t.name ≠ "ParcelableHolder"

/-- What a backend supports as the type of a value it supports inside of one; the converse fails for
arrays. -/
theorem SupportedBy.supportedInside (h : t.SupportedBy r b) : t.SupportedInside r b where
  supported _ := h
  collection hjava := (h.collection hjava).2
  native hnative := ⟨(h.native hnative).2.1, (h.native hnative).1⟩

/-- An element of a list has none of the names that some backend refuses. -/
theorem name_notMem_of_isListElement (h : t.isListElement = true) :
    t.name ∉ ["List", "Map", "CharSequence", "ParcelableHolder", "FileDescriptor"] := by
  have hrefused : ∀ name ∈ ["List", "Map", "CharSequence", "ParcelableHolder", "FileDescriptor"],
      Vocabulary.isBuiltin name = true ∧ Vocabulary.listElements.contains name = false := by
    decide +kernel
  intro hmem
  obtain ⟨hbuiltin, helement⟩ := hrefused t.name hmem
  rw [isListElement, if_pos hbuiltin, helement] at h
  exact Bool.false_ne_true h

/-- Every backend supports the elements of lists, but arrays of them. -/
theorem supportedInside_of_isListElement (h : t.isListElement = true) : t.SupportedInside r b := by
  have hname := name_notMem_of_isListElement h
  simp only [List.mem_cons, List.not_mem_nil, or_false, not_or] at hname
  obtain ⟨hlist, hmap, hsequence, hholder, hdescriptor⟩ := hname
  refine ⟨fun harray => ⟨?_, ?_, ?_, ?_⟩, fun _ => ⟨hmap, hsequence⟩,
    fun _ => ⟨hdescriptor, hholder⟩⟩
  · simp [harray]
  · exact fun _ => ⟨fun hname => absurd hname hlist, hmap, hsequence⟩
  · simp [harray, hholder, hdescriptor]
  · exact fun _ hname => absurd hname hlist

/-- Java supports every type, but arrays of collections. -/
theorem supportedInside_java : t.SupportedInside r .java where
  supported harray := ⟨by simp [harray], by simp, by simp [Backend.isNativeStable], by simp⟩
  collection := by simp
  native := by simp [Backend.isNativeStable]

/-- What a type holds in lists and maps has names that the backend supports, if the type is valid
and the backend supports it. -/
theorem SupportedBy.inContainers (h : t.SupportedBy r b) (hkeeps : ∀ n ∈ t.nodes, n.KeepsRules r)
    (hn : t.InContainers n) : n.SupportedInside r b := by
  induction hn with
  | self => exact h.supportedInside
  | @argument n a hn hname ha ih =>
    have hgeneric : n.isGeneric = true := by simpa [isGeneric] using List.ne_nil_of_mem ha
    rcases hname with hlist | hmap
    · obtain ⟨-, element, heq, helement⟩ := (hkeeps n hn.mem_nodes).list hlist hgeneric
      obtain rfl : a = element := by simpa [heq] using ha
      exact supportedInside_of_isListElement helement
    · -- a map is accepted for Java only
      obtain rfl : b = .java :=
        Decidable.byContradiction fun hjava => (ih.collection hjava).1 hmap
      exact supportedInside_java

end TypeSpec

namespace Registry

/-- **Backends see into containers**: when a validation accepts a document for a backend, the
backend accepts, in the registry that is left, the type of every field, result and argument in the
document. What such a type holds in lists and maps, at any depth, is accepted too unless it is an
array. None of it, array or not, is called a bare descriptor or a holder if the backend is for
stable native code, or a map or a sequence of characters if it is not for Java. -/
theorem validate_supports {r : Registry} {number : Nat} {options : Options}
    {report : ValidationReport} {b : Backend}
    (h : (r.validate number options).2 = .ok report) (hb : (b, true) ∈ report.backends) :
    let after := (r.validate number options).1
    ∃ doc, after.document? number = some doc ∧ ∀ d ∈ doc.decls, ∀ t ∈ d.valueTypes,
      (t.checkFor after b).value = true ∧ ∀ n, t.InContainers n →
        (n.isArray = false → (n.checkFor after b).value = true) ∧
        (b = .ndk ∨ b = .rust → n.name ≠ "FileDescriptor" ∧ n.name ≠ "ParcelableHolder") ∧
        (b ≠ .java → n.name ≠ "Map" ∧ n.name ≠ "CharSequence") := by
  intro after
  obtain ⟨doc, hdoc, hchecked, hbackend⟩ := accepted_of_mem_backends h hb
  refine ⟨doc, hdoc, fun d hd t ht => ?_⟩
  have hdecl : (d.check after).passes = true := Fallible.passes_checkEach_iff.mp hchecked d hd
  obtain ⟨htypes, hpasses⟩ := Decl.valueTypes_of_passes hdecl
  have hsupported : t.SupportedBy after b :=
    (Document.value_checkFor_iff.mp hbackend).2 d hd t (htypes ▸ ht)
  have hkeeps := (TypeSpec.passes_check_iff after t).mp (hpasses t ht)
  refine ⟨TypeSpec.value_checkFor_iff.mpr hsupported, fun n hn => ?_⟩
  have hinside : n.SupportedInside after b := hsupported.inContainers hkeeps hn
  refine ⟨fun harray => TypeSpec.value_checkFor_iff.mpr (hinside.supported harray), ?_,
    hinside.collection⟩
  rintro (rfl | rfl)
  · exact hinside.native rfl
  · exact hinside.native rfl

/-- Two parcelables of one file, the second with a field of the given type. -/
def holding (typeParams : Option (List String)) (name : String) (t : TypeSpec) : Document :=
  let loc : Location := ⟨"Holding.aidl", none⟩
  ⟨[], [⟨⟨loc, "p", name, "", {}⟩, .structured typeParams {}⟩,
    ⟨⟨loc, "p", "Holding", "", {}⟩, .structured none { fields := [⟨loc, t, "held", none⟩] }⟩]⟩

/-- The NDK backend accepts a list of parcelables, and so the parcelable inside of it, which is not
an array. -/
theorem validate_supports_items :
    let loc : Location := ⟨"Holding.aidl", none⟩
    let items : TypeSpec := { TypeSpec.named loc "List" with arguments := [.named loc "Item"] }
    let r := (empty.addDocument (holding none "Item" items)).value
    let options : Options := ⟨[.ndk], {}⟩
    let after := (r.validate 0 options).1
    ∃ report doc, (r.validate 0 options).2 = .ok report ∧ (.ndk, true) ∈ report.backends ∧
      after.document? 0 = some doc ∧ ∃ d ∈ doc.decls, ∃ t ∈ d.valueTypes, ∃ n,
        t.InContainers n ∧ n.name = "p.Item" ∧ (n.checkFor after .ndk).value = true := by
  intro loc items r options after
  have hbackends : (r.validate 0 options).2.toOption.map (·.backends) = some [(.ndk, true)] := by
    decide +kernel
  have hnames : (after.document? 0).map (fun doc => doc.decls.flatMap fun d =>
      d.valueTypes.map fun t => (t.name, t.arguments.map fun a => (a.name, a.isArray))) =
        some [("List", [("p.Item", false)])] := by decide +kernel
  obtain ⟨report, hreport, hverdicts⟩ := Option.map_eq_some_iff.mp hbackends
  have hreport : (r.validate 0 options).2 = .ok report := toOption_eq_some_iff.mp hreport
  have hmem : (Backend.ndk, true) ∈ report.backends := hverdicts ▸ List.mem_singleton_self _
  obtain ⟨doc, hdoc, hsupports⟩ := validate_supports hreport hmem
  have hafter : after.document? 0 = some doc := hdoc
  rw [hafter, Option.map_some, Option.some.injEq] at hnames
  have hlist : ("List", [("p.Item", false)]) ∈ doc.decls.flatMap fun d =>
      d.valueTypes.map fun t => (t.name, t.arguments.map fun a => (a.name, a.isArray)) := by
    rw [hnames]
    exact List.mem_singleton_self _
  obtain ⟨d, hd, hmap⟩ := List.mem_flatMap.mp hlist
  obtain ⟨t, ht, hparts⟩ := List.mem_map.mp hmap
  obtain ⟨hname, harguments⟩ := Prod.mk.inj hparts
  obtain ⟨n, rest, heq, hn, -⟩ := List.map_eq_cons_iff.mp harguments
  obtain ⟨hitem, harray⟩ := Prod.mk.inj hn
  have hheld : t.InContainers n := .argument .self (.inl hname) (heq ▸ List.mem_cons_self)
  exact ⟨report, doc, hreport, hmem, hafter, d, hd, t, ht, n, hheld, hitem,
    ((hsupports d hd t ht).2 n hheld).1 harray⟩

/-- Inside a type that is declared with a parameter, a bare descriptor passes for the NDK. -/
theorem validate_boxedDescriptor :
    let loc : Location := ⟨"Holding.aidl", none⟩
    let boxed : TypeSpec :=
      { TypeSpec.named loc "Box" with arguments := [.named loc "FileDescriptor"] }
    let r := (empty.addDocument (holding (some ["T"]) "Box" boxed)).value
    let validated := r.validate 0 ⟨[.ndk], {}⟩
    r.Reachable Document.IsFresh ∧ validated.2.toOption.map (·.backends) = some [(.ndk, true)] ∧
      (validated.1.document? 0).map (fun doc => doc.decls.flatMap fun d =>
        d.valueTypes.flatMap fun t => t.nodes.map fun n =>
          (n.name, (n.checkFor validated.1 .ndk).value)) =
        some [("p.Box", true), ("FileDescriptor", false)] := by
  intro loc boxed r validated
  have hr : r.Reachable Document.IsFresh := .addDocument .empty (by decide +kernel)
  exact ⟨hr, by decide +kernel, by decide +kernel⟩

/-- Inside a list, an array of binders passes for Rust. -/
theorem validate_listOfBinderArrays :
    let loc : Location := ⟨"Holding.aidl", none⟩
    let binders : TypeSpec := { TypeSpec.named loc "IBinder" with isArray := true }
    let list : TypeSpec := { TypeSpec.named loc "List" with arguments := [binders] }
    let r := (empty.addDocument (holding none "Item" list)).value
    let validated := r.validate 0 ⟨[.rust], {}⟩
    r.Reachable Document.IsFresh ∧ validated.2.toOption.map (·.backends) = some [(.rust, true)] ∧
      (validated.1.document? 0).map (fun doc => doc.decls.flatMap fun d =>
        d.valueTypes.flatMap fun t => t.nodes.map fun n =>
          (n.signature, (n.checkFor validated.1 .rust).value)) =
        some [("List<IBinder[]>", true), ("IBinder[]", false)] := by
  intro loc binders list r validated
  have hr : r.Reachable Document.IsFresh := .addDocument .empty (by decide +kernel)
  exact ⟨hr, by decide +kernel, by decide +kernel⟩

end Registry

end InterfaceDefinition
