import InterfaceDefinition.Proofs.Acceptance.Types
import InterfaceDefinition.Proofs.Registry.Readings

/-!
# What containers hold

Lists and maps are the builtin types with arguments, and what they may hold is said in terms of
names: a list holds text, binders, file descriptors in parcels, parcelables, unions or values of a
type parameter, and a map is keyed by text. In a reachable registry this is what every node of a
type that passes its check keeps (`Registry.Reachable.check_containers`): of the builtin names few
may be elements, and a name that is not builtin was read as a type parameter or as a declaration,
which is neither an enum nor an interface.

The rules look at names alone. An element, a key or a text marked as UTF-8 may still be an array
(`Registry.check_containers_arrays`).
-/

namespace InterfaceDefinition

namespace TypeSpec

variable {r : Registry} {typeParams : List String} {t n : TypeSpec}

/-- The nodes of a type that was read were read. -/
theorem ReadIn.of_mem_nodes (h : t.ReadIn r typeParams) (hn : n ∈ t.nodes) :
    n.ReadIn r typeParams :=
  fun a ha => h a (nodes_subset_of_mem t hn ha)

theorem ReadIn.base (h : t.ReadIn r typeParams) : t.base.ReadIn r typeParams :=
  h t t.self_mem_nodes

/-- An argument that is neither primitive nor of an enum type is so for its declaration too. -/
theorem ReadIn.kind_ne_enum (h : t.ReadIn r typeParams) (hr : r.Indexed)
    (hargument : t.isPrimitiveOrEnum = false) :
    Vocabulary.isPrimitive t.name = false ∧ ∀ d, r.named? t.base = some d → d.kind ≠ .enum := by
  obtain ⟨henum, hprimitive⟩ := Bool.or_eq_false_iff.mp hargument
  refine ⟨hprimitive, fun d hd hkind => ?_⟩
  obtain ⟨target, htarget, -⟩ := Option.bind_eq_some_iff.mp hd
  obtain ⟨d', hd', -, hkind'⟩ := hr.exists_named? h.base htarget
  obtain rfl : d' = d := Option.some.inj (hd'.symm.trans hd)
  have htargetKind : target.kind = .enum := hkind'.symm.trans hkind
  simp [TypeName.isEnum, TypeName.isKind, htarget, htargetKind] at henum

/-- An element of a list is one of the builtin types that may be, a type parameter, or declared as
what is passed in parcels. -/
theorem ReadIn.element_cases (h : t.ReadIn r typeParams) (hr : r.Indexed)
    (hresolved : t.base.isResolved = true) (hargument : t.isPrimitiveOrEnum = false)
    (helement : t.isListElement = true) :
    t.name ∈ ["String", "IBinder", "ParcelFileDescriptor"] ∨ t.name ∈ typeParams ∨
      ∃ d, r.named? t.base = some d ∧ d.canonicalName = t.name ∧
        (d.kind = .parcelable ∨ d.kind = .structured ∨ d.kind = .union) := by
  rw [isListElement] at helement
  split at helement
  · exact .inl (by simpa [Vocabulary.listElements] using helement)
  · next hbuiltin =>
    refine .inr ?_
    cases htarget : t.base.target? with
    | none => exact .inl ((h.base.isBuiltin_or_mem hresolved htarget).resolve_left hbuiltin)
    | some target =>
      obtain ⟨d, hd, hname, hkind⟩ := hr.exists_named? h.base htarget
      refine .inr ⟨d, hd, hname, ?_⟩
      have henum : d.kind ≠ .enum := (h.kind_ne_enum hr hargument).2 d hd
      have hinterface : d.kind ≠ .interface := by
        rw [hkind]
        simpa [TypeName.isInterface, TypeName.isKind, htarget] using helement
      cases hd : d.kind with
      | parcelable => exact .inl rfl
      | structured => exact .inr (.inl rfl)
      | union => exact .inr (.inr rfl)
      | enum => exact absurd hd henum
      | interface => exact absurd hd hinterface

/-- Text has no arguments. -/
theorem KeepsRules.isGeneric_of_string (hkeeps : n.KeepsRules r) (h : n.ReadIn r typeParams)
    (hname : n.name = "String") : n.isGeneric = false := by
  have hbuiltin : Vocabulary.isBuiltin n.base.text = true := by
    rw [show n.base.text = "String" from hname]
    decide +kernel
  exact hkeeps.isGeneric_eq_false (h.base.target?_eq_none hbuiltin) (by simp [hname])
    (by simp [hname])

/-- Text is written as such, as an array or not. -/
theorem KeepsRules.signature_of_string (hkeeps : n.KeepsRules r) (h : n.ReadIn r typeParams)
    (hname : n.name = "String") : n.signature = "String" ∨ n.signature = "String[]" := by
  have hgeneric : n.isGeneric = false := hkeeps.isGeneric_of_string h hname
  have harguments : n.arguments.isEmpty = true := by simpa [isGeneric] using hgeneric
  rw [signature_eq, hname, if_pos harguments]
  cases n.isArray with
  | false => exact .inl rfl
  | true => exact .inr rfl

/-- A list of one element is written around it. -/
theorem signature_of_list {element : TypeSpec} (hname : n.name = "List")
    (harguments : n.arguments = [element]) :
    n.signature = "List<" ++ element.signature ++ ">" ++ if n.isArray then "[]" else "" := by
  have hopen : "List<" = "List" ++ "<" := rfl
  rw [signature_eq, hname, harguments, hopen]
  simp [-String.reduceAppend, String.append_assoc]

end TypeSpec

namespace Registry

open TypeSpec

/-- **Documented containers**: in a reachable registry of documents that were registered as they are
written, take a type that was read in it and passes its check, and a node of it at any depth. If the
node is a list with arguments, there is one, and by its name it is text, a binder, a file descriptor
in a parcel, a type parameter, a parcelable or a union. If it is a map with arguments, there are
two, and by its name the first is text. No argument of either is primitive or an enum. And if the
node is marked as UTF-8 text, it is text or a list of text, each of them an array or not. -/
theorem Reachable.check_containers {r : Registry} (hr : r.Reachable Document.IsFresh)
    {typeParams : List String} {t : TypeSpec} (hread : t.ReadIn r typeParams)
    (hcheck : (t.check r).passes = true) {n : TypeSpec} (hn : n ∈ t.nodes) :
    (n.name = "List" → n.arguments ≠ [] → ∃ element, n.arguments = [element] ∧
      (element.name ∈ ["String", "IBinder", "ParcelFileDescriptor"] ∨ element.name ∈ typeParams ∨
        ∃ d, r.named? element.base = some d ∧ d.canonicalName = element.name ∧
          (d.kind = .parcelable ∨ d.kind = .structured ∨ d.kind = .union))) ∧
    (n.name = "Map" → n.arguments ≠ [] → ∃ key value,
      n.arguments = [key, value] ∧ key.name = "String") ∧
    (n.name = "List" ∨ n.name = "Map" → ∀ a ∈ n.arguments,
      Vocabulary.isPrimitive a.name = false ∧ ∀ d, r.named? a.base = some d → d.kind ≠ .enum) ∧
    (n.isUtf8 = true → n.signature ∈ ["String", "String[]", "List<String>", "List<String>[]",
      "List<String[]>", "List<String[]>[]"]) := by
  have hkeeps := (passes_check_iff r t).mp hcheck
  have hargument : ∀ a ∈ n.arguments, a ∈ t.nodes := fun a ha => mem_nodes_of_mem_arguments hn ha
  have hgeneric : n.arguments ≠ [] → n.isGeneric = true := fun h => by simpa [isGeneric] using h
  refine ⟨fun hname harguments => ?_, fun hname harguments => ?_, ?_, ?_⟩
  · obtain ⟨hprimitive, element, heq, helement⟩ := (hkeeps n hn).list hname (hgeneric harguments)
    have hmem : element ∈ n.arguments := heq ▸ List.mem_singleton_self element
    have hnode : element ∈ t.nodes := hargument element hmem
    exact ⟨element, heq, (hread.of_mem_nodes hnode).element_cases hr.indexed
      (hkeeps element hnode).resolved (hprimitive element hmem) helement⟩
  · exact ((hkeeps n hn).map hname (hgeneric harguments)).2
  · intro hname a ha
    have hsome : n.arguments ≠ [] := List.ne_nil_of_mem ha
    have hprimitive : a.isPrimitiveOrEnum = false := by
      rcases hname with hname | hname
      · exact ((hkeeps n hn).list hname (hgeneric hsome)).1 a ha
      · exact ((hkeeps n hn).map hname (hgeneric hsome)).1 a ha
    exact (hread.of_mem_nodes (hargument a ha)).kind_ne_enum hr.indexed hprimitive
  · intro hutf8
    have htextual := (hkeeps n hn).isTextual hutf8
    rcases Bool.or_eq_true_iff.mp htextual with hname | hlist
    · have hname : n.name = "String" := by simpa using hname
      rcases (hkeeps n hn).signature_of_string (hread.of_mem_nodes hn) hname with h | h
      · simp [h]
      · simp [h]
    · simp only [Bool.and_eq_true, beq_iff_eq, List.all_eq_true] at hlist
      obtain ⟨⟨hname, hlength⟩, htexts⟩ := hlist
      obtain ⟨element, heq⟩ := List.length_eq_one_iff.mp hlength
      have hmem : element ∈ n.arguments := heq ▸ List.mem_singleton_self element
      have hnode : element ∈ t.nodes := hargument element hmem
      have helement := (hkeeps element hnode).signature_of_string (hread.of_mem_nodes hnode)
        (htexts element hmem)
      rw [signature_of_list hname heq]
      -- both the list and its element may be arrays
      rcases helement with h | h <;> cases n.isArray <;> simp [h]

/-- A parcelable without fields. -/
def plainItem : Document :=
  let loc : Location := ⟨"Item.aidl", none⟩
  ⟨[], [⟨⟨loc, "p", "Item", "", {}⟩, .structured none {}⟩]⟩

/-- A list of parcelables of the registry passes once its names are resolved, and its one argument
is the one declared there. -/
theorem check_containers_items :
    let loc : Location := ⟨"Basket.aidl", none⟩
    let items : TypeSpec := { named loc "List" with arguments := [.named loc "Item"] }
    let r := (empty.addDocument plainItem).value
    let t := ((items.resolve (r.resolver [] "p" [])).run (.ok true)).value.1
    r.Reachable Document.IsFresh ∧ t.ReadIn r [] ∧ (t.check r).passes = true ∧
      ∃ element d, t.arguments = [element] ∧ r.named? element.base = some d ∧
        d.canonicalName = "p.Item" := by
  intro loc items r t
  have hr : r.Reachable Document.IsFresh := .addDocument .empty (by decide +kernel)
  have hwritten : items.ReadIn r [] := by
    have hfresh : ∀ base ∈ items.nodes.map (·.base), base.IsFresh := by decide +kernel
    exact fun n hn => .fresh (hfresh n.base (List.mem_map_of_mem hn))
  have hread : t.ReadIn r [] := hwritten.resolve [] "p" (.ok true)
  have hcheck : (t.check r).passes = true := by decide +kernel
  have hname : t.name = "List" := by decide +kernel
  have hnames : t.arguments.map (·.name) = ["p.Item"] := by decide +kernel
  have harguments : t.arguments ≠ [] := by
    intro h
    simp [h] at hnames
  obtain ⟨element, heq, hcases⟩ :=
    (hr.check_containers hread hcheck t.self_mem_nodes).1 hname harguments
  have helement : element.name = "p.Item" := by simpa [heq] using hnames
  rw [helement] at hcases
  refine ⟨hr, hread, hcheck, element, ?_⟩
  rcases hcases with hbuiltin | hparam | ⟨d, hd, hcanonical, -⟩
  · simp at hbuiltin
  · simp at hparam
  · exact ⟨d, heq, hd, hcanonical⟩

/-- Texts in arrays pass where text does: as elements, as keys and as UTF-8 text. -/
theorem check_containers_arrays :
    let loc : Location := ⟨"Item.aidl", none⟩
    let text : TypeSpec := builtin loc "String"
    let texts : TypeSpec := { text with isArray := true }
    let list : TypeSpec := { builtin loc "List" with arguments := [texts] }
    let map : TypeSpec := { builtin loc "Map" with arguments := [texts, text] }
    let utf8 : Annotation := ⟨loc, .utf8InCpp, [], .nil⟩
    [list, map, { list with annotations := ⟨[utf8]⟩ }].map
        (fun t => (t.signature, t.isUtf8, (t.check empty).passes)) =
      [("List<String[]>", false, true), ("Map<String[],String>", false, true),
        ("List<String[]>", true, true)] := by
  decide +kernel

end Registry

end InterfaceDefinition
