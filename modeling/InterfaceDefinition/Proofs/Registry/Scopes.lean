import InterfaceDefinition.Evaluation
import InterfaceDefinition.Proofs.Registry.Reachable

/-!
# Type names and references in one scope

A type name in front of a member's name is read by evaluation, and by itself it is read by
resolution. Both look it up below the package of the declaration they stand in. So a reference
`T.M` denotes the member `M` of what the type name `T` means there, as long as no import gives `T`
another class (`Registry.Reachable.constant?_agrees`); of an enum it denotes an enumerator once the
enum has a backing type.

Evaluation knows the scope by its canonical name only, and not the imports of its document. A type
that is imported has to be named in full in a reference (`Registry.constant?_importedBounds`).
-/

namespace InterfaceDefinition

/-- Constants are looked up by name among those of the declaration. -/
theorem Decl.constant?_of_ne_enum (d : Decl) (h : d.kind ≠ .enum) (name : String) :
    d.constant? name = (d.constants.find? (·.name == name)).map fun c =>
      ⟨c.value, c.type, d.canonicalName⟩ := by
  rw [constant?]
  split
  · contradiction
  · rfl

/-- Before an enum has a backing type its enumerators are not found as constants. -/
theorem Decl.constant?_of_enum (d : Decl) (h : d.kind = .enum) (name : String) :
    d.constant? name = (d.enumerator? name).bind fun (_, value) =>
      d.backing?.map fun backing => ⟨value, backing, d.canonicalName⟩ := by
  rw [constant?, h]
  cases d.backing? <;> rfl

namespace Registry

/-- What a reference to a member of a type denotes, from inside a declaration whose name has no
dot: the member of the declaration that the type name leads to below the package. -/
theorem constant?_member (r : Registry) {scope : Decl} (hscope : '.' ∉ scope.name.toList)
    (type : String) {member : String} (hmember : '.' ∉ member.toList) :
    r.constant? scope.canonicalName (type ++ "." ++ member) =
      (r.declIn? scope.header.package type).bind (·.constant? member) := by
  have hpackage : (Dotted.qualifier? scope.canonicalName).getD "" = scope.header.package :=
    Dotted.qualifier?_qualify hscope scope.header.package
  rw [constant?, Dotted.qualifier?_append hmember]
  simp only [hpackage, Dotted.lastSegment_append hmember]

/-- **One scope**: in a reachable registry, from inside a declaration whose name has no dot, let a
type name be neither builtin nor a type parameter, and let the imports leave it as it is. If it is
given a meaning, that is a declaration, and a reference to a member of the type denotes the constant
of that name in the declaration, or the enumerator if that is an enum with a backing type, or
nothing when there is none. If the type name has no meaning, the reference denotes nothing. -/
theorem Reachable.constant?_agrees {Admitted : Document → Prop} {r : Registry}
    (hr : r.Reachable Admitted) {imports : List Import} {scope : Decl}
    (hscope : '.' ∉ scope.name.toList) {type member : String}
    (hbuiltin : Vocabulary.isBuiltin type = false) (hparam : type ∉ scope.typeParams)
    (himports : (Import.resolveName imports type).value = some type)
    (hmember : '.' ∉ member.toList) :
    let meaning := (r.resolver imports scope.header.package scope.typeParams type).value
    let denoted := r.constant? scope.canonicalName (type ++ "." ++ member)
    (∀ resolution, meaning = some resolution → ∃ target d,
      resolution.target = some target ∧ r.decl? target.id = some d ∧
      d.canonicalName = resolution.canonicalName ∧
      (d.kind ≠ .enum → denoted = (d.constants.find? (·.name == member)).map fun c =>
        ⟨c.value, c.type, d.canonicalName⟩) ∧
      (d.kind = .enum → denoted = (d.enumerator? member).bind fun (_, value) =>
        d.backing?.map fun backing => ⟨value, backing, d.canonicalName⟩)) ∧
    (meaning = none → denoted = none) := by
  intro meaning denoted
  have hmeaning : meaning = (r.lookup? scope.header.package type).map fun found =>
      ⟨found.1, some found.2⟩ := by
    rw [show meaning = _ from value_resolver r imports scope.header.package hparam, himports,
      Option.bind_some, resolveIn, if_neg (by simp [hbuiltin])]
  have hdenoted : denoted = (r.declIn? scope.header.package type).bind (·.constant? member) :=
    r.constant?_member hscope type hmember
  rw [declIn?] at hdenoted
  cases hfound : r.lookup? scope.header.package type with
  | none =>
    rw [hfound] at hmeaning hdenoted
    exact ⟨fun _ h => absurd (h.symm.trans hmeaning) (Option.some_ne_none _), fun _ => hdenoted⟩
  | some found =>
    rw [hfound] at hmeaning hdenoted
    obtain ⟨d, hd, hname, -⟩ := hr.indexed.exists_decl_of_indexed? (indexed?_of_lookup? hfound)
    have hdenoted : denoted = d.constant? member := by
      rw [hdenoted, Option.bind_some]
      dsimp only
      rw [hd, Option.bind_some]
    refine ⟨fun resolution h => ?_,
      fun h => absurd (hmeaning.symm.trans h) (Option.some_ne_none _)⟩
    obtain rfl := Option.some.inj (hmeaning.symm.trans h)
    exact ⟨found.2, d, rfl, hd, hname,
      fun hkind => hdenoted.trans (d.constant?_of_ne_enum hkind member),
      fun hkind => hdenoted.trans (d.constant?_of_enum hkind member)⟩

/-- A parcelable with a constant. -/
def bounds : Document :=
  let loc : Location := ⟨"Bounds.aidl", none⟩
  let max : Expr := .literal loc .integral "42"
  ⟨[], [⟨⟨loc, "q", "Bounds", "", {}⟩,
    .structured none { constants := [⟨loc, .named loc "int", "MAX", max⟩] }⟩]⟩

/-- A parcelable in some package, with a field of that type. -/
def bounded (package : String) : Decl :=
  let loc : Location := ⟨"Bounded.aidl", none⟩
  ⟨⟨loc, package, "Bounded", "", {}⟩,
    .structured none { fields := [⟨loc, .named loc "Bounds", "bounds", none⟩] }⟩

/-- In the package of the type both the type name and the reference are found. -/
theorem constant?_neighbouringBounds :
    let r := ((empty.addDocument bounds).value.addDocument ⟨[], [bounded "q"]⟩).value
    r.Reachable Document.IsFresh ∧
      (r.resolver [] "q" [] "Bounds").value = some ⟨"q.Bounds", some ⟨⟨0, 0⟩, .structured⟩⟩ ∧
      (r.constant? "q.Bounded" "Bounds.MAX").map (fun c => (c.value.text, c.scope)) =
        some ("42", "q.Bounds") := by
  intro r
  have hr : r.Reachable Document.IsFresh :=
    .addDocument (.addDocument .empty (by decide +kernel)) (by decide +kernel)
  have hmeaning : (r.resolver [] "q" [] "Bounds").value =
      some ⟨"q.Bounds", some ⟨⟨0, 0⟩, .structured⟩⟩ := by decide +kernel
  have hscope : '.' ∉ (bounded "q").name.toList := by decide +kernel
  have hbuiltin : Vocabulary.isBuiltin "Bounds" = false := by decide +kernel
  have hparam : "Bounds" ∉ (bounded "q").typeParams := by decide +kernel
  have himports : (Import.resolveName [] "Bounds").value = some "Bounds" := by decide +kernel
  have hmember : '.' ∉ "MAX".toList := by decide +kernel
  obtain ⟨target, d, htarget, hd, -, hconstant, -⟩ :=
    (hr.constant?_agrees hscope hbuiltin hparam himports hmember).1 _ hmeaning
  obtain rfl := Option.some.inj htarget
  have hbounds : (r.decl? ⟨0, 0⟩).map (fun d => (d.kind, d.canonicalName,
      (d.constants.find? (·.name == "MAX")).map (·.value.text))) =
        some (.structured, "q.Bounds", some "42") := by decide +kernel
  simp only [hd, Option.map_some, Option.some.injEq, Prod.mk.injEq] at hbounds
  obtain ⟨hkind, hname, hvalue⟩ := hbounds
  refine ⟨hr, hmeaning, ?_⟩
  rw [show r.constant? "q.Bounded" "Bounds.MAX" = _ from hconstant (by simp [hkind])]
  obtain ⟨c, hc, hvalue⟩ := Option.map_eq_some_iff.mp hvalue
  simp [hc, hvalue, hname]

/-- Through an import only the type name is found. -/
theorem constant?_importedBounds :
    let imports : List Import := [⟨⟨"Bounded.aidl", none⟩, "q.Bounds"⟩]
    let r := ((empty.addDocument bounds).value.addDocument ⟨imports, [bounded "p"]⟩).value
    r.Reachable Document.IsFresh ∧
      (r.resolver imports "p" [] "Bounds").value =
        some ⟨"q.Bounds", some ⟨⟨0, 0⟩, .structured⟩⟩ ∧
      ((r.decl? ⟨0, 0⟩).bind (·.constant? "MAX")).isSome = true ∧
      (r.constant? "p.Bounded" "Bounds.MAX").isSome = false := by
  intro imports r
  have hr : r.Reachable Document.IsFresh :=
    .addDocument (.addDocument .empty (by decide +kernel)) (by decide +kernel)
  exact ⟨hr, by decide +kernel, by decide +kernel, by decide +kernel⟩

end Registry

end InterfaceDefinition
