import InterfaceDefinition.Evaluation
import InterfaceDefinition.Proofs.Resolution.Nodes

/-!
# Declarations at other places

The place of a declaration is a number of a document and a position in it, and every meaning that is
not builtin records such a place. `relocate ρ` replaces each place `id` by `ρ id` in a name, a type
or a declaration and changes nothing else: what a check looks at besides places stays
(the `simp` lemmas of each section), and what has no meaning yet is as it was
(`TypeSpec.relocate_eq_self`, `Decl.mapTypes_eq_self`).

The types of the members of a declaration and the backing type of an enum are written at different
times. So `Decl.mapTypes` maps the former, like `Decl.mapTypesM` does, and `Decl.relocate` both.
-/

namespace InterfaceDefinition

variable (ρ : DeclId → DeclId)

/-! ### Names -/

/-- The declaration at its other place. -/
def DeclRef.relocate (target : DeclRef) : DeclRef :=
  { target with id := ρ target.id }

@[simp] theorem DeclRef.kind_relocate (target : DeclRef) : (target.relocate ρ).kind = target.kind :=
  rfl

@[simp] theorem DeclRef.id_relocate (target : DeclRef) : (target.relocate ρ).id = ρ target.id :=
  rfl

/-- The meaning with its declaration at the other place. -/
def Resolution.relocate (resolution : Resolution) : Resolution :=
  { resolution with target := resolution.target.map (·.relocate ρ) }

namespace TypeName

/-- The name with its declaration at the other place. -/
def relocate (n : TypeName) : TypeName :=
  { n with resolution := n.resolution.map (·.relocate ρ) }

variable (n : TypeName)

@[simp] theorem written_relocate : (n.relocate ρ).written = n.written := rfl

@[simp] theorem text_relocate : (n.relocate ρ).text = n.text := by
  rcases n with ⟨written, _ | resolution⟩ <;> rfl

@[simp] theorem simpleName_relocate : (n.relocate ρ).simpleName = n.simpleName := by
  simp [simpleName]

@[simp] theorem isResolved_relocate : (n.relocate ρ).isResolved = n.isResolved := by
  simp [isResolved, relocate]

@[simp] theorem target?_relocate : (n.relocate ρ).target? = n.target?.map (·.relocate ρ) := by
  rcases n with ⟨written, _ | resolution⟩ <;> rfl

@[simp] theorem isKind_relocate (kind : DeclKind) : (n.relocate ρ).isKind kind = n.isKind kind := by
  simp [isKind, Option.any_map]

@[simp] theorem isEnum_relocate : (n.relocate ρ).isEnum = n.isEnum := by
  simp [isEnum]

@[simp] theorem isInterface_relocate : (n.relocate ρ).isInterface = n.isInterface := by
  simp [isInterface]

@[simp] theorem isParcelableLike_relocate :
    (n.relocate ρ).isParcelableLike = n.isParcelableLike := by
  simp [isParcelableLike, Option.any_map]

variable {n}

theorem relocate_eq_self (h : n.resolution = none) : n.relocate ρ = n := by
  rcases n with ⟨written, _ | resolution⟩
  · rfl
  · simp at h

theorem relocate_id (n : TypeName) : n.relocate id = n := by
  rcases n with ⟨written, _ | ⟨canonicalName, _ | target⟩⟩ <;> rfl

end TypeName

/-! ### Types -/

namespace TypeSpec

mutual

/-- The type with the declarations it names at their other places. -/
def relocate : TypeSpec → TypeSpec
  | ⟨loc, base, arguments, isArray, annotations, comments⟩ =>
    ⟨loc, base.relocate ρ, relocateAll arguments, isArray, annotations, comments⟩

/-- Several types with the declarations they name at their other places. -/
def relocateAll : List TypeSpec → List TypeSpec
  | [] => []
  | t :: rest => t.relocate :: relocateAll rest

end

theorem relocateAll_eq_map (ts : List TypeSpec) : relocateAll ρ ts = ts.map (relocate ρ) := by
  induction ts with
  | nil => rw [relocateAll]; rfl
  | cons t ts ih => rw [relocateAll, ih, List.map_cons]

theorem relocate_eq (t : TypeSpec) :
    t.relocate ρ =
      { t with base := t.base.relocate ρ, arguments := t.arguments.map (relocate ρ) } := by
  cases t
  rw [relocate, relocateAll_eq_map]

section Parts

variable (t : TypeSpec)

@[simp] theorem location_relocate : (t.relocate ρ).location = t.location := by
  rw [relocate_eq]

@[simp] theorem base_relocate : (t.relocate ρ).base = t.base.relocate ρ := by
  rw [relocate_eq]

@[simp] theorem arguments_relocate : (t.relocate ρ).arguments = t.arguments.map (relocate ρ) := by
  rw [relocate_eq]

@[simp] theorem isArray_relocate : (t.relocate ρ).isArray = t.isArray := by
  rw [relocate_eq]

@[simp] theorem annotations_relocate : (t.relocate ρ).annotations = t.annotations := by
  rw [relocate_eq]

@[simp] theorem name_relocate : (t.relocate ρ).name = t.name := by
  simp [name]

@[simp] theorem isGeneric_relocate : (t.relocate ρ).isGeneric = t.isGeneric := by
  simp [isGeneric]

@[simp] theorem isNullable_relocate : (t.relocate ρ).isNullable = t.isNullable := by
  simp [isNullable]

@[simp] theorem isUtf8_relocate : (t.relocate ρ).isUtf8 = t.isUtf8 := by
  simp [isUtf8]

@[simp] theorem canonicalName_relocate : (t.relocate ρ).canonicalName = t.canonicalName := by
  simp only [canonicalName, base_relocate, location_relocate, TypeName.written_relocate]
  rcases t.base with ⟨written, _ | resolution⟩ <;> rfl

end Parts

mutual

@[simp] theorem signature_relocate : (t : TypeSpec) → (t.relocate ρ).signature = t.signature
  | ⟨_, base, arguments, isArray, _, _⟩ => by
    rw [relocate, signature, signature, signatures_relocateAll, TypeName.text_relocate,
      relocateAll_eq_map, List.isEmpty_map]

theorem signatures_relocateAll :
    (ts : List TypeSpec) → signatures (relocateAll ρ ts) = signatures ts
  | [] => by rw [relocateAll]
  | t :: rest => by
    rw [relocateAll, signatures, signatures, signature_relocate, signatures_relocateAll]

end

mutual

/-- A type stays as it is when the places named at each of its nodes do. -/
theorem relocate_eq_self : (t : TypeSpec) → (∀ n ∈ t.nodes, n.base.relocate ρ = n.base) →
    t.relocate ρ = t
  | ⟨loc, base, arguments, isArray, annotations, comments⟩, h => by
    rw [nodes, List.forall_mem_cons] at h
    obtain ⟨hbase, harguments⟩ := h
    have hbase : base.relocate ρ = base := hbase
    rw [relocate, hbase, relocateAll_eq_self arguments harguments]

theorem relocateAll_eq_self : (ts : List TypeSpec) →
    (∀ n ∈ nodesOf ts, n.base.relocate ρ = n.base) → relocateAll ρ ts = ts
  | [], _ => by rw [relocateAll]
  | t :: rest, h => by
    rw [nodesOf, List.forall_mem_append] at h
    rw [relocateAll, relocate_eq_self t h.1, relocateAll_eq_self rest h.2]

end

end TypeSpec

/-! ### Members -/

section Members

variable (g : TypeSpec → TypeSpec)

/-- The field with its type mapped. -/
def Field.mapType (f : Field) : Field :=
  { f with type := g f.type }

/-- The constant with its type mapped. -/
def Constant.mapType (c : Constant) : Constant :=
  { c with type := g c.type }

/-- The argument with its type mapped. -/
def Argument.mapType (a : Argument) : Argument :=
  { a with type := g a.type }

/-- The method with the types of its result and its arguments mapped. -/
def Method.mapTypes (m : Method) : Method :=
  { m with returnType := g m.returnType, arguments := m.arguments.map (·.mapType g) }

/-- The members with all their types mapped. -/
def Members.mapTypes (ms : Members) : Members :=
  ⟨ms.fields.map (·.mapType g), ms.constants.map (·.mapType g), ms.methods.map (·.mapTypes g)⟩

@[simp] theorem Members.isEmpty_mapTypes (ms : Members) : (ms.mapTypes g).isEmpty = ms.isEmpty := by
  simp [isEmpty, mapTypes]

/-- Members stay as they are when each of their types does. -/
theorem Members.mapTypes_eq_self {ms : Members} (h : ∀ t ∈ ms.typeSpecs, g t = t) :
    ms.mapTypes g = ms := by
  simp only [typeSpecs, List.forall_mem_append, List.forall_mem_map, List.forall_mem_flatMap,
    List.forall_mem_cons] at h
  obtain ⟨⟨hfields, hconstants⟩, hmethods⟩ := h
  have hfield : ∀ f ∈ ms.fields, f.mapType g = f := fun f hf => by
    rw [Field.mapType, hfields f hf]
  have hconstant : ∀ c ∈ ms.constants, c.mapType g = c := fun c hc => by
    rw [Constant.mapType, hconstants c hc]
  have hmethod : ∀ m ∈ ms.methods, m.mapTypes g = m := fun m hm => by
    obtain ⟨hreturn, harguments⟩ := hmethods m hm
    have hargument : ∀ a ∈ m.arguments, a.mapType g = a := fun a ha => by
      rw [Argument.mapType, harguments a ha]
    rw [Method.mapTypes, hreturn, List.map_congr_left hargument, List.map_id']
  rw [mapTypes, List.map_congr_left hfield, List.map_congr_left hconstant,
    List.map_congr_left hmethod, List.map_id', List.map_id', List.map_id']

end Members

/-! ### Declarations -/

namespace Decl

/-- The declaration with the types of its members mapped. -/
def mapTypes (g : TypeSpec → TypeSpec) (d : Decl) : Decl :=
  match d.body with
  | .parcelable .. => d
  | .structured typeParams members =>
    { d with body := .structured typeParams (members.mapTypes g) }
  | .union typeParams members => { d with body := .union typeParams (members.mapTypes g) }
  | .enum enumerators backing members =>
    { d with body := .enum enumerators backing (members.mapTypes g) }
  | .interface isOneway members => { d with body := .interface isOneway (members.mapTypes g) }

/-- The declaration with its backing type, if it has one, mapped. -/
def mapBacking (g : TypeSpec → TypeSpec) (d : Decl) : Decl :=
  match d.body with
  | .enum enumerators backing members =>
    { d with body := .enum enumerators (backing.map g) members }
  | _ => d

/-- The declaration with the declarations it names at their other places. -/
def relocate (d : Decl) : Decl :=
  (d.mapTypes (·.relocate ρ)).mapBacking (·.relocate ρ)

section Parts

variable (d : Decl)

@[simp] theorem header_relocate : (d.relocate ρ).header = d.header := by
  rcases d with ⟨header, _ | _ | _ | _ | _⟩ <;> rfl

@[simp] theorem canonicalName_relocate : (d.relocate ρ).canonicalName = d.canonicalName := by
  simp [canonicalName]

@[simp] theorem kind_relocate : (d.relocate ρ).kind = d.kind := by
  rcases d with ⟨header, _ | _ | _ | _ | _⟩ <;> rfl

@[simp] theorem enumerator?_relocate (name : String) :
    (d.relocate ρ).enumerator? name = d.enumerator? name := by
  rcases d with ⟨header, _ | _ | _ | _ | _⟩ <;> rfl

@[simp] theorem backing?_relocate :
    (d.relocate ρ).backing? = d.backing?.map (·.relocate ρ) := by
  rcases d with ⟨header, _ | _ | _ | _ | _⟩ <;> rfl

@[simp] theorem cppHeader?_relocate : (d.relocate ρ).cppHeader? = d.cppHeader? := by
  rcases d with ⟨header, _ | _ | _ | _ | _⟩ <;> rfl

@[simp] theorem members_relocate :
    (d.relocate ρ).members = d.members.mapTypes (·.relocate ρ) := by
  rcases d with ⟨header, _ | _ | _ | _ | _⟩ <;> try rfl
  simp [relocate, mapBacking, mapTypes, members, members?, Members.mapTypes, Method.mapTypes,
    Method.within]

/-- The shell of a declaration names no places. -/
@[simp] theorem shell_relocate : (d.relocate ρ).shell = d.shell := by
  have hempty := Members.isEmpty_mapTypes (TypeSpec.relocate ρ) d.members
  rw [← members_relocate] at hempty
  rcases d with ⟨header, _ | _ | _ | _ | _⟩ <;> exact congrArg (Shell.mk _ _ _ _) hempty

end Parts

/-- The types of the members stay as they are when the places named at their nodes do. -/
theorem mapTypes_relocate_eq_self {d : Decl} (h : ∀ n ∈ d.nodes, n.base.relocate ρ = n.base) :
    d.mapTypes (·.relocate ρ) = d := by
  have hmembers : ∀ ms : Members, (∀ n ∈ ms.nodes, n.base.relocate ρ = n.base) →
      ms.mapTypes (·.relocate ρ) = ms := by
    intro ms hms
    rw [Members.nodes, List.forall_mem_flatMap] at hms
    exact Members.mapTypes_eq_self _ fun t ht => t.relocate_eq_self ρ (hms t ht)
  rcases d with ⟨header, _ | ⟨_, members⟩ | ⟨_, members⟩ | ⟨_, _, members⟩ | ⟨_, members⟩⟩
  · rfl
  · simp only [mapTypes, hmembers members h]
  · simp only [mapTypes, hmembers members h]
  · simp only [mapTypes, hmembers members h]
  · rw [nodes, Decl.members, members?, Option.getD_some, Members.nodes_within] at h
    simp only [mapTypes, hmembers members h]

/-- A declaration stays as it is when all the places named in it do. -/
theorem relocate_eq_self {d : Decl} (h : ∀ n ∈ d.nodes, n.base.relocate ρ = n.base)
    (hbacking : ∀ t ∈ d.backing?, ∀ n ∈ t.nodes, n.base.relocate ρ = n.base) :
    d.relocate ρ = d := by
  rw [relocate, mapTypes_relocate_eq_self ρ h]
  rcases d with ⟨header, _ | _ | _ | ⟨_, _ | backing, _⟩ | _⟩ <;> try rfl
  have hself := backing.relocate_eq_self ρ (hbacking backing rfl)
  simp only [mapBacking, Option.map_some, hself]

theorem relocate_id (d : Decl) : d.relocate id = d :=
  relocate_eq_self id (fun n _ => n.base.relocate_id) fun _ _ n _ => n.base.relocate_id

end Decl

/-! ### Constants -/

/-- What a reference denotes, with the declarations that its type names at their other places. -/
def NamedConstant.relocate (c : NamedConstant) : NamedConstant :=
  { c with type := c.type.relocate ρ }

/-- A declaration whose targets are moved has the same constants, with the targets in their types
moved. -/
theorem Decl.constant?_relocate (d : Decl) (name : String) :
    (d.relocate ρ).constant? name = (d.constant? name).map (·.relocate ρ) := by
  rw [constant?, constant?, kind_relocate, enumerator?_relocate, backing?_relocate, constants,
    members_relocate]
  split
  · cases d.enumerator? name <;> cases d.backing? <;>
      simp [NamedConstant.relocate]
  · simp [Members.mapTypes, List.find?_map, Function.comp_def, Constant.mapType,
      NamedConstant.relocate, constants]

end InterfaceDefinition
