import InterfaceDefinition.Decl.Check
import InterfaceDefinition.Proofs.Relocation.Evaluation

/-!
# Checks at other places

A check of a type looks at places only to find the declarations there, and at the shells of those
only. So in two registries with the same shells (`Registry.SameShells`) it has the same verdict,
reports the same, and is abandoned for the same cause: the checks are *equal*. A check of a
declaration also evaluates the values that are written in it, and is the same when each of them has
the same text (`Registry.SameText`). This is shown check by check, from the rules for types
(`Registry.SameShells.check_type_eq`) to the declarations (`Registry.SameShells.check_decl_eq`,
`Registry.SameShells.checkFor_decl_eq`), and holds in particular where all declarations are the same
(`Registry.SameDecls.check_decl_eq`).
-/

namespace InterfaceDefinition

variable {ρ : DeclId → DeclId}

/-! ### Lists of parts -/

theorem checkEach_map {m : Type → Type} [Monad m] {α β : Type} (check : β → m Bool) (g : α → β)
    (xs : List α) : checkEach check (xs.map g) = checkEach (fun x => check (g x)) xs := by
  induction xs with
  | nil => rfl
  | cons x xs ih => rw [List.map_cons, checkEach, checkEach, ih]

theorem checkEach_congr {m : Type → Type} [Monad m] {α : Type} {check check' : α → m Bool}
    {xs : List α} (h : ∀ x ∈ xs, check' x = check x) :
    checkEach check' xs = checkEach check xs := by
  induction xs with
  | nil => rfl
  | cons x xs ih =>
    rw [List.forall_mem_cons] at h
    rw [checkEach, checkEach, h.1, ih h.2]

theorem withEarlierFrom_map {α β : Type} (g : α → β) (earlier xs : List α) :
    withEarlierFrom (earlier.map g) (xs.map g) =
      (withEarlierFrom earlier xs).map (Prod.map (List.map g) g) := by
  induction xs generalizing earlier with
  | nil => rfl
  | cons x xs ih =>
    have hrest := ih (earlier ++ [x])
    rw [List.map_append] at hrest
    rw [List.map_cons, withEarlierFrom, withEarlierFrom, List.map_cons, ← hrest]
    rfl

theorem withEarlier_map {α β : Type} (g : α → β) (xs : List α) :
    withEarlier (xs.map g) = (withEarlier xs).map (Prod.map (List.map g) g) :=
  withEarlierFrom_map g [] xs

/-! ### Types by themselves -/

namespace TypeSpec

variable (ρ) (t : TypeSpec)

@[simp] theorem isPrimitiveOrEnum_relocate :
    (t.relocate ρ).isPrimitiveOrEnum = t.isPrimitiveOrEnum := by
  simp [isPrimitiveOrEnum]

@[simp] theorem isListElement_relocate : (t.relocate ρ).isListElement = t.isListElement := by
  simp [isListElement]

theorem any_isPrimitiveOrEnum_relocate (ts : List TypeSpec) :
    (ts.map (relocate ρ)).any isPrimitiveOrEnum = ts.any isPrimitiveOrEnum := by
  rw [List.any_map]
  exact congrArg ts.any (funext fun t => t.isPrimitiveOrEnum_relocate ρ)

@[simp] theorem listFault?_relocate : (t.relocate ρ).listFault? = t.listFault? := by
  rw [listFault?, listFault?, arguments_relocate, any_isPrimitiveOrEnum_relocate,
    signature_relocate]
  rcases t.arguments with _ | ⟨first, _ | ⟨second, rest⟩⟩ <;> simp

@[simp] theorem mapFault?_relocate : (t.relocate ρ).mapFault? = t.mapFault? := by
  rw [mapFault?, mapFault?, arguments_relocate, any_isPrimitiveOrEnum_relocate,
    signature_relocate]
  rcases t.arguments with _ | ⟨first, _ | ⟨second, _ | ⟨third, rest⟩⟩⟩ <;> simp

@[simp] theorem isTextual_relocate : (t.relocate ρ).isTextual = t.isTextual := by
  simp [isTextual, Function.comp_def]

@[simp] theorem formFault?_relocate : (t.relocate ρ).formFault? = t.formFault? := by
  simp [formFault?]

@[simp] theorem checkAnnotations_relocate :
    (t.relocate ρ).checkAnnotations = t.checkAnnotations := by
  simp [checkAnnotations]

end TypeSpec

/-! ### Types in a registry -/

namespace Registry

/-- A value written in a scope has the same text, or fails the same. -/
def SameText (ρ : DeclId → DeclId) (r r' : Registry) (scope : String) (type : TypeSpec)
    (value : Expr) : Prop :=
  r'.valueText value (type.relocate ρ).valueType scope = r.valueText value type.valueType scope

namespace SameShells

variable {r r' : Registry} (t : TypeSpec)

/-- A value has the same text when everything that is looked up for it is read the same. -/
theorem sameText_of_lookUps (h : SameShells ρ r r') {scope : String} {type : TypeSpec}
    {value : Expr}
    (hlookUp : ∀ scope' name', r.ValueLooksUp value type.valueType scope scope' name' →
      Option.Rel (NamedConstant.ReadsAs ρ) (r.constant? scope' name') (r'.constant? scope' name')) :
    SameText ρ r r' scope type value := by
  rw [SameText, TypeSpec.valueType, TypeSpec.base_relocate, TypeSpec.isArray_relocate]
  exact h.valueText_eq (type.base.readsAs_relocate ρ) hlookUp

theorem declaredFault?_eq (h : SameShells ρ r r') :
    (t.relocate ρ).declaredFault? r' = t.declaredFault? r := by
  have hdecl : ((t.relocate ρ).base.target?.bind fun target => r'.decl? target.id).bind
      (·.typeParams?) = (t.base.target?.bind fun target => r.decl? target.id).bind
        (·.typeParams?) := by
    rw [TypeSpec.base_relocate]
    rcases h.target?_decl?_cases (t.base.readsAs_relocate ρ) with
      ⟨hd, hd'⟩ | ⟨d, d', hd, hd', hshell⟩
    · rw [hd, hd']
    · rw [hd, hd']
      exact Decl.typeParams?_of_shell hshell
  simp only [TypeSpec.declaredFault?, hdecl, TypeSpec.name_relocate, TypeSpec.arguments_relocate,
    List.length_map]

theorem fault?_eq (h : SameShells ρ r r') : (t.relocate ρ).fault? r' = t.fault? r := by
  simp [TypeSpec.fault?, TypeSpec.genericFault?, h.declaredFault?_eq]

theorem checkForm_eq (h : SameShells ρ r r') : (t.relocate ρ).checkForm r' = t.checkForm r := by
  simp [TypeSpec.checkForm, h.fault?_eq]

mutual

/-- A type is checked the same. -/
theorem check_type_eq (h : SameShells ρ r r') :
    (t : TypeSpec) → (t.relocate ρ).check r' = t.check r
  | ⟨loc, base, arguments, isArray, annotations, comments⟩ => by
    have ht := TypeSpec.relocate.eq_1 ρ loc base arguments isArray annotations comments
    rw [ht, TypeSpec.check, TypeSpec.check, ← ht, TypeSpec.checkAnnotations_relocate,
      TypeSpec.canonicalName_relocate, h.checkForm_eq, checkAll_type_eq h arguments]

theorem checkAll_type_eq (h : SameShells ρ r r') : (ts : List TypeSpec) →
    TypeSpec.checkAll r' (TypeSpec.relocateAll ρ ts) = TypeSpec.checkAll r ts
  | [] => by rw [TypeSpec.relocateAll, TypeSpec.checkAll, TypeSpec.checkAll]
  | t :: rest => by
    rw [TypeSpec.relocateAll, TypeSpec.checkAll, TypeSpec.checkAll, check_type_eq h t,
      checkAll_type_eq h rest]

end

/-! ### Uses of types -/

theorem outUsage_eq (h : SameShells ρ r r') : r'.outUsage (t.relocate ρ) = r.outUsage t := by
  rw [outUsage, outUsage, TypeSpec.canonicalName_relocate, TypeSpec.base_relocate,
    TypeSpec.isArray_relocate, TypeSpec.location_relocate, TypeName.isEnum_relocate,
    TypeName.target?_relocate]
  congr 1
  funext name
  split
  · rfl
  · cases t.base.target? with
    | none => rfl
    | some target =>
      simp only [Option.map_some, DeclRef.id_relocate]
      rcases h.decl?_cases target.id with ⟨hd, hd'⟩ | ⟨d, d', hd, hd', hshell⟩
      · rw [hd, hd']
      · rw [hd, hd']
        dsimp only
        rw [Decl.kind_of_shell hshell, Decl.annotations_of_shell hshell]

theorem hasFixedSize_eq (h : SameShells ρ r r') :
    r'.hasFixedSize (t.relocate ρ) = r.hasFixedSize t := by
  simp only [hasFixedSize, TypeSpec.isGeneric_relocate, TypeSpec.isNullable_relocate,
    TypeSpec.isArray_relocate, TypeSpec.name_relocate, TypeSpec.base_relocate]
  rcases h.target?_decl?_cases (t.base.readsAs_relocate ρ) with
    ⟨hd, hd'⟩ | ⟨d, d', hd, hd', hshell⟩
  · rw [hd, hd']
  · simp only [hd, hd', Decl.kind_of_shell hshell, Decl.annotations_of_shell hshell]

theorem isImmutableName_eq (h : SameShells ρ r r') (n : TypeName) :
    r'.isImmutableName (n.relocate ρ) = r.isImmutableName n := by
  rw [isImmutableName, isImmutableName, TypeName.text_relocate]
  rcases h.target?_decl?_cases (n.readsAs_relocate ρ) with ⟨hd, hd'⟩ | ⟨d, d', hd, hd', hshell⟩
  · rw [hd, hd']
  · rw [hd, hd']
    dsimp only
    rw [Decl.kind_of_shell hshell, Decl.annotations_of_shell hshell]

mutual

theorem canBeImmutable_eq (h : SameShells ρ r r') :
    (t : TypeSpec) → r'.canBeImmutable (t.relocate ρ) = r.canBeImmutable t
  | ⟨_, base, arguments, _, _, _⟩ => by
    rw [TypeSpec.relocate, canBeImmutable, canBeImmutable, h.isImmutableName_eq,
      TypeName.text_relocate, allCanBeImmutable_eq h arguments, TypeSpec.relocateAll_eq_map,
      List.isEmpty_map]

theorem allCanBeImmutable_eq (h : SameShells ρ r r') : (ts : List TypeSpec) →
    r'.allCanBeImmutable (TypeSpec.relocateAll ρ ts) = r.allCanBeImmutable ts
  | [] => by rw [TypeSpec.relocateAll, allCanBeImmutable, allCanBeImmutable]
  | t :: rest => by
    rw [TypeSpec.relocateAll, allCanBeImmutable, allCanBeImmutable, canBeImmutable_eq h t,
      allCanBeImmutable_eq h rest]

end

/-! ### Types in backends -/

theorem isSome_interface?_eq (h : SameShells ρ r r') :
    (r'.interface? (t.relocate ρ)).isSome = (r.interface? t).isSome := by
  rw [interface?, interface?, declOfKind?, declOfKind?, TypeSpec.base_relocate,
    TypeName.target?_relocate]
  cases t.base.target? with
  | none => rfl
  | some target =>
    have hinterface : ((r'.decl? (ρ target.id)).filter (·.kind == .interface)).isSome =
        ((r.decl? target.id).filter (·.kind == .interface)).isSome := by
      rcases h.decl?_cases target.id with ⟨hd, hd'⟩ | ⟨d, d', hd, hd', hshell⟩
      · rw [hd, hd']
      · simp [hd, hd', Option.isSome_filter, Decl.kind_of_shell hshell]
    show (if target.kind = .interface then (r'.decl? (ρ target.id)).filter (·.kind == .interface)
        else none).isSome =
      (if target.kind = .interface then (r.decl? target.id).filter (·.kind == .interface)
        else none).isSome
    split
    · exact hinterface
    · rfl

/-- A type is checked the same for a backend. -/
theorem checkFor_type_eq (h : SameShells ρ r r') (b : Backend) :
    (t.relocate ρ).checkFor r' b = t.checkFor r b := by
  have hlist : (t.relocate ρ).ndkListRules r' = t.ndkListRules r := by
    rw [TypeSpec.ndkListRules, TypeSpec.ndkListRules, TypeSpec.name_relocate,
      TypeSpec.arguments_relocate]
    rcases t.arguments with _ | ⟨element, rest⟩
    · simp
    · by_cases hname : t.name = "List" <;> simp [hname, h.isSome_interface?_eq]
  have hfault : (t.relocate ρ).backendFault? r' b = t.backendFault? r b := by
    simp [TypeSpec.backendFault?, TypeSpec.backendRules, TypeSpec.nativeRules, TypeSpec.arrayRules,
      TypeSpec.javaOnlyRules, hlist]
  rw [TypeSpec.checkFor, TypeSpec.checkFor, hfault, TypeSpec.location_relocate]

/-! ### Fields and constants -/

theorem checkValue_eq {scope : String} {value : Expr} (h : SameText ρ r r' scope t value)
    (name : String) :
    r'.checkValue scope name (t.relocate ρ) value = r.checkValue scope name t value := by
  rw [SameText] at h
  simp only [checkValue, valueFault?, h]

theorem check_field_eq (h : SameShells ρ r r') {scope : String} {f : Field}
    (hdefault : ∀ value ∈ f.default?, SameText ρ r r' scope f.type value) :
    (f.mapType (·.relocate ρ)).check r' scope = f.check r scope := by
  simp only [Field.check, Field.mapType, h.check_type_eq, TypeSpec.name_relocate]
  cases hvalue : f.default? with
  | none => rfl
  | some value => simp only [checkValue_eq f.type (hdefault value hvalue)]

theorem check_constant_eq (h : SameShells ρ r r') {scope : String} {c : Constant}
    (hvalue : SameText ρ r r' scope c.type c.value) :
    (c.mapType (·.relocate ρ)).check r' scope = c.check r scope := by
  simp only [Constant.check, Constant.mapType, h.check_type_eq, TypeSpec.signature_relocate,
    checkValue_eq c.type hvalue]

theorem checkAll_constant_eq (h : SameShells ρ r r') {scope : String} {constants : List Constant}
    (hvalues : ∀ c ∈ constants, SameText ρ r r' scope c.type c.value) :
    Constant.checkAll r' scope (constants.map (·.mapType (·.relocate ρ))) =
      Constant.checkAll r scope constants := by
  rw [Constant.checkAll, Constant.checkAll, withEarlier_map, checkEach_map]
  refine checkEach_congr fun (earlier, c) hc => ?_
  simp only [Prod.map, List.any_map, Function.comp_def,
    h.check_constant_eq (hvalues c (mem_of_mem_withEarlier hc))]
  rfl

/-! ### Enumerators -/

theorem valueTextOrEmpty_eq {scope : String} {value : Expr} (h : SameText ρ r r' scope t value) :
    r'.valueTextOrEmpty value (t.relocate ρ).valueType scope =
      r.valueTextOrEmpty value t.valueType scope := by
  rw [SameText] at h
  rw [valueTextOrEmpty, valueTextOrEmpty, h]

theorem fault?_enumerator_eq {scope : String} {value : Expr} (h : SameText ρ r r' scope t value)
    (e : Enumerator) :
    e.fault? r' scope (t.relocate ρ) value = e.fault? r scope t value := by
  simp only [Enumerator.fault?, valueTextOrEmpty_eq t h]

theorem checkEach_enumerator_eq {scope : String} {enumerators : List (Enumerator × Expr)}
    (h : ∀ e ∈ enumerators, SameText ρ r r' scope t e.2) :
    checkEach (m := Fallible)
        (fun (e, value) => Reporting.verdict (e.fault? r' scope (t.relocate ρ) value)) enumerators =
      checkEach (fun (e, value) => Reporting.verdict (e.fault? r scope t value)) enumerators := by
  refine checkEach_congr fun e he => ?_
  dsimp only
  rw [fault?_enumerator_eq t (h e he) e.1]

/-! ### Methods -/

theorem fault?_argument_eq (h : SameShells ρ r r') (m : Method) (a : Argument) :
    (a.mapType (·.relocate ρ)).fault? r' (m.mapTypes (·.relocate ρ)) = a.fault? r m := by
  simp only [Argument.fault?, Argument.mapType, Method.mapTypes, TypeSpec.name_relocate,
    h.outUsage_eq, TypeSpec.signature_relocate]
  rfl

theorem check_argument_eq (h : SameShells ρ r r') (m : Method) (a : Argument) :
    (a.mapType (·.relocate ρ)).check r' (m.mapTypes (·.relocate ρ)) = a.check r m := by
  rw [Argument.check, Argument.check, h.fault?_argument_eq]
  simp only [Argument.mapType, h.check_type_eq]
  rfl

theorem checkArguments_eq (h : SameShells ρ r r') (m : Method)
    (arguments : List (List Argument × Argument)) :
    (m.mapTypes (·.relocate ρ)).checkArguments r'
        (arguments.map
          (Prod.map (List.map (·.mapType (·.relocate ρ))) (·.mapType (·.relocate ρ)))) =
      m.checkArguments r arguments := by
  induction arguments with
  | nil => rfl
  | cons first rest ih =>
    obtain ⟨earlier, a⟩ := first
    rw [List.map_cons, Prod.map, Method.checkArguments, Method.checkArguments, ih,
      h.check_argument_eq, List.any_map]
    rfl

theorem check_method_eq (h : SameShells ρ r r') (m : Method) :
    (m.mapTypes (·.relocate ρ)).check r' = m.check r := by
  have hfault : (m.mapTypes (·.relocate ρ)).returnFault? = m.returnFault? := by
    simp only [Method.returnFault?, Method.mapTypes, TypeSpec.name_relocate]
  have harguments : withEarlier (m.mapTypes (·.relocate ρ)).arguments = _ :=
    withEarlier_map (fun a : Argument => a.mapType (·.relocate ρ)) m.arguments
  rw [Method.check, Method.check, hfault, harguments, h.checkArguments_eq]
  simp only [Method.mapTypes, h.check_type_eq]

theorem nameFault?_mapTypes (earlier : List Method) (m : Method) :
    (m.mapTypes (·.relocate ρ)).nameFault? (earlier.map (·.mapTypes (·.relocate ρ))) =
      m.nameFault? earlier := by
  have hsignature : (m.mapTypes (·.relocate ρ)).signature = m.signature := by
    simp [Method.signature, Method.mapTypes, Argument.mapType, Function.comp_def]
  have hfind : (earlier.map (·.mapTypes (·.relocate ρ))).find? (·.name == m.name) =
      (earlier.find? (·.name == m.name)).map (·.mapTypes (·.relocate ρ)) := List.find?_map ..
  have hname : (m.mapTypes (·.relocate ρ)).name = m.name := rfl
  rw [Method.nameFault?, Method.nameFault?, hname, hfind, hsignature]
  cases earlier.find? (·.name == m.name) <;> rfl

theorem checkAll_method_eq (h : SameShells ρ r r') (methods : List Method) :
    Method.checkAll r' (methods.map (·.mapTypes (·.relocate ρ))) = Method.checkAll r methods := by
  rw [Method.checkAll, Method.checkAll, withEarlier_map, checkEach_map]
  congr 1
  funext ⟨earlier, m⟩
  simp only [Prod.map, h.check_method_eq, nameFault?_mapTypes]

/-! ### Parts of declarations -/

section Headers

variable (header : Header) (fields : List Field) (ms : Members)

theorem checkFieldNames_mapTypes :
    header.checkFieldNames (fields.map (·.mapType (·.relocate ρ))) =
      header.checkFieldNames fields := by
  rw [Header.checkFieldNames, Header.checkFieldNames, withEarlier_map, checkEach_map]
  congr 1
  funext ⟨earlier, f⟩
  have hfind : (earlier.map (·.mapType (·.relocate ρ))).find? (·.name == f.name) =
      (earlier.find? (·.name == f.name)).map (·.mapType (·.relocate ρ)) := List.find?_map ..
  show Reporting.verdict
    (((earlier.map (·.mapType (·.relocate ρ))).find? (·.name == f.name)).map _) = _
  rw [hfind, Option.map_map]
  rfl

theorem checkGetterNames_mapTypes :
    header.checkGetterNames (fields.map (·.mapType (·.relocate ρ))) =
      header.checkGetterNames fields := by
  rw [Header.checkGetterNames, Header.checkGetterNames, withEarlier_map, checkEach_map]
  congr 1
  funext ⟨earlier, f⟩
  simp only [Prod.map, List.any_map]
  rfl

theorem checkImmutable_eq (h : SameShells ρ r r') :
    header.checkImmutable r' (fields.map (·.mapType (·.relocate ρ))) =
      header.checkImmutable r fields := by
  rw [Header.checkImmutable, Header.checkImmutable, checkEach_map]
  simp only [Field.mapType, h.canBeImmutable_eq]

theorem checkFixedSize_eq (h : SameShells ρ r r') :
    header.checkFixedSize r' (fields.map (·.mapType (·.relocate ρ))) =
      header.checkFixedSize r fields := by
  rw [Header.checkFixedSize, Header.checkFixedSize, checkEach_map]
  simp only [Field.mapType, h.hasFixedSize_eq]

/-- The defaults of fields and the values of constants have the same texts. -/
def SameTexts (ρ : DeclId → DeclId) (r r' : Registry) (scope : String) (ms : Members) : Prop :=
  (∀ f ∈ ms.fields, ∀ value ∈ f.default?, SameText ρ r r' scope f.type value) ∧
    ∀ c ∈ ms.constants, SameText ρ r r' scope c.type c.value

theorem checkMembers_eq (h : SameShells ρ r r') {header : Header} {ms : Members}
    (hvalues : SameTexts ρ r r' header.canonicalName ms) :
    header.checkMembers r' (ms.mapTypes (·.relocate ρ)) = header.checkMembers r ms := by
  have hfields : checkEach (Field.check r' header.canonicalName)
      (ms.fields.map (·.mapType (·.relocate ρ))) =
        checkEach (Field.check r header.canonicalName) ms.fields := by
    rw [checkEach_map]
    exact checkEach_congr fun f hf => h.check_field_eq (hvalues.1 f hf)
  rw [Header.checkMembers, Header.checkMembers]
  simp only [Members.mapTypes, hfields, checkFieldNames_mapTypes, h.checkImmutable_eq,
    h.checkAll_constant_eq hvalues.2]

theorem checkNoMethods_mapTypes (fault : String → DeclFault) :
    header.checkNoMethods fault (ms.mapTypes (·.relocate ρ)) = header.checkNoMethods fault ms := by
  simp only [Header.checkNoMethods, Members.mapTypes, List.isEmpty_map]

theorem firstFieldFault?_mapTypes :
    header.firstFieldFault? (fields.map (·.mapType (·.relocate ρ))) =
      header.firstFieldFault? fields := by
  cases fields with
  | nil => rfl
  | cons first rest =>
    simp [Header.firstFieldFault?, Header.remedy, Field.hasUsefulDefault, Field.mapType]

theorem checkNoHolders_mapTypes :
    Header.checkNoHolders (fields.map (·.mapType (·.relocate ρ))) =
      Header.checkNoHolders fields := by
  rw [Header.checkNoHolders, Header.checkNoHolders, checkEach_map]
  simp only [Field.mapType, TypeSpec.name_relocate]

/-! ### The five kinds -/

theorem checkStructured_eq (h : SameShells ρ r r') {header : Header} {ms : Members}
    (hvalues : SameTexts ρ r r' header.canonicalName ms) (typeParams : Option (List String)) :
    header.checkStructured r' typeParams (ms.mapTypes (·.relocate ρ)) =
      header.checkStructured r typeParams ms := by
  rw [Header.checkStructured, Header.checkStructured, checkNoMethods_mapTypes,
    h.checkMembers_eq hvalues]
  simp only [Members.mapTypes, h.checkFixedSize_eq, checkGetterNames_mapTypes]

theorem checkUnion_eq (h : SameShells ρ r r') {header : Header} {ms : Members}
    (hvalues : SameTexts ρ r r' header.canonicalName ms) (typeParams : Option (List String)) :
    header.checkUnion r' typeParams (ms.mapTypes (·.relocate ρ)) =
      header.checkUnion r typeParams ms := by
  rw [Header.checkUnion, Header.checkUnion, checkNoMethods_mapTypes, h.checkMembers_eq hvalues]
  simp only [Members.mapTypes, checkGetterNames_mapTypes, checkNoHolders_mapTypes,
    firstFieldFault?_mapTypes]

theorem checkEnumerators_eq {enumerators : List (Enumerator × Expr)} {backing : TypeSpec}
    (hvalues : ∀ e ∈ enumerators, SameText ρ r r' header.canonicalName backing e.2) :
    header.checkEnumerators r' (backing.relocate ρ) enumerators =
      header.checkEnumerators r backing enumerators := by
  simp only [Header.checkEnumerators, checkEach_enumerator_eq backing hvalues]
  -- the first enumerator is looked at once more
  cases enumerators with
  | nil => rfl
  | cons first rest =>
    simp only [valueTextOrEmpty_eq backing (hvalues first List.mem_cons_self)]

theorem checkEnum_eq {enumerators : List (Enumerator × Expr)} {backing : Option TypeSpec}
    (hvalues : ∀ t ∈ backing, ∀ e ∈ enumerators, SameText ρ r r' header.canonicalName t e.2) :
    header.checkEnum r' enumerators (backing.map (·.relocate ρ)) (ms.mapTypes (·.relocate ρ)) =
      header.checkEnum r enumerators backing ms := by
  unfold Header.checkEnum
  rw [Members.isEmpty_mapTypes]
  cases backing with
  | none => rfl
  | some backing =>
    simp only [Option.map_some, checkEnumerators_eq header (hvalues backing rfl)]

theorem checkInterface_eq (h : SameShells ρ r r') {header : Header} {ms : Members}
    (hvalues : ∀ c ∈ ms.constants, SameText ρ r r' header.canonicalName c.type c.value) :
    header.checkInterface r' (ms.mapTypes (·.relocate ρ)) = header.checkInterface r ms := by
  have hfields : header.fieldsFault? (ms.mapTypes (·.relocate ρ)).fields =
      header.fieldsFault? ms.fields := by
    rw [Header.fieldsFault?, Header.fieldsFault?, Members.mapTypes, List.head?_map, Option.map_map]
    rfl
  rw [Header.checkInterface, Header.checkInterface, hfields]
  simp only [Members.mapTypes, h.checkAll_method_eq, h.checkAll_constant_eq hvalues]

end Headers

/-! ### Declarations -/

/-- Every value of a declaration with fields is one of its members'. -/
theorem sameTexts_of_values {header : Header} {ms : Members}
    (hvalues : ∀ v ∈ (ms.fields.filterMap fun f => f.default?.map fun value => (f.type, value)) ++
      ms.constants.map (fun c => (c.type, c.value)),
        SameText ρ r r' header.canonicalName v.1 v.2) :
    SameTexts ρ r r' header.canonicalName ms := by
  rw [List.forall_mem_append, List.forall_mem_map] at hvalues
  refine ⟨fun f hf value hvalue => ?_, hvalues.2⟩
  exact hvalues.1 (f.type, value) (List.mem_filterMap.mpr ⟨f, hf, by rw [hvalue]; rfl⟩)

variable (d : Decl)

/-- A declaration is checked the same when each of its values has the same text. -/
theorem check_decl_eq (h : SameShells ρ r r')
    (hvalues : ∀ v ∈ d.values, SameText ρ r r' d.canonicalName v.1 v.2) :
    (d.relocate ρ).check r' = d.check r := by
  have hmembers := d.members_relocate ρ
  obtain ⟨header, body⟩ := d
  cases body with
  | parcelable => rfl
  | structured typeParams ms => exact h.checkStructured_eq (sameTexts_of_values hvalues) typeParams
  | union typeParams ms => exact h.checkUnion_eq (sameTexts_of_values hvalues) typeParams
  | enum enumerators backing ms =>
    refine checkEnum_eq header ms fun t ht e he => hvalues (t, e.2) ?_
    exact List.mem_flatMap.mpr ⟨t, by simpa [Decl.backing?] using ht, List.mem_map.mpr ⟨e, he, rfl⟩⟩
  | interface isOneway ms =>
    have hcheck := h.checkInterface_eq (List.forall_mem_map.mp hvalues)
    rw [← hmembers] at hcheck
    exact hcheck

/-- A declaration is checked the same for a backend. -/
theorem checkFor_decl_eq (h : SameShells ρ r r') (b : Backend) :
    (d.relocate ρ).checkFor r' b = d.checkFor r b := by
  have htypes : (d.relocate ρ).backendTypes = d.backendTypes.map (·.relocate ρ) := by
    rw [Decl.backendTypes, Decl.backendTypes, Decl.kind_relocate]
    cases d.kind <;>
      simp [Decl.fields, Decl.methods, Members.mapTypes, Field.mapType, Method.mapTypes,
        Argument.mapType, List.map_flatMap, List.flatMap_map, Function.comp_def]
  rw [Decl.checkFor, Decl.checkFor, Decl.checkHeaderFor, Decl.checkHeaderFor, htypes, checkEach_map,
    Decl.cppHeader?_relocate, Decl.location, Decl.header_relocate]
  simp only [h.checkFor_type_eq]
  rfl

end SameShells

namespace SameDecls

variable {r r' : Registry} (h : SameDecls ρ r r') (d : Decl)
include h

/-- A declaration is checked the same. -/
theorem check_decl_eq : (d.relocate ρ).check r' = d.check r := by
  refine h.sameShells.check_decl_eq d fun v _ => ?_
  exact h.sameShells.sameText_of_lookUps fun scope name _ => h.constant?_rel scope name

/-- A declaration is checked the same for a backend. -/
theorem checkFor_decl_eq (b : Backend) : (d.relocate ρ).checkFor r' b = d.checkFor r b :=
  h.sameShells.checkFor_decl_eq d b

end SameDecls

end Registry

end InterfaceDefinition
