import InterfaceDefinition.Proofs.Acceptance.Declarations

/-!
# The rules for enums

An enum passes its check exactly when it has valid annotations, nothing but enumerators, at least
one of them, and a backing type that accepts the value of each (`Header.EnumRules`). What the values
are is then left to their rendering: the builtin types that values render as are the integral ones,
within their bounds, and five others (`Value.valueType_of_renderBuiltin`), and of the declared types
only enums have values.

So every enum of a document that a validation accepts has integers within the bounds of its backing
type, or one of those other types to back it (`Registry.validate_enums`). That second case does come
up, since nothing looks at the kind of the type that a backing annotation names: an enum of texts
passes (`Registry.validate_stringBacked`).
-/

namespace InterfaceDefinition

open Fallible

variable {r : Registry}

/-! ### The rules -/

/-- An enumerator is held against the backing type as a constant is against its own type. -/
theorem Enumerator.fault?_eq_none_iff {scope : String} {backing : TypeSpec} {e : Enumerator}
    {value : Expr} : e.fault? r scope backing value = none ↔ r.Accepts scope backing value := by
  rw [fault?, Registry.Accepts, ← Registry.valueTextOrEmpty_ne_iff]
  cases value.isWellFormed with
  | false => simp
  | true => simp

namespace Header

/-- The rules for an enum with the given enumerators and their values. -/
structure EnumRules (r : Registry) (h : Header) (enumerators : List (Enumerator × Expr))
    (backing : Option TypeSpec) (ms : Members) : Prop where
  annotations : h.annotations.ValidFor DeclKind.enum.supportedAnnotations
  noMembers : ms.isEmpty = true
  nonempty : enumerators ≠ []
  values : ∃ type, backing = some type ∧ ∀ x ∈ enumerators, r.Accepts h.canonicalName type x.2

variable {h : Header} {enumerators : List (Enumerator × Expr)} {ms : Members}

/-- That there are enumerators is taken for granted by the check, and a rule here: without any it
does not pass. -/
theorem decides_checkEnumerators {backing : TypeSpec} :
    Decides true (h.checkEnumerators r backing enumerators)
      ((∀ x ∈ enumerators, r.Accepts h.canonicalName backing x.2) ∧ enumerators ≠ []) := by
  unfold checkEnumerators
  refine .bind (.checkEach fun _ _ => .verdict Enumerator.fault?_eq_none_iff) fun _ => .guard ?_
  cases enumerators with
  | nil => exact Decides.abandon.congr (by simp)
  | cons first rest =>
    -- the advice that the first be zero changes nothing
    dsimp only
    split
    · exact (Decides.advise (.pure rfl)).congr (by simp)
    · exact (Decides.pure rfl).congr (by simp)

theorem decides_checkEnum {backing : Option TypeSpec} :
    Decides true (h.checkEnum r enumerators backing ms) (h.EnumRules r enumerators backing ms) := by
  have hparts : Decides true (h.checkEnum r enumerators backing ms)
      (h.annotations.ValidFor DeclKind.enum.supportedAnnotations ∧ ms.isEmpty = true ∧
        ∃ type, backing = some type ∧
          (∀ x ∈ enumerators, r.Accepts h.canonicalName type x.2) ∧ enumerators ≠ []) := by
    unfold checkEnum
    refine .bind decides_checkAnnotations fun _ => .guard ?_
    cases ms.isEmpty with
    | false => exact Decides.reject.congr (by simp)
    | true =>
      cases backing with
      | none => exact Decides.reject.congr (by simp)
      | some type => exact decides_checkEnumerators.congr (by simp)
  refine hparts.congr ⟨?_, fun h => ?_⟩
  · rintro ⟨hannotations, hmembers, type, hbacking, hvalues, hnonempty⟩
    exact ⟨hannotations, hmembers, hnonempty, type, hbacking, hvalues⟩
  · obtain ⟨type, hbacking, hvalues⟩ := h.values
    exact ⟨h.annotations, h.noMembers, type, hbacking, hvalues, h.nonempty⟩

end Header

/-! ### Values of backing types -/

/-- The bounds of the integral types. -/
def integralBounds? (type : String) : Option (Int × Int) :=
  match type with
  | "byte" => some (-128, 127)
  | "int" => some (-2147483648, 2147483647)
  | "long" => some (-9223372036854775808, 9223372036854775807)
  | _ => none

/-- The builtin types besides the integral ones that values render as. -/
def otherValueTypes : List String :=
  ["boolean", "char", "float", "double", "String"]

namespace Value

variable {v : Value} {type text : String}

/-- A number that is rendered within bounds lies within them. -/
theorem bounds_of_renderWithin {low high : Int} {n : Int64}
    (h : renderWithin low high type n = .ok text) : low ≤ n.toInt ∧ n.toInt ≤ high := by
  rw [renderWithin] at h
  split at h
  · assumption
  · cases h

/-- A value that renders as an integral type is an integer within its bounds. -/
theorem integral_of_renderBuiltin {low high : Int}
    (hbounds : integralBounds? type = some (low, high)) (h : v.renderBuiltin type = .ok text) :
    ∃ n, v = .integral n ∧ low ≤ n.toInt ∧ n.toInt ≤ high := by
  unfold integralBounds? at hbounds
  split at hbounds
  · cases hbounds
    cases v with
    | integral n => exact ⟨n, rfl, bounds_of_renderWithin h⟩
    | _ => cases h
  · cases hbounds
    cases v with
    | integral n => exact ⟨n, rfl, bounds_of_renderWithin h⟩
    | _ => cases h
  · cases hbounds
    cases v with
    | integral n => exact ⟨n, rfl, n.le_toInt, Int.le_of_lt_add_one n.toInt_lt⟩
    | _ => cases h
  · cases hbounds

/-- A value renders as an integral type or as one of a few others. -/
theorem valueType_of_renderBuiltin (h : v.renderBuiltin type = .ok text) :
    (∃ low high, integralBounds? type = some (low, high)) ∨ type ∈ otherValueTypes := by
  unfold renderBuiltin at h
  split at h
  case h_9 => cases h
  all_goals simp [integralBounds?, otherValueTypes]

/-- A value that renders as a resolved name does so as a builtin type, or the name is an enum. -/
theorem render_cases {type : TypeSpec} (htype : type.IsResolvedName)
    (h : v.render type.valueType = .ok text) :
    (type.base.resolution = some ⟨type.name, none⟩ ∧ v.renderBuiltin type.name = .ok text) ∨
      type.base.isEnum = true := by
  obtain ⟨resolution, hresolution⟩ := Option.isSome_iff_exists.mp htype.isResolved
  have htarget : type.base.target? = resolution.target := by
    simp [TypeName.target?, hresolution]
  have hrender : v.renderAs type.base = .ok text := by
    unfold render at h
    rwa [if_neg (by simp [TypeSpec.valueType, htype.isArray])] at h
  unfold renderAs at hrender
  split at hrender
  · next hnone =>
    have hname : type.base.text = resolution.canonicalName := by simp [TypeName.text, hresolution]
    have hself : resolution = ⟨type.name, none⟩ := by
      rw [htarget] at hnone
      rw [TypeSpec.name, hname, ← hnone]
    exact .inl ⟨hself ▸ hresolution, hrender⟩
  · next target hsome =>
    split at hrender
    · next henum => exact .inr (by simp [TypeName.isEnum, TypeName.isKind, hsome, henum])
    · cases hrender

end Value

/-! ### Valid documents -/

namespace Decl

/-- An enum of integers: its backing type is a builtin integral type, and each of its enumerators
evaluates to an integer within the bounds of the type. -/
def IsIntegralEnum (r : Registry) (d : Decl) : Prop :=
  ∃ backing enumerators low high,
    d.backing? = some backing ∧ d.enumerators? = some enumerators ∧ backing.isArray = false ∧
    backing.base.resolution = some ⟨backing.name, none⟩ ∧
    integralBounds? backing.name = some (low, high) ∧
    ∀ x ∈ enumerators, ∃ n : Int64,
      r.evaluate x.2 backing.valueType d.canonicalName = .ok (.integral n) ∧
        low ≤ n.toInt ∧ n.toInt ≤ high

/-- An enum whose backing type is builtin but not integral, or an enum itself. -/
def IsNonIntegralEnum (d : Decl) : Prop :=
  ∃ backing, d.backing? = some backing ∧
    (backing.base.resolution = some ⟨backing.name, none⟩ ∧ backing.name ∈ otherValueTypes ∨
      backing.base.isEnum = true)

/-- Only enums have a backing type. -/
theorem kind_of_backing? {d : Decl} {backing : TypeSpec} (h : d.backing? = some backing) :
    d.kind = .enum := by
  unfold backing? at h
  unfold kind
  split at h
  · next heq => rw [heq]
  · cases h

/-- An enum that passes its check keeps the rules. -/
theorem enumRules_of_passes {d : Decl} (hkind : d.kind = .enum)
    (hpasses : (d.check r).passes = true) :
    ∃ enumerators, d.enumerators? = some enumerators ∧
      d.header.EnumRules r enumerators d.backing? d.members := by
  obtain ⟨header, body⟩ := d
  cases body with
  | enum written backing ms => exact ⟨_, rfl, Header.decides_checkEnum.passes_iff.mp hpasses⟩
  | _ => cases hkind

/-- An enum that passes its check with a resolved name as its backing type holds integers, or its
backing type is not integral. -/
theorem enum_cases {d : Decl} (hkind : d.kind = .enum) (hpasses : (d.check r).passes = true)
    (hbacking : ∃ backing ∈ d.backing?, backing.IsResolvedName) :
    d.IsIntegralEnum r ∨ d.IsNonIntegralEnum := by
  obtain ⟨header, body⟩ := d
  cases body with
  | enum enumerators backing members =>
    obtain ⟨type, rfl, hresolved⟩ := hbacking
    have hrules := Header.decides_checkEnum.passes_iff.mp hpasses
    obtain ⟨_, heq, hvalues⟩ := hrules.values
    obtain rfl := Option.some.inj heq
    obtain ⟨first, hfirst⟩ := List.exists_mem_of_ne_nil _ hrules.nonempty
    obtain ⟨v, text, -, hrender⟩ := (hvalues first hfirst).exists_value
    -- the first enumerator tells what the backing type is
    rcases Value.render_cases hresolved hrender with ⟨hself, hbuiltin⟩ | henum
    · rcases Value.valueType_of_renderBuiltin hbuiltin with ⟨low, high, hbounds⟩ | hother
      · refine .inl ⟨type, _, low, high, rfl, rfl, hresolved.isArray, hself, hbounds, ?_⟩
        intro x hx
        obtain ⟨v, text, hv, hrender⟩ := (hvalues x hx).exists_value
        rcases Value.render_cases hresolved hrender with ⟨-, hbuiltin⟩ | henum
        · obtain ⟨n, rfl, hn⟩ := Value.integral_of_renderBuiltin hbounds hbuiltin
          exact ⟨n, hv, hn⟩
        · simp [TypeName.isEnum, TypeName.isKind, TypeName.target?, hself] at henum
      · exact .inr ⟨type, rfl, .inl ⟨hself, hother⟩⟩
    · exact .inr ⟨type, rfl, .inr henum⟩
  | _ => cases hkind

end Decl

namespace Registry

variable {number : Nat} {options : Options}

/-- When the general part of a validation has passed without an error, every enum of the document
has a backing type that is a resolved name. -/
theorem backing_of_checkGenerally {doc : Document}
    (hdoc : (r.checkGenerally number).value.1.document? number = some doc)
    (hpassed : (r.checkGenerally number).value.2 = .ok true)
    (hsilent : ∀ d ∈ (r.checkGenerally number).diagnostics, d.isError = false) :
    ∀ d ∈ doc.decls, d.kind = .enum → ∃ backing ∈ d.backing?, backing.IsResolvedName := by
  rcases r.checkGenerally_cases number with ⟨hne, heq⟩ | ⟨-, hne, heq⟩ | ⟨-, hcompleted, heq⟩
  · exact absurd (heq ▸ hpassed) hne
  · rw [heq] at hpassed
    exact absurd hpassed hne
  · rw [heq] at hdoc hsilent
    have hcompletion := (List.forall_mem_append.mp (List.forall_mem_append.mp hsilent).2).1
    exact backing_of_completeDocument hdoc hcompleted hcompletion

/-- Every enum of a document that a validation accepts has a resolved name as its backing type. -/
theorem backing_of_valid {report : ValidationReport}
    (h : (r.validate number options).2 = .ok report) (hvalid : report.valid = true) {doc : Document}
    (hdoc : (r.validate number options).1.document? number = some doc) :
    ∀ d ∈ doc.decls, d.kind = .enum → ∃ backing ∈ d.backing?, backing.IsResolvedName := by
  obtain ⟨hpassed, hsilent⟩ := passed_of_valid h hvalid
  rw [validate_eq] at hdoc
  exact backing_of_checkGenerally hdoc hpassed hsilent

/-- **Enums of valid documents**: in the registry that a positive validation leaves, each enum of
the document is over a builtin integral type and its enumerators evaluate to integers within the
bounds of that type, unless its annotation names a backing type that is not integral. -/
theorem validate_enums {report : ValidationReport}
    (h : (r.validate number options).2 = .ok report) (hvalid : report.valid = true) :
    ∃ doc, (r.validate number options).1.document? number = some doc ∧
      ∀ d ∈ doc.decls, d.kind = .enum →
        d.IsIntegralEnum (r.validate number options).1 ∨ d.IsNonIntegralEnum := by
  have hafter : (r.validate number options).1 = (r.checkGenerally number).value.1 := by
    rw [validate_eq]
  obtain ⟨hpassed, hsilent⟩ := passed_of_valid h hvalid
  obtain ⟨doc, hdoc, hpasses⟩ := passes_of_checkGenerally hpassed
  rw [hafter]
  refine ⟨doc, hdoc, fun d hd hkind => ?_⟩
  have hbacking := backing_of_checkGenerally hdoc hpassed hsilent d hd hkind
  exact Decl.enum_cases hkind (passes_checkEach_iff.mp hpasses d hd) hbacking

/-- A document with an enum of one value, whose annotation names a backing type. -/
def backedEnum (type : String) (value : Location → Expr) : Document :=
  let loc : Location := ⟨"E.aidl", none⟩
  let backing : Annotation :=
    { location := loc, kind := .backing, params := [("type", .literal loc .string type)] }
  let header : Header := ⟨loc, "p", "E", "", ⟨[backing]⟩⟩
  ⟨[], [⟨header, .enum [⟨loc, "A", some (value loc), ""⟩] none {}⟩]⟩

/-- What a run has left of a document with one declaration. -/
private theorem exists_decl_of_document {α : Type} {f : Decl → α} {y : α}
    (h : (r.document? number).map (fun doc => doc.decls.map f) = some [y]) :
    ∃ doc d, r.document? number = some doc ∧ doc.decls = [d] ∧ f d = y := by
  obtain ⟨doc, hdoc, hdecls⟩ := Option.map_eq_some_iff.mp h
  obtain ⟨d, hd, hy⟩ := List.map_eq_singleton_iff.mp hdecls
  exact ⟨doc, d, hdoc, hd, hy⟩

/-- With an annotation for `int`, a value is accepted that the default backing type `byte` would not
hold, and the enum is an integral one. -/
theorem validate_enums_int :
    let r := (empty.addDocument (backedEnum "\"int\"" (.literal · .integral "200"))).value
    let validated := r.validate 0 {}
    ∃ report doc d, validated.2 = .ok report ∧ report.valid = true ∧
      validated.1.document? 0 = some doc ∧ doc.decls = [d] ∧ d.kind = .enum ∧
      d.IsIntegralEnum validated.1 := by
  intro r validated
  have hvalid : validated.2.toOption.map (·.valid) = some true := by decide +kernel
  have hdecls : (validated.1.document? 0).map (fun doc => doc.decls.map fun d =>
      (d.kind, d.backing?.map fun backing => (backing.name, backing.base.isEnum))) =
        some [(.enum, some ("int", false))] := by decide +kernel
  obtain ⟨report, hreport, hvalid⟩ := Option.map_eq_some_iff.mp hvalid
  have hreport : validated.2 = .ok report := toOption_eq_some_iff.mp hreport
  obtain ⟨doc, d, hdoc, heq, hd⟩ := exists_decl_of_document hdecls
  obtain ⟨hkind, hbacking⟩ := Prod.mk.inj hd
  obtain ⟨doc', hdoc', henums⟩ := validate_enums hreport hvalid
  obtain rfl : doc = doc' := Option.some.inj (hdoc.symm.trans hdoc')
  refine ⟨report, doc, d, hreport, hvalid, hdoc, heq, hkind, ?_⟩
  refine (henums d (heq ▸ List.mem_cons_self) hkind).resolve_right ?_
  rintro ⟨backing, hsome, hcases⟩
  rw [hsome, Option.map_some, Option.some.injEq] at hbacking
  obtain ⟨hname, hnotEnum⟩ := Prod.mk.inj hbacking
  rcases hcases with ⟨-, hother⟩ | henum
  · rw [hname] at hother
    exact absurd hother (by decide)
  · rw [hnotEnum] at henum
    cases henum

/-- An enum over texts is valid. -/
theorem validate_stringBacked :
    let r := (empty.addDocument (backedEnum "\"String\"" (.literal · .string "\"x\""))).value
    let validated := r.validate 0 {}
    r.Reachable Document.IsFresh ∧ validated.2.toOption.map (·.valid) = some true ∧
      ∃ doc d, validated.1.document? 0 = some doc ∧ doc.decls = [d] ∧ d.kind = .enum ∧
        d.backing?.map (·.name) = some "String" ∧ ¬ d.IsIntegralEnum validated.1 := by
  intro r validated
  have hr : r.Reachable Document.IsFresh := .addDocument .empty (by decide +kernel)
  have hdecls : (validated.1.document? 0).map (fun doc => doc.decls.map fun d =>
      (d.kind, d.backing?.map (·.name))) = some [(.enum, some "String")] := by decide +kernel
  obtain ⟨doc, d, hdoc, heq, hd⟩ := exists_decl_of_document hdecls
  obtain ⟨hkind, hbacking⟩ := Prod.mk.inj hd
  refine ⟨hr, by decide +kernel, doc, d, hdoc, heq, hkind, hbacking, ?_⟩
  rintro ⟨backing, enumerators, low, high, hsome, -, -, -, hbounds, -⟩
  rw [hsome, Option.map_some, Option.some.injEq] at hbacking
  rw [hbacking] at hbounds
  exact absurd hbounds (by simp [integralBounds?])

end Registry

end InterfaceDefinition
