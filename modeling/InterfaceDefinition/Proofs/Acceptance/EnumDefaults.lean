import InterfaceDefinition.Decl.Source
import InterfaceDefinition.Proofs.Acceptance.Enumerators
import InterfaceDefinition.Proofs.Registry.History

/-!
# Defaults of enum types

A default of an enum type is checked when its document is validated, and it keeps its text: the
enum keeps its enumerators, and nothing else is looked up for it. For an array this takes the other
documents to be valid as well, because a reference in place of the whole array is looked up as a
constant. A constant of a document that was never reported valid may be an array of anything, while
in valid documents none is written as an array (`Registry.KeepsDefaults`).

So when all documents of a registry were reported valid, every default of an enum type is rendered
as enumerators of that enum (`Registry.History.enumDefaults`). With one document left out that need
not be so (`Registry.validate_otherEnum`).
-/

namespace InterfaceDefinition

open Bounded Fallible

/-! ### Enumerators over time -/

namespace Decl

/-- The names of the enumerators of an enum. -/
def enumeratorNames (d : Decl) : List String :=
  (d.enumerators?.getD []).map (·.1.name)

/-- The look-up of an enumerator succeeds for the names of the enumerators. -/
theorem isSome_enumerator?_iff {d : Decl} {name : String} :
    (d.enumerator? name).isSome = true ↔ name ∈ d.enumeratorNames := by
  rw [enumerator?, enumeratorNames]
  cases d.enumerators? with
  | none => simp
  | some enumerators => simp [List.find?_isSome]

end Decl

namespace Registry

variable {r r' : Registry} {d d' : Decl} {type : TypeName} {e : Expr}

/-- A place and a name lead to an enumerator when the declaration there has one of that name. -/
theorem isEnumerator_iff {id : DeclId} {name : String} :
    r.isEnumerator id name = true ↔ ∃ d, r.decl? id = some d ∧ name ∈ d.enumeratorNames := by
  simp only [isEnumerator, Option.any_eq_true, Decl.isSome_enumerator?_iff]

/-- Enumerators stay. -/
theorem Grows.isEnumerator (h : r.Grows r') {id : DeclId} {name : String}
    (hname : r.isEnumerator id name = true) : r'.isEnumerator id name = true := by
  rw [isEnumerator_iff] at hname ⊢
  obtain ⟨d, hd, hmem⟩ := hname
  obtain ⟨d', hd', hbecomes⟩ := h.exists_later hd
  refine ⟨d', hd', ?_⟩
  rwa [← Decl.isSome_enumerator?_iff, Decl.enumerator?_of_shell hbecomes.shell,
    Decl.isSome_enumerator?_iff]

/-- The expressions of a registry are those of its declarations. -/
theorem mem_exprs_iff : e ∈ r.exprs ↔ ∃ id d, r.decl? id = some d ∧ e ∈ d.exprs := by
  constructor
  · intro he
    obtain ⟨doc, hdoc, he⟩ := List.mem_flatMap.mp he
    obtain ⟨d, hd, he⟩ := List.mem_flatMap.mp he
    obtain ⟨number, hnumber⟩ := List.getElem?_of_mem hdoc
    obtain ⟨position, hposition⟩ := List.getElem?_of_mem hd
    refine ⟨⟨number, position⟩, d, ?_, he⟩
    rw [decl?, document?, hnumber]
    exact hposition
  · rintro ⟨id, d, hd, he⟩
    obtain ⟨doc, hdoc, hmem⟩ := exists_mem_of_decl? hd
    exact List.mem_flatMap.mpr ⟨doc, hdoc, List.mem_flatMap.mpr ⟨d, hmem, he⟩⟩

/-- The expressions of a registry stay. -/
theorem Grows.exprs_subset (h : r.Grows r') : r.exprs ⊆ r'.exprs := by
  intro e he
  obtain ⟨id, d, hd, he⟩ := mem_exprs_iff.mp he
  obtain ⟨d', hd', hbecomes⟩ := h.exists_later hd
  exact mem_exprs_iff.mpr ⟨id, d', hd', hbecomes.exprs ▸ he⟩

/-- What is read as an enumerator ends in the name of one. -/
theorem isEnumerator_of_enumerator {target : DeclRef} {name : String} {v : Value}
    (h : r.enumerator target type name = .ok v) :
    r.isEnumerator target.id (Dotted.lastSegment name) = true := by
  by_contra hnot
  rw [Bool.not_eq_true] at hnot
  simp [enumerator, hnot] at h

/-- What is read as an enumerator is read so ever after. -/
theorem Grows.enumerator_eq (h : r.Grows r') {target : DeclRef} {name : String} {v : Value}
    (hv : r.enumerator target type name = .ok v) : r'.enumerator target type name = .ok v := by
  have hname := isEnumerator_of_enumerator hv
  unfold enumerator at hv ⊢
  rw [hname] at hv
  rw [h.isEnumerator hname]
  exact hv

/-- An expression that names an enumerator goes on to do so in whatever the registry grows into. -/
theorem NamesEnumerator.grow (h : r.NamesEnumerator type e) (hr : r.Grows r') :
    r'.NamesEnumerator type e := by
  obtain ⟨target, htarget, hkind, henumerator⟩ := h.denotes
  exact ⟨h.isReference, target, htarget, hkind, hr.enumerator_eq henumerator⟩

/-- The same holds of the arrays of such expressions. -/
theorem SpellsEnumerators.grow {type : ValueType} (h : r.SpellsEnumerators type e)
    (hr : r.Grows r') : r'.SpellsEnumerators type e := by
  rw [SpellsEnumerators] at h ⊢
  split
  · next harray =>
    rw [if_pos harray] at h
    obtain ⟨loc, items, heq, hitems⟩ := h
    exact ⟨loc, items, heq, fun item hitem => (hitems item hitem).grow hr⟩
  · next harray =>
    rw [if_neg harray] at h
    exact h.grow hr

end Registry

/-! ### Arrays that are written out -/

/-- An array has no text as a value of a name. -/
theorem Value.renderAs_array_ne_ok (type : TypeName) (vs : List Value) (text : String) :
    (Value.array vs).renderAs type ≠ .ok text := by
  intro h
  unfold renderAs at h
  split at h
  · unfold renderBuiltin at h
    dsimp only at h
    split at h
    all_goals cases h
  · split at h
    all_goals cases h

/-- What is accepted for a type that is no array is not written as one. -/
theorem Registry.Accepts.isArray_eq_false {r : Registry} {scope : String} {type : TypeSpec}
    {e : Expr} (h : r.Accepts scope type e) (harray : type.isArray = false) :
    e.isArray = false := by
  cases e with
  | array loc items =>
    obtain ⟨v, text, hv, hrender⟩ := h.exists_value
    have hrun := r.run_evaluateWithin_of_le (.array loc items) type.valueType scope (Nat.le_refl _)
    rw [hv, evaluateWithin, Expr.evalWith] at hrun
    obtain ⟨vs, -, heq⟩ := run_bind_eq_ok hrun
    cases heq
    unfold Value.render at hrender
    rw [if_neg (by simp [TypeSpec.valueType, harray])] at hrender
    exact absurd hrender (Value.renderAs_array_ne_ok _ _ _)
  | _ => rfl

/-- No constant is an array. -/
theorem Constant.IsValid.isArray_eq_false {r : Registry} {scope : String} {c : Constant}
    (h : c.IsValid r scope) : c.type.isArray = false := by
  have hlast : ∀ s ∈ Vocabulary.constantTypes, s.toList.getLast? ≠ some ']' := by decide
  by_contra harray
  rw [Bool.not_eq_false] at harray
  refine hlast _ h.signature ?_
  rw [TypeSpec.signature_eq, if_pos harray]
  simp

namespace Decl

/-- In a declaration that passes its check no value of a constant or an enumerator is written as an
array. -/
theorem isArray_of_passes {r : Registry} {d : Decl} (hpasses : (d.check r).passes = true)
    (hbacking : d.kind = .enum → ∃ backing ∈ d.backing?, backing.IsResolvedName) :
    ∀ e ∈ d.exprs, e.isArray = false := by
  intro e he
  rcases List.mem_append.mp he with hconstant | henumerator
  · obtain ⟨c, hc, rfl⟩ := List.mem_map.mp hconstant
    have hvalid := (isValid_of_passes hpasses).2 c hc
    exact hvalid.value.isArray_eq_false hvalid.isArray_eq_false
  · obtain ⟨x, hx, rfl⟩ := List.mem_map.mp henumerator
    cases henumerators : d.enumerators? with
    | none => simp [henumerators] at hx
    | some enumerators =>
      rw [henumerators] at hx
      obtain ⟨backing, hsome, hresolved⟩ := hbacking (kind_of_enumerators? henumerators)
      have haccepts := accepts_of_passes henumerators hsome hpasses x hx
      exact haccepts.isArray_eq_false hresolved.isArray

end Decl

/-! ### Declarations that pass -/

namespace Registry

variable {r r' : Registry} {d d' : Decl}

/-- What the check of a declaration ensures for the values of enum types. -/
structure KeepsDefaults (r : Registry) (d : Decl) : Prop where
  settled : d.kind ≠ .enum → d.IsSettled
  noMembers : d.kind = .enum → d.members.isEmpty = true
  noArrays : ∀ e ∈ d.exprs, e.isArray = false
  /-- A default of an enum type is written as enumerators, or it may refer to a constant that is
  written as an array. -/
  defaults : ∀ f ∈ d.fields, ∀ value, f.default? = some value → f.type.base.isEnum = true →
    r.SpellsEnumerators f.type.valueType value ∨ ∃ e ∈ r.exprs, e.isArray = true

/-- The check of a declaration looks at every default, and a default of an enum type passes only as
the name of one of its enumerators. -/
theorem keepsDefaults_of_passes (hpasses : (d.check r).passes = true)
    (hbacking : d.kind = .enum → ∃ backing ∈ d.backing?, backing.IsResolvedName) :
    r.KeepsDefaults d where
  settled hkind := by
    refine ⟨hkind, fun t ht => ?_⟩
    exact (Decl.isValid_typeSpecs_of_passes hpasses t ht t t.self_mem_nodes).1
  noMembers hkind := by
    obtain ⟨_, -, hrules⟩ := Decl.enumRules_of_passes hkind hpasses
    exact hrules.noMembers
  noArrays := Decl.isArray_of_passes hpasses hbacking
  defaults f hf value hvalue henum := by
    obtain ⟨-, text, htext, -⟩ := ((Decl.isValid_of_passes hpasses).1 f hf).value value hvalue
    exact spellsEnumerators_or_array henum htext

/-- Growth takes nothing of this back. -/
theorem KeepsDefaults.becomes (h : r.KeepsDefaults d) (hr : r.Grows r') (hd : d.Becomes d') :
    r'.KeepsDefaults d' := by
  by_cases hkind : d.kind = .enum
  · have hkind' : d'.kind = .enum := (Decl.kind_of_shell hd.shell).trans hkind
    have hempty : d'.members.isEmpty = true :=
      (congrArg Decl.Shell.hasNoMembers hd.shell).trans (h.noMembers hkind)
    refine ⟨fun hne => absurd hkind' hne, fun _ => hempty, hd.exprs ▸ h.noArrays, ?_⟩
    simp only [Members.isEmpty, Bool.and_eq_true, List.isEmpty_iff] at hempty
    simp [Decl.fields, hempty]
  · obtain rfl := hd.settled (h.settled hkind)
    refine ⟨h.settled, h.noMembers, h.noArrays, fun f hf value hvalue henum => ?_⟩
    rcases h.defaults f hf value hvalue henum with hspells | ⟨e, he, harray⟩
    · exact .inl (hspells.grow hr)
    · exact .inr ⟨e, hr.exprs_subset he, harray⟩

/-! ### Registries of valid documents -/

/-- The name of an enumerator is that of one of the enum that the type stands for. -/
theorem NamesEnumerator.mem_enumeratorNames {type : TypeName} {e : Expr}
    (h : r.NamesEnumerator type e) {enum : Decl} (henum : r.named? type = some enum) :
    Dotted.lastSegment e.text ∈ enum.enumeratorNames := by
  obtain ⟨target, htarget, -, henumerator⟩ := h.denotes
  obtain ⟨d, hd, hmem⟩ := isEnumerator_iff.mp (isEnumerator_of_enumerator henumerator)
  rw [named?, htarget, Option.bind_some] at henum
  obtain rfl : d = enum := Option.some.inj (hd.symm.trans henum)
  exact hmem

/-- The type of a field that stands for an enum was read as that enum, so it is called like it. -/
theorem Reachable.isEnum_of_named? (hr : r.Reachable Document.IsFresh) {id : DeclId}
    (hd : r.decl? id = some d) {f : Field} (hf : f ∈ d.fields) {enum : Decl}
    (hnamed : r.named? f.type.base = some enum) (hkind : enum.kind = .enum) :
    f.type.base.isEnum = true ∧ enum.canonicalName = f.type.base.text := by
  obtain ⟨target, htarget, -⟩ := Option.bind_eq_some_iff.mp hnamed
  obtain ⟨doc, hdoc, hmem⟩ := exists_mem_of_decl? hd
  have htype : f.type ∈ d.typeSpecs :=
    List.mem_append_left _ (List.mem_append_left _ (List.mem_map_of_mem hf))
  have hnode : f.type ∈ d.allNodes :=
    Decl.mem_allNodes_iff.mpr ⟨f.type, .inl htype, f.type.self_mem_nodes⟩
  have hread : f.type.base.ReadIn r d.typeParams :=
    hr.readIn (fun _ hfresh => hfresh) hdoc hmem hnode f.type f.type.self_mem_nodes
  obtain ⟨enum', hnamed', hname, hkind'⟩ := hr.indexed.exists_named? hread htarget
  obtain rfl : enum = enum' := Option.some.inj (hnamed.symm.trans hnamed')
  exact ⟨by simp [TypeName.isEnum, TypeName.isKind, htarget, ← hkind', hkind], hname⟩

namespace History

variable {valid : List Nat}

/-- The declarations of documents that were reported valid keep their defaults of enum types,
whatever happened to the registry since. -/
theorem everyDecl_keepsDefaults {Admitted : Document → Prop} (h : r.History Admitted valid) :
    r.EveryDecl KeepsDefaults valid := by
  refine h.everyDecl (fun _ hreport hvalid => ?_) fun hr hd hkeeps => hkeeps.becomes hr hd
  obtain ⟨doc, hdoc, hchecked⟩ := passes_of_valid hreport hvalid
  refine ⟨doc, hdoc, fun d hd => ?_⟩
  exact keepsDefaults_of_passes (passes_checkEach_iff.mp hchecked d hd)
    (backing_of_valid hreport hvalid hdoc d hd)

/-- When all documents are valid, a default of an enum type is written as enumerators. -/
theorem spellsEnumerators {Admitted : Document → Prop} (h : r.History Admitted valid)
    (hall : ∀ number < r.documents.length, number ∈ valid) {id : DeclId}
    (hd : r.decl? id = some d) {f : Field} (hf : f ∈ d.fields) {value : Expr}
    (hvalue : f.default? = some value) (henum : f.type.base.isEnum = true) :
    r.SpellsEnumerators f.type.valueType value := by
  have hkeeps : ∀ {id d}, r.decl? id = some d → r.KeepsDefaults d := fun hd =>
    h.everyDecl_keepsDefaults.of_decl? (hall _ (document_lt_of_decl? hd)) hd
  refine ((hkeeps hd).defaults f hf value hvalue henum).resolve_right ?_
  rintro ⟨e, he, harray⟩
  obtain ⟨id, d, hd, he⟩ := mem_exprs_iff.mp he
  simp [(hkeeps hd).noArrays e he] at harray

/-- **Defaults of enum types**: take a registry all of whose documents were reported valid, each at
some time in its history, and a field of an enum type, or of an array of one, with a default. The
default is rendered as the name of an enumerator of that very enum behind the canonical name of the
enum, or as an array of such. -/
theorem enumDefaults (h : r.History Document.IsFresh valid)
    (hall : ∀ number < r.documents.length, number ∈ valid) {id : DeclId}
    (hd : r.decl? id = some d) {f : Field} (hf : f ∈ d.fields) (hdefault : f.default? ≠ none)
    {enum : Decl} (hnamed : r.named? f.type.base = some enum) (hkind : enum.kind = .enum) :
    (f.type.isArray = false → ∃ m ∈ enum.enumeratorNames,
      f.valueText r d.canonicalName = enum.canonicalName ++ "." ++ m) ∧
    (f.type.isArray = true → ∃ ms : List String, (∀ m ∈ ms, m ∈ enum.enumeratorNames) ∧
      f.valueText r d.canonicalName =
        "\x7b" ++ ", ".intercalate (ms.map (enum.canonicalName ++ "." ++ ·)) ++ "\x7d") := by
  obtain ⟨value, hvalue⟩ := Option.ne_none_iff_exists'.mp hdefault
  obtain ⟨henum, hname⟩ := h.reachable.isEnum_of_named? hd hf hnamed hkind
  have hspells := h.spellsEnumerators hall hd hf hvalue henum
  rw [SpellsEnumerators] at hspells
  rw [Field.valueText, hvalue, hname]
  dsimp only
  constructor
  · intro harray
    rw [if_neg (by simp [TypeSpec.valueType, harray])] at hspells
    refine ⟨_, hspells.mem_enumeratorNames hnamed, ?_⟩
    rw [valueTextOrEmpty, hspells.valueText_eq harray]
    rfl
  · intro harray
    rw [if_pos (by simp [TypeSpec.valueType, harray])] at hspells
    obtain ⟨loc, items, rfl, hitems⟩ := hspells
    refine ⟨items.map fun item => Dotted.lastSegment item.text, ?_, ?_⟩
    · exact List.forall_mem_map.mpr fun item hitem =>
        (hitems item hitem).mem_enumeratorNames hnamed
    · rw [valueTextOrEmpty, valueText_array henum hitems harray, List.map_map]
      rfl

end History

/-- A document with a parcelable of two defaults, that of an enum and the given one of an array. -/
def panel (all : Location → Expr) : Document :=
  let loc : Location := ⟨"Panel.aidl", none⟩
  let level : TypeSpec := .named loc "E"
  let fields : List Field := [⟨loc, level, "first", some (.reference loc "A")⟩,
    ⟨loc, { level with isArray := true }, "all", some (all loc)⟩]
  ⟨[], [⟨⟨loc, "p", "Panel", "", {}⟩, .structured none { fields := fields }⟩]⟩

/-- Two documents are accepted, first that of the enum. One default names an enumerator by its own
name and the other those of an array, once with the name of the enum before it; both come out as
full names of enumerators of that enum. -/
theorem enumDefaults_panel :
    let level := countedEnum [("A", none), ("B", none)]
    let doc := panel fun loc => .array loc [.reference loc "A", .reference loc "E.B"]
    let r := ((empty.addDocument level).value.addDocument doc).value
    let after := ((r.validate 0 {}).1.validate 1 {}).1
    after.History Document.IsFresh [1, 0] ∧ after.documents.length = 2 ∧
      ∃ d enum : Decl, after.decl? ⟨1, 0⟩ = some d ∧ after.decl? ⟨0, 0⟩ = some enum ∧
        enum.kind = .enum ∧ enum.enumeratorNames = ["A", "B"] ∧
        d.fields.map (fun f => (f.type.isArray, f.valueText after d.canonicalName)) =
          [(false, "p.E.A"), (true, "\x7bp.E.A, p.E.B\x7d")] ∧
        ∀ f ∈ d.fields, f.default? ≠ none ∧ after.named? f.type.base = some enum ∧
          (f.type.isArray = true → ∃ ms : List String, (∀ m ∈ ms, m ∈ enum.enumeratorNames) ∧
            f.valueText after d.canonicalName = "\x7b" ++
              ", ".intercalate (ms.map (enum.canonicalName ++ "." ++ ·)) ++ "\x7d") := by
  intro level doc r after
  have h : after.History Document.IsFresh [1, 0] := by
    refine .accept_of_toOption (.accept_of_toOption (.addDocument (.addDocument .empty ?_) ?_)
      0 {} ?_) 1 {} ?_
    all_goals decide +kernel
  have hlength : after.documents.length = 2 := by decide +kernel
  have hall : ∀ number < after.documents.length, number ∈ [1, 0] := by
    rw [hlength]
    decide
  have henum : (after.decl? ⟨0, 0⟩).map (fun enum => (enum.kind, enum.enumeratorNames)) =
      some (.enum, ["A", "B"]) := by decide +kernel
  have hpanel : (after.decl? ⟨1, 0⟩).map (fun d =>
      (d.fields.map fun f => (f.type.isArray, f.valueText after d.canonicalName),
        d.fields.all fun f => f.default?.isSome &&
          f.type.base.target?.map (·.id) == some ⟨0, 0⟩)) =
      some ([(false, "p.E.A"), (true, "\x7bp.E.A, p.E.B\x7d")], true) := by decide +kernel
  obtain ⟨enum, henum, heq⟩ := Option.map_eq_some_iff.mp henum
  obtain ⟨hkind, hnames⟩ := Prod.mk.inj heq
  obtain ⟨d, hd, heq⟩ := Option.map_eq_some_iff.mp hpanel
  obtain ⟨htexts, hfields⟩ := Prod.mk.inj heq
  refine ⟨h, hlength, d, enum, hd, henum, hkind, hnames, htexts, fun f hf => ?_⟩
  have hfield := List.all_eq_true.mp hfields f hf
  simp only [Bool.and_eq_true, Option.isSome_iff_ne_none, beq_iff_eq] at hfield
  obtain ⟨hdefault, htarget⟩ := hfield
  obtain ⟨target, htarget, hid⟩ := Option.map_eq_some_iff.mp htarget
  have hnamed : after.named? f.type.base = some enum := by
    rw [named?, htarget, Option.bind_some, hid, henum]
  exact ⟨hdefault, hnamed, (h.enumDefaults hall hd hf hdefault hnamed hkind).2⟩

/-- A document with another enum, and a constant that is an array of that. -/
def otherEnum : Document :=
  let loc : Location := ⟨"Other.aidl", none⟩
  let header (name : String) : Header := ⟨loc, "p", name, "", {}⟩
  let all : Constant := ⟨loc, { TypeSpec.named loc "Other" with isArray := true }, "ALL",
    .array loc [.reference loc "C"]⟩
  ⟨[], [⟨header "Other", .enum [⟨loc, "C", none, ""⟩] none {}⟩,
    ⟨header "IOther", .interface false { constants := [all] }⟩]⟩

/-- While one document is not valid, a default in another one that is may be an array of enumerators
that the enum does not have. -/
theorem validate_otherEnum :
    let level := countedEnum [("A", none), ("B", none)]
    let doc := panel fun loc => .reference loc "IOther.ALL"
    let r := (((empty.addDocument level).value.addDocument otherEnum).value.addDocument doc).value
    let after := (((r.validate 0 {}).1.validate 1 {}).1.validate 2 {}).1
    after.History Document.IsFresh [2, 0] ∧
      (after.decl? ⟨0, 0⟩).map (·.enumeratorNames) = some ["A", "B"] ∧
      (after.decl? ⟨2, 0⟩).map (fun d => d.fields.map (·.valueText after d.canonicalName)) =
        some ["p.E.A", "\x7bp.E.C\x7d"] := by
  intro level doc r after
  refine ⟨?_, by decide +kernel, by decide +kernel⟩
  refine .accept_of_toOption (.validate 1 {} (.accept_of_toOption (.addDocument (.addDocument
    (.addDocument .empty ?_) ?_) ?_) 0 {} ?_)) 2 {} ?_
  all_goals decide +kernel

end Registry

end InterfaceDefinition
