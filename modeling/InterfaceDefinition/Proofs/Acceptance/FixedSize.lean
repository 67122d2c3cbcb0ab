import InterfaceDefinition.Proofs.Acceptance.Declarations
import InterfaceDefinition.Proofs.Registry.History
import InterfaceDefinition.Proofs.Registry.Readings
import Mathlib.Data.Set.Finite.Lattice
import Mathlib.Order.OrderIsoNat

/-!
# Layouts of parcelables of fixed size

A parcelable that is declared to have a fixed size is meant to have a layout: its fields, with
parcelables of fixed size replaced by their own fields, come down to values of primitive types and
of enums (`Registry.Layout`). The check of the parcelable looks at its own fields only, and of a
field that is a parcelable at nothing but the annotation (`Registry.hasFixedSize`).

In a registry all of whose documents were reported valid, at whatever times, the fields of these
parcelables are of the right forms (`Registry.History.elementary_or_part`). So a parcelable has a
layout, and only one, if no path of fields leads from it into a cycle, and none otherwise
(`Registry.History.fixedSize_layout`). Nothing keeps such cycles out: a parcelable of fixed size
that has itself as a field is valid (`Registry.validate_selfContaining`).
-/

namespace InterfaceDefinition

open Fallible
open Relation (ReflTransGen TransGen)

/-! ### Paths that end -/

/-- In a relation on finitely many elements every path from an element ends exactly if none leads
into a cycle. -/
theorem acc_iff_forall_not_transGen {α : Type} {R : α → α → Prop} {s : Set α} (hs : s.Finite)
    (hR : ∀ {a b}, R a b → a ∈ s) {a : α} :
    Acc (flip R) a ↔ ∀ b, ReflTransGen R a b → ¬ TransGen R b b := by
  constructor
  · intro hacc
    induction hacc with
    | intro a _ ih =>
      intro b hab hcycle
      -- a path into a cycle goes on after its first step
      obtain ⟨c, hac, hcb⟩ := TransGen.head'_iff.mp (TransGen.trans_right hab hcycle)
      exact ih c hac b hcb hcycle
  · intro h
    by_contra hnot
    obtain ⟨path, hstart, hpath⟩ := not_acc_iff_exists_descending_chain.mp hnot
    have hstep : ∀ n, R (path n) (path (n + 1)) := hpath
    obtain ⟨i, j, hlt, heq⟩ :=
      Set.Finite.exists_lt_map_eq_of_forall_mem (f := path) (fun n => hR (hstep n)) hs
    have hreach : ReflTransGen R (path 0) (path i) :=
      Nat.rel_of_forall_rel_succ_of_le (ReflTransGen R) (fun n => .single (hstep n)) i.zero_le
    have hcycle : TransGen R (path i) (path j) :=
      Nat.rel_of_forall_rel_succ_of_lt (TransGen R) (fun n => .single (hstep n)) hlt
    rw [hstart] at hreach
    rw [← heq] at hcycle
    exact h _ hreach hcycle

/-! ### Parcelables of fixed size -/

/-- A parcelable with fields that is declared to have a fixed size. -/
def Decl.IsSized (d : Decl) : Prop :=
  d.kind = .structured ∧ d.annotations.has .fixedSize = true

instance (d : Decl) : Decidable d.IsSized :=
  inferInstanceAs (Decidable (_ ∧ _))

namespace Registry

/-- A type of values that are not made up of fields: primitive, or an enum. -/
def IsElementary (r : Registry) (t : TypeSpec) : Prop :=
  Vocabulary.isPrimitive t.name = true ∨ ∃ d, r.named? t.base = some d ∧ d.kind = .enum

/-- The parcelable of fixed size that a type stands for. -/
def part? (r : Registry) (t : TypeSpec) : Option DeclId :=
  (t.base.target?.map (·.id)).filter fun id => (r.decl? id).any fun d => decide d.IsSized

/-- One parcelable of fixed size has a field of the type of the other. -/
def Contains (r : Registry) (whole part : DeclId) : Prop :=
  ∃ d, r.decl? whole = some d ∧ d.IsSized ∧ ∃ f ∈ d.fields, r.part? f.type = some part

/-- What some fields come down to when parcelables of fixed size are replaced by their fields. -/
inductive Layout (r : Registry) : List Field → List TypeSpec → Prop
  | nil : Layout r [] []
  | elementary {f : Field} {rest : List Field} {leaves : List TypeSpec}
      (hpart : r.part? f.type = none) (helementary : r.IsElementary f.type)
      (hrest : Layout r rest leaves) : Layout r (f :: rest) (f.type :: leaves)
  | part {f : Field} {rest : List Field} {leaves inner : List TypeSpec} {id : DeclId} {d : Decl}
      (hpart : r.part? f.type = some id) (hd : r.decl? id = some d)
      (hinner : Layout r d.fields inner) (hrest : Layout r rest leaves) :
      Layout r (f :: rest) (inner ++ leaves)

variable {r r' : Registry} {t : TypeSpec} {id : DeclId} {d d' : Decl}

/-- A field has a part when its type leads to a declaration of fixed size. -/
theorem part?_eq_some_iff : r.part? t = some id ↔
    (∃ target, t.base.target? = some target ∧ target.id = id) ∧
      ∃ d, r.decl? id = some d ∧ d.IsSized := by
  simp [part?, Option.filter_eq_some_iff, Option.any_eq_true]

/-- A path that starts with a part of a declaration is one of the declaration. -/
theorem acc_of_forall_part (hd : r.decl? id = some d)
    (h : ∀ f ∈ d.fields, ∀ part, r.part? f.type = some part → Acc (flip r.Contains) part) :
    Acc (flip r.Contains) id := by
  refine ⟨_, fun part hcontains => ?_⟩
  obtain ⟨whole, hwhole, -, f, hf, hpart⟩ := hcontains
  obtain rfl := Option.some.inj (hd.symm.trans hwhole)
  exact h f hf part hpart

/-! ### Layouts -/

namespace Layout

variable {fields : List Field} {leaves leaves' : List TypeSpec}

/-- Fields have at most one layout. -/
theorem unique (h : r.Layout fields leaves) (h' : r.Layout fields leaves') : leaves = leaves' := by
  induction h generalizing leaves' with
  | nil =>
    cases h'
    rfl
  | elementary hpart _ _ ih =>
    cases h' with
    | elementary _ _ hrest' => rw [ih hrest']
    | part hpart' => simp [hpart] at hpart'
  | part hpart hd _ _ ihinner ih =>
    cases h' with
    | elementary hpart' => simp [hpart] at hpart'
    | part hpart' hd' hinner' hrest' =>
      obtain rfl := Option.some.inj (hpart.symm.trans hpart')
      obtain rfl := Option.some.inj (hd.symm.trans hd')
      rw [ihinner hinner', ih hrest']

/-- A layout consists of elementary types. -/
theorem isElementary (h : r.Layout fields leaves) : ∀ t ∈ leaves, r.IsElementary t := by
  induction h with
  | nil => simp
  | elementary _ helementary _ ih => exact List.forall_mem_cons.mpr ⟨helementary, ih⟩
  | part _ _ _ _ ihinner ih => exact List.forall_mem_append.mpr ⟨ihinner, ih⟩

/-- From the parts of fields that have a layout every path ends. -/
theorem acc_part (h : r.Layout fields leaves) :
    ∀ f ∈ fields, ∀ id, r.part? f.type = some id → Acc (flip r.Contains) id := by
  induction h with
  | nil => simp
  | elementary hpart _ _ ih => simpa [hpart] using ih
  | @part f _ _ _ id d hpart hd _ _ ihinner ih =>
    refine List.forall_mem_cons.mpr ⟨fun id' hpart' => ?_, ih⟩
    obtain rfl := Option.some.inj (hpart.symm.trans hpart')
    exact acc_of_forall_part hd ihinner

/-- Fields of the right forms have a layout if their parts have. -/
theorem exists_of_parts (hforms : ∀ f ∈ fields, r.IsElementary f.type ∨ (r.part? f.type).isSome)
    (hparts : ∀ f ∈ fields, ∀ id, r.part? f.type = some id →
      ∃ d inner, r.decl? id = some d ∧ r.Layout d.fields inner) :
    ∃ leaves, r.Layout fields leaves := by
  induction fields with
  | nil => exact ⟨[], .nil⟩
  | cons f rest ih =>
    rw [List.forall_mem_cons] at hforms hparts
    obtain ⟨leaves, hrest⟩ := ih hforms.2 hparts.2
    cases hpart : r.part? f.type with
    | none =>
      have helementary : r.IsElementary f.type := by simpa [hpart] using hforms.1
      exact ⟨_, .elementary hpart helementary hrest⟩
    | some id =>
      obtain ⟨d, inner, hd, hinner⟩ := hparts.1 id hpart
      exact ⟨_, .part hpart hd hinner hrest⟩

end Layout

/-- The places of the declarations are finitely many. -/
theorem finite_setOf_decl? (r : Registry) : {id | ∃ d, r.decl? id = some d}.Finite := by
  refine (r.declarations.map (·.1)).finite_toSet.subset ?_
  rintro id ⟨d, hd⟩
  exact List.mem_map.mpr ⟨(id, d), mem_declarations_iff.mpr hd, rfl⟩

/-- There are finitely many declarations, so going down from part to part comes to an end just when
it does not come back to where it has been. -/
theorem acc_contains_iff : Acc (flip r.Contains) id ↔
    ∀ part, ReflTransGen r.Contains id part → ¬ TransGen r.Contains part part :=
  acc_iff_forall_not_transGen r.finite_setOf_decl? fun ⟨d, hd, _⟩ => ⟨d, hd⟩

/-! ### What the checks ensure -/

/-- What the check of a field looks at: only the type itself and what it names, not what this is
made of. -/
theorem hasFixedSize_iff : r.hasFixedSize t = true ↔
    (t.arguments = [] ∧ t.isNullable = false ∧ t.isArray = false) ∧
      (Vocabulary.isPrimitive t.name = true ∨ ∃ d, r.named? t.base = some d ∧
        (d.kind = .enum ∨
          (d.kind = .structured ∨ d.kind = .union) ∧ d.annotations.has .fixedSize = true)) := by
  have hgeneric : t.isGeneric = false ↔ t.arguments = [] := by simp [TypeSpec.isGeneric]
  rw [hasFixedSize, ← hgeneric, named?]
  split
  · next hform =>
    refine iff_of_false (by simp) ?_
    rintro ⟨⟨hplain, hnullable, harray⟩, -⟩
    simp [hplain, hnullable, harray] at hform
  · next hform =>
    rw [and_iff_right (by simpa [and_assoc] using hform)]
    split
    · next hprimitive => simp [hprimitive]
    · next hprimitive =>
      split
      · next hnone => simp [hprimitive, hnone]
      · next d hd => cases hkind : d.kind <;> simp [hprimitive, hd, hkind]

/-- A type keeps its fixed size. -/
theorem Grows.hasFixedSize (h : r.Grows r') (ht : r.hasFixedSize t = true) :
    r'.hasFixedSize t = true := by
  rw [hasFixedSize_iff] at ht ⊢
  refine ⟨ht.1, ht.2.imp_right fun ⟨d, hd, hsized⟩ => ?_⟩
  obtain ⟨target, htarget, hd⟩ := Option.bind_eq_some_iff.mp hd
  obtain ⟨d', hd', hbecomes⟩ := h.exists_later hd
  refine ⟨d', Option.bind_eq_some_iff.mpr ⟨target, htarget, hd'⟩, ?_⟩
  rw [Decl.kind_of_shell hbecomes.shell, Decl.annotations_of_shell hbecomes.shell]
  exact hsized

/-- What the check of a declaration ensures for layouts. -/
structure KeepsSize (r : Registry) (d : Decl) : Prop where
  union : d.kind = .union → d.annotations.has .fixedSize = false
  settled : d.IsSized → d.IsSettled
  fields : d.IsSized → ∀ f ∈ d.fields, r.hasFixedSize f.type = true

/-- A declaration that is not annotated for fixed size has nothing to keep. -/
theorem keepsSize_of_not_isSized (hnot : ¬ d.IsSized)
    (hunion : d.kind = .union → d.annotations.has .fixedSize = false) : r.KeepsSize d :=
  ⟨hunion, fun hsized => absurd hsized hnot, fun hsized => absurd hsized hnot⟩

/-- A declaration that passes has fields of fixed size only, if it is annotated so. -/
theorem keepsSize_of_passes (hpasses : (d.check r).passes = true) : r.KeepsSize d := by
  obtain ⟨header, body⟩ := d
  cases body with
  | structured typeParams ms =>
    have hrules : header.StructuredRules r typeParams ms :=
      Header.decides_checkStructured.passes_iff.mp hpasses
    have hresolved : ∀ t ∈ ms.typeSpecs, t.base.isResolved = true := by
      intro t ht
      simp only [Members.typeSpecs, hrules.methods, List.flatMap_nil, List.append_nil,
        List.mem_append, List.mem_map] at ht
      rcases ht with ⟨f, hf, rfl⟩ | ⟨c, hc, rfl⟩
      · exact ((hrules.fields f hf).type _ f.type.self_mem_nodes).1
      · exact ((hrules.constants c hc).type _ c.type.self_mem_nodes).1
    exact ⟨by simp [Decl.kind], fun _ => ⟨by simp [Decl.kind], hresolved⟩,
      fun h => hrules.fixedSize h.2⟩
  | union typeParams ms =>
    have hrules : header.UnionRules r typeParams ms :=
      Header.decides_checkUnion.passes_iff.mp hpasses
    have hunsized : header.annotations.has .fixedSize = false :=
      hrules.annotations.has_eq_false (by decide)
    exact keepsSize_of_not_isSized (by simp [Decl.IsSized, Decl.kind]) fun _ => hunsized
  | _ => exact keepsSize_of_not_isSized (by simp [Decl.IsSized, Decl.kind]) (by simp [Decl.kind])

/-- The registry may grow and the declaration may be completed: its fields go on to be of fixed
size. -/
theorem KeepsSize.becomes (h : r.KeepsSize d) (hr : r.Grows r') (hd : d.Becomes d') :
    r'.KeepsSize d' := by
  have hkind := Decl.kind_of_shell hd.shell
  have hannotations := Decl.annotations_of_shell hd.shell
  have hsized : d'.IsSized → d.IsSized := by
    rw [Decl.IsSized, Decl.IsSized, hkind, hannotations]
    exact id
  refine ⟨?_, fun hsized' => ?_, fun hsized' => ?_⟩
  · rw [hkind, hannotations]
    exact h.union
  · have hsettled := h.settled (hsized hsized')
    rwa [hd.settled hsettled]
  · rw [hd.settled (h.settled (hsized hsized'))]
    exact fun f hf => hr.hasFixedSize (h.fields (hsized hsized') f hf)

/-! ### Registries of valid documents -/

namespace History

variable {Admitted : Document → Prop} {valid : List Nat}

/-- The declarations of documents that were reported valid keep the rules for layouts, whatever
happened to the registry since. -/
theorem everyDecl_keepsSize (h : r.History Admitted valid) : r.EveryDecl KeepsSize valid := by
  refine h.everyDecl (fun _ hreport hvalid => ?_) fun hr hd hkeeps => hkeeps.becomes hr hd
  obtain ⟨doc, hdoc, hchecked⟩ := passes_of_valid hreport hvalid
  exact ⟨doc, hdoc, fun d hd => keepsSize_of_passes (passes_checkEach_iff.mp hchecked d hd)⟩

section AllValid

variable (h : r.History Admitted valid) (hall : ∀ number < r.documents.length, number ∈ valid)
include h hall

/-- When all documents of a history were found valid, every declaration has passed once and keeps
its size since then. -/
theorem keepsSize (hd : r.decl? id = some d) : r.KeepsSize d :=
  h.everyDecl_keepsSize.of_decl? (hall _ (document_lt_of_decl? hd)) hd

/-- When all documents are valid, a type that has a fixed size for the check is elementary, or the
type of a parcelable of fixed size. -/
theorem elementary_or_part (ht : r.hasFixedSize t = true) :
    r.IsElementary t ∨ ∃ part, r.part? t = some part := by
  rcases (hasFixedSize_iff.mp ht).2 with hprimitive | ⟨d, hd, hkind⟩
  · exact .inl (.inl hprimitive)
  rcases hkind with henum | ⟨hstructured | hunion, hsized⟩
  · exact .inl (.inr ⟨d, hd, henum⟩)
  · obtain ⟨target, htarget, hd⟩ := Option.bind_eq_some_iff.mp hd
    have hpart : r.part? t = some target.id :=
      part?_eq_some_iff.mpr ⟨⟨target, htarget, rfl⟩, d, hd, hstructured, hsized⟩
    exact .inr ⟨_, hpart⟩
  · -- unions cannot be declared so
    obtain ⟨target, -, hd⟩ := Option.bind_eq_some_iff.mp hd
    have hunsized := (h.keepsSize hall hd).union hunion
    simp [hsized] at hunsized

/-- A parcelable of fixed size from which every path ends has a layout. -/
theorem exists_layout (hacc : Acc (flip r.Contains) id) :
    ∀ d, r.decl? id = some d → d.IsSized → ∃ leaves, r.Layout d.fields leaves := by
  induction hacc with
  | intro id _ ih =>
    intro d hd hsized
    have hfields := (h.keepsSize hall hd).fields hsized
    refine Layout.exists_of_parts (fun f hf => ?_) fun f hf part hpart => ?_
    · rw [Option.isSome_iff_exists]
      exact h.elementary_or_part hall (hfields f hf)
    · obtain ⟨-, inner, hinner, hsized'⟩ := part?_eq_some_iff.mp hpart
      obtain ⟨leaves, hleaves⟩ := ih part ⟨d, hd, hsized, f, hf, hpart⟩ inner hinner hsized'
      exact ⟨inner, leaves, hinner, hleaves⟩

end AllValid

/-- **Layouts of parcelables of fixed size**: take a registry all of whose documents were reported
valid, each at some time in its history.

* Every field of a parcelable of fixed size has a type without arguments that is neither an array
  nor nullable, and the type is elementary or such a parcelable itself.
* The parcelable has a layout, which is the only one then, exactly if no path of such fields leads
  from it into a cycle. All types in a layout are elementary.
* That one parcelable contains another is well founded exactly if there are no cycles at all. -/
theorem fixedSize_layout (h : r.History Admitted valid)
    (hall : ∀ number < r.documents.length, number ∈ valid) :
    (∀ id d, r.decl? id = some d → d.IsSized →
      (∀ f ∈ d.fields, f.type.arguments = [] ∧ f.type.isArray = false ∧ f.type.isNullable = false ∧
        (r.IsElementary f.type ∨ ∃ part, r.part? f.type = some part)) ∧
      ((∃! leaves, r.Layout d.fields leaves) ↔
        ∀ part, ReflTransGen r.Contains id part → ¬ TransGen r.Contains part part) ∧
      ∀ leaves, r.Layout d.fields leaves → ∀ t ∈ leaves, r.IsElementary t) ∧
    (WellFounded (fun part whole => r.Contains whole part) ↔
      ∀ id, ¬ TransGen r.Contains id id) := by
  refine ⟨fun id d hd hsized => ⟨fun f hf => ?_, ?_, fun _ hleaves => hleaves.isElementary⟩, ?_⟩
  · have hfield := (h.keepsSize hall hd).fields hsized f hf
    obtain ⟨harguments, hnullable, harray⟩ := (hasFixedSize_iff.mp hfield).1
    exact ⟨harguments, harray, hnullable, h.elementary_or_part hall hfield⟩
  · rw [← acc_contains_iff]
    constructor
    · rintro ⟨leaves, hleaves, -⟩
      exact acc_of_forall_part hd hleaves.acc_part
    · intro hacc
      obtain ⟨leaves, hleaves⟩ := h.exists_layout hall hacc d hd hsized
      exact ⟨leaves, hleaves, fun _ hleaves' => hleaves'.unique hleaves⟩
  · constructor
    · exact fun hwf id => acc_contains_iff.mp (hwf.apply id) id .refl
    · exact fun hcycles => ⟨fun id => acc_contains_iff.mpr fun part _ => hcycles part⟩

end History

/-- A document with a parcelable of fixed size, which has fields of the given types and names. -/
def sized (name : String) (fields : List (String × String)) : Document :=
  let loc : Location := ⟨name ++ ".aidl", none⟩
  let fixedSize := Annotation.ofName loc "FixedSize" []
  let members : Members :=
    { fields := fields.map fun (type, name) => ⟨loc, .named loc type, name, none⟩ }
  ⟨[], [⟨⟨loc, "p", name, "", ⟨fixedSize.toOption.toList⟩⟩, .structured none members⟩]⟩

/-- A marker has a point and a level, and the point two numbers. All three documents are accepted in
turn, no cycle is reached, so there is just one way to lay the marker out. -/
theorem fixedSize_layout_marker :
    let point := sized "Point" [("int", "x"), ("int", "y")]
    let marker := sized "Marker" [("Point", "at"), ("Level", "level")]
    let r := (((empty.addDocument level).value.addDocument point).value.addDocument marker).value
    let after := (((r.validate 0 {}).1.validate 1 {}).1.validate 2 {}).1
    after.History Document.IsFresh [2, 1, 0] ∧ after.documents.length = 3 ∧
      ∃ d, after.decl? ⟨2, 0⟩ = some d ∧ d.IsSized ∧ after.Contains ⟨2, 0⟩ ⟨1, 0⟩ ∧
        ∃! leaves, after.Layout d.fields leaves := by
  intro point marker r after
  have h : after.History Document.IsFresh [2, 1, 0] := by
    refine .accept_of_toOption (.accept_of_toOption (.accept_of_toOption (.addDocument (.addDocument
      (.addDocument .empty ?_) ?_) ?_) 0 {} ?_) 1 {} ?_) 2 {} ?_
    all_goals decide +kernel
  have hlength : after.documents.length = 3 := by decide +kernel
  have hall : ∀ number < after.documents.length, number ∈ [2, 1, 0] := by
    rw [hlength]
    decide
  have hmarker : (after.decl? ⟨2, 0⟩).any (fun d => decide d.IsSized &&
      d.fields.any fun f => after.part? f.type == some ⟨1, 0⟩) = true := by decide +kernel
  have hedges : ∀ x ∈ after.declarations, x.2.IsSized → ∀ f ∈ x.2.fields,
      ∀ part ∈ after.part? f.type, x.1 = ⟨2, 0⟩ ∧ part = ⟨1, 0⟩ := by decide +kernel
  have hcontains : ∀ {whole part}, after.Contains whole part → whole = ⟨2, 0⟩ ∧ part = ⟨1, 0⟩ := by
    rintro whole part ⟨d, hd, hsized, f, hf, hpart⟩
    exact hedges (whole, d) (mem_declarations_iff.mpr hd) hsized f hf part hpart
  simp only [Option.any_eq_true, Bool.and_eq_true, decide_eq_true_eq, List.any_eq_true,
    beq_iff_eq] at hmarker
  obtain ⟨d, hd, hsized, f, hf, hpart⟩ := hmarker
  refine ⟨h, hlength, d, hd, hsized, ⟨d, hd, hsized, f, hf, hpart⟩, ?_⟩
  refine ((h.fixedSize_layout hall).1 _ d hd hsized).2.1.mpr fun part _ hcycle => ?_
  -- a cycle would start at the marker and end at the point
  obtain ⟨_, hfirst, -⟩ := TransGen.head'_iff.mp hcycle
  obtain ⟨_, -, hlast⟩ := TransGen.tail'_iff.mp hcycle
  exact absurd ((hcontains hfirst).1.symm.trans (hcontains hlast).2) (by decide)

/-- A parcelable of fixed size that has itself as a field is valid. -/
theorem validate_selfContaining :
    let r := (empty.addDocument (sized "P" [("int", "x"), ("P", "p")])).value
    let after := (r.validate 0 {}).1
    after.History Document.IsFresh [0] ∧ after.documents.length = 1 ∧
      after.Contains ⟨0, 0⟩ ⟨0, 0⟩ ∧ ¬ WellFounded (fun part whole => after.Contains whole part) ∧
      ∃ d, after.decl? ⟨0, 0⟩ = some d ∧ d.IsSized ∧ ∀ leaves, ¬ after.Layout d.fields leaves := by
  intro r after
  have h : after.History Document.IsFresh [0] :=
    .accept_of_toOption (.addDocument .empty (by decide +kernel)) 0 {} (by decide +kernel)
  have hself : (after.decl? ⟨0, 0⟩).any (fun d => decide d.IsSized &&
      d.fields.any fun f => after.part? f.type == some ⟨0, 0⟩) = true := by decide +kernel
  simp only [Option.any_eq_true, Bool.and_eq_true, decide_eq_true_eq, List.any_eq_true,
    beq_iff_eq] at hself
  obtain ⟨d, hd, hsized, f, hf, hpart⟩ := hself
  have hcontains : after.Contains ⟨0, 0⟩ ⟨0, 0⟩ := ⟨d, hd, hsized, f, hf, hpart⟩
  have hnot : ¬ Acc (flip after.Contains) ⟨0, 0⟩ :=
    fun hacc => acc_contains_iff.mp hacc _ .refl (.single hcontains)
  exact ⟨h, by decide +kernel, hcontains, fun hwf => hnot (hwf.apply _), d, hd, hsized,
    fun leaves hleaves => hnot (acc_of_forall_part hd hleaves.acc_part)⟩

end Registry

end InterfaceDefinition
