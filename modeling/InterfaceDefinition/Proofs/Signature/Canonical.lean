import InterfaceDefinition.Proofs.Registry.Reachable
import InterfaceDefinition.Proofs.Signature.RoundTrip

/-!
# Canonical signatures

A resolved type prints the canonical names of its nodes, and these mean by themselves what the
written names mean in their declaration: a canonical name was found below a package or by itself,
and looking it up on its own leads to the same declaration (`Registry.resolve_canonicalName`). No
builtin type gets in the way, since a builtin name is never looked up and has no dot. So the
signature of a resolved type can be read anywhere: it gives a type of the same shape, whose names
have the same meanings, and the same signature again (`Registry.Reachable.parse_canonical`).

Type parameters are left out. They are names in one declaration only.
-/

namespace InterfaceDefinition

/-! ### Canonical names by themselves -/

namespace Registry

variable {r : Registry} {package name : String}

/-- The canonical name of what a name means has the same meaning by itself. -/
theorem resolve_canonicalName {resolution : Resolution}
    (h : r.resolveIn package name = some resolution) :
    r.resolve resolution.canonicalName = some resolution := by
  by_cases hbuiltin : Vocabulary.isBuiltin name = true
  · rw [resolveIn, if_pos hbuiltin] at h
    obtain rfl := Option.some.inj h
    rw [resolve, resolveIn, if_pos hbuiltin]
  · rw [resolveIn, if_neg hbuiltin] at h
    obtain ⟨⟨canonicalName, target⟩, hfound, rfl⟩ := Option.map_eq_some_iff.mp h
    have hindexed : r.indexed? canonicalName = some target := indexed?_of_lookup? hfound
    have hnot : Vocabulary.isBuiltin canonicalName = false :=
      isBuiltin_eq_false_of_lookup? hfound (by simpa using hbuiltin)
    rw [resolve, resolveIn, if_neg (by simp [hnot]), lookup?_empty, hindexed]
    rfl

/-- What a name means stays while the index keeps what it holds. -/
theorem resolve_mono {r' : Registry} {resolution : Resolution}
    (h : r.resolve name = some resolution)
    (hindex : ∀ name target, r.indexed? name = some target → r'.indexed? name = some target) :
    r'.resolve name = some resolution := by
  rw [resolve, resolveIn, lookup?_empty] at h ⊢
  split
  · next hbuiltin => rwa [if_pos hbuiltin] at h
  · next hbuiltin =>
    rw [if_neg hbuiltin, Option.map_map] at h
    obtain ⟨target, htarget, heq⟩ := Option.map_eq_some_iff.mp h
    rw [hindex name target htarget]
    exact congrArg some heq

end Registry

/-- A name whose meaning, unless the name is a type parameter, is that of its canonical name. -/
def TypeName.Canonical (r : Registry) (typeParams : List String) (n : TypeName) : Prop :=
  n.written ∉ typeParams → ∀ resolution ∈ n.resolution,
    r.resolve resolution.canonicalName = some resolution

/-- Recorded names are canonical: they mean the same without a scope, and go on to do so as the
index keeps its entries. -/
theorem nameInvariant_canonical :
    NameInvariant fun r typeParams n => n.Canonical r typeParams where
  mono h hindex hparams := fun hparam resolution hresolution =>
    Registry.resolve_mono (h (fun hmem => hparam (hparams hmem)) resolution hresolution) hindex
  fresh h r typeParams := by
    rcases h with hnone | ⟨hbuiltin, hself⟩
    · simp [TypeName.Canonical, hnone]
    · intro _ resolution hresolution
      rw [hself] at hresolution
      obtain rfl := Option.some.inj hresolution
      exact if_pos hbuiltin
  found := by
    intro r imports package typeParams written resolution hfound hparam _ hresolution
    obtain rfl := Option.some.inj hresolution
    rw [Registry.value_resolver r imports package hparam] at hfound
    obtain ⟨full, -, hfound⟩ := Option.bind_eq_some_iff.mp hfound
    exact Registry.resolve_canonicalName hfound

/-! ### Types that signatures write -/

namespace TypeSpec

mutual

/-- The type that the signature of a type writes: the names, the arguments and the array marks. -/
def bare (loc : Location) : TypeSpec → TypeSpec
  | ⟨_, base, arguments, isArray, _, _⟩ =>
    ⟨loc, ⟨base.text, none⟩, bareAll loc arguments, isArray, {}, ""⟩

/-- The types that several signatures write. -/
def bareAll (loc : Location) : List TypeSpec → List TypeSpec
  | [] => []
  | t :: rest => t.bare loc :: bareAll loc rest

end

variable (loc : Location)

theorem bareAll_eq_map (ts : List TypeSpec) : bareAll loc ts = ts.map (bare loc) := by
  induction ts with
  | nil => rw [bareAll]; rfl
  | cons t ts ih => rw [bareAll, ih, List.map_cons]

/-- What parsing gives back of a type: canonical names without meanings, arguments and array marks,
and neither annotations nor comments. -/
theorem bare_eq (t : TypeSpec) :
    t.bare loc = ⟨loc, ⟨t.name, none⟩, t.arguments.map (bare loc), t.isArray, {}, ""⟩ := by
  cases t
  rw [bare, bareAll_eq_map]
  rfl

mutual

theorem nodes_bare : (t : TypeSpec) → (t.bare loc).nodes = t.nodes.map (bare loc)
  | ⟨_, base, arguments, isArray, _, _⟩ => by
    rw [bare, nodes, nodes, nodesOf_bareAll arguments, List.map_cons, bare]

theorem nodesOf_bareAll : (ts : List TypeSpec) →
    nodesOf (bareAll loc ts) = (nodesOf ts).map (bare loc)
  | [] => by rw [bareAll, nodesOf, List.map_nil]
  | t :: rest => by
    rw [bareAll, nodesOf, nodesOf, nodes_bare t, nodesOf_bareAll rest, List.map_append]

end

mutual

theorem signature_bare : (t : TypeSpec) → (t.bare loc).signature = t.signature
  | ⟨_, base, arguments, isArray, _, _⟩ => by
    rw [bare, signature, signature, signatures_bareAll arguments, bareAll_eq_map, List.isEmpty_map]
    rfl

theorem signatures_bareAll : (ts : List TypeSpec) →
    signatures (bareAll loc ts) = signatures ts
  | [] => by rw [bareAll]
  | t :: rest => by
    rw [bareAll, signatures, signatures, signature_bare t, signatures_bareAll rest]

end

/-- The signature of a type is read as the type that it writes. -/
theorem parse_signature_bare {t : TypeSpec} (hdotted : t.HasDottedNames) :
    parse loc t.signature = .ok (t.bare loc) := by
  rw [← t.signature_bare loc]
  refine parse_signature ?_ ?_
  · rw [IsBare, nodes_bare, List.forall_mem_map]
    intro n _
    rw [bare_eq]
    exact ⟨rfl, rfl, rfl, rfl⟩
  · rw [HasDottedNames, nodes_bare, List.forall_mem_map]
    intro n hn
    rw [bare_eq]
    exact hdotted n hn

end TypeSpec

/-! ### Reading signatures back -/

namespace Registry

open Signature

/-- **Canonical round trip**: in a reachable registry of documents that were registered as they are
written, the signature of a type that is resolved at all depths, names no type parameter and has
dotted names can be read. What is read has the same array marks and numbers of arguments at all
nodes, every name in it means by itself what it means in the declaration, and it has the same
signature. -/
theorem Reachable.parse_canonical {r : Registry} (hr : r.Reachable Document.IsFresh) {id : DeclId}
    {d : Decl} (hd : r.decl? id = some d) {t : TypeSpec} (ht : t ∈ d.allNodes)
    (hresolved : ∀ n ∈ t.nodes, n.base.isResolved = true)
    (hparams : ∀ n ∈ t.nodes, n.base.written ∉ d.typeParams) (hdotted : t.HasDottedNames)
    (loc : Location) :
    ∃ t', TypeSpec.parse loc t.signature = .ok t' ∧
      t'.nodes.map (fun n => (n.isArray, n.arguments.length, r.resolve n.base.written)) =
        t.nodes.map (fun n => (n.isArray, n.arguments.length, n.base.resolution)) ∧
      t'.signature = t.signature := by
  refine ⟨t.bare loc, TypeSpec.parse_signature_bare loc hdotted, ?_, t.signature_bare loc⟩
  obtain ⟨doc, hdoc, hmem⟩ := exists_mem_of_decl? hd
  have hcanonical := hr.everyName (fun _ h => h) nameInvariant_canonical doc hdoc d hmem
  rw [TypeSpec.nodes_bare, List.map_map]
  refine List.map_congr_left fun n hn => ?_
  obtain ⟨resolution, hresolution⟩ := Option.isSome_iff_exists.mp (hresolved n hn)
  have hmeaning : r.resolve n.name = n.base.resolution := by
    rw [TypeSpec.name, TypeName.text, hresolution]
    exact hcanonical n (Decl.nodes_subset_allNodes ht hn) (hparams n hn) resolution hresolution
  rw [Function.comp_apply, TypeSpec.bare_eq]
  simp only [List.length_map, hmeaning]

/-- A parcelable in a package of its own. -/
def item : Document :=
  let loc : Location := ⟨"Item.aidl", none⟩
  ⟨[], [⟨⟨loc, "q", "Item", "", {}⟩, .structured none {}⟩]⟩

/-- A parcelable with a list of those, which it imports. -/
def basket : Document :=
  let loc : Location := ⟨"Basket.aidl", none⟩
  let items : TypeSpec := { TypeSpec.named loc "List" with arguments := [.named loc "Item"] }
  ⟨[⟨loc, "q.Item"⟩], [⟨⟨loc, "p", "Basket", "", {}⟩,
    .structured none { fields := [⟨loc, items, "items", none⟩] }⟩]⟩

/-- The element of the list is written as `Item`, which the import leads out of the package. The
signature reads back, and each name in it has the meaning that the name in the field has. -/
theorem parse_canonical_items :
    let loc : Location := ⟨"Basket.aidl", none⟩
    let added := ((empty.addDocument item).value.addDocument basket).value
    let r := (added.resolveDocument 1).value.1
    r.Reachable Document.IsFresh ∧
      ∃ d t, r.decl? ⟨1, 0⟩ = some d ∧ t ∈ d.allNodes ∧ t.signature = "List<q.Item>" ∧
        ∃ t', TypeSpec.parse loc "List<q.Item>" = .ok t' ∧ t'.signature = "List<q.Item>" ∧
          t'.nodes.map (fun n => r.resolve n.base.written) =
            [some ⟨"List", none⟩, some ⟨"q.Item", some ⟨⟨0, 0⟩, .structured⟩⟩] := by
  intro loc added r
  let list : TypeName := ⟨"List", some ⟨"List", none⟩⟩
  let item : TypeName := ⟨"Item", some ⟨"q.Item", some ⟨⟨0, 0⟩, .structured⟩⟩⟩
  have hr : r.Reachable Document.IsFresh :=
    .resolveDocument 1 (.addDocument (.addDocument .empty (by decide +kernel)) (by decide +kernel))
  have hdecl : (r.decl? ⟨1, 0⟩).map (fun d =>
      (d.typeParams, d.allNodes.map fun t => (t.signature, t.nodes.map (·.base)))) =
        some ([], [("List<q.Item>", [list, item]), ("q.Item", [item])]) := by decide +kernel
  obtain ⟨d, hd, hd'⟩ := Option.map_eq_some_iff.mp hdecl
  obtain ⟨hparams, hnodes⟩ := Prod.mk.inj hd'
  obtain ⟨t, rest, hall, ht, -⟩ := List.map_eq_cons_iff.mp hnodes
  obtain ⟨hsignature, hbases⟩ := Prod.mk.inj ht
  have hmem : t ∈ d.allNodes := hall ▸ List.mem_cons_self
  have hcases : ∀ n ∈ t.nodes, n.base = list ∨ n.base = item := by
    intro n hn
    have hbase : n.base ∈ t.nodes.map (·.base) := List.mem_map_of_mem hn
    simpa [hbases] using hbase
  have hlist : IsName "List".toList := .identifier (by decide)
  have hpackage : IsIdentifier ['q'] := by decide
  have hitem : IsName "q.Item".toList := .dotted hpackage (.identifier (by decide))
  have hdotted : t.HasDottedNames := by
    intro n hn
    rcases hcases n hn with hbase | hbase
    · rwa [TypeSpec.name, hbase]
    · rwa [TypeSpec.name, hbase]
  obtain ⟨t', hparse, hshape, hprinted⟩ := hr.parse_canonical hd hmem
    (fun n hn => by rcases hcases n hn with hbase | hbase <;> rw [hbase] <;> rfl)
    (fun n _ => by simp [hparams]) hdotted loc
  rw [hsignature] at hparse hprinted
  refine ⟨hr, d, t, hd, hmem, hsignature, t', hparse, hprinted, ?_⟩
  have hmeanings := congrArg (List.map (·.2.2)) hshape
  simp only [List.map_map, Function.comp_def] at hmeanings
  rw [hmeanings]
  have hresolutions := congrArg (List.map TypeName.resolution) hbases
  simpa [Function.comp_def] using hresolutions

end Registry

end InterfaceDefinition
