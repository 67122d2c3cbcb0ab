import InterfaceDefinition.Proofs.Registry.Readings
import InterfaceDefinition.Proofs.Resolution.Ambiguity
import InterfaceDefinition.Proofs.Resolution.Documents

/-!
# Imported names

A simple name for which the imports of a document provide one class is read as the full name of that
class, and the full name is then read like any other name in the package: as a builtin type, below
the package, and by itself. So an import decides what the name means exactly where its class is not
shadowed there, by a builtin type of the same name or by a type that is registered under the full
name below the package of the declaration (`Registry.resolve_imported`). A package that is nested in
another one with the same segments behind it shadows classes in this way
(`Registry.resolve_imported_shadowed`).
-/

namespace InterfaceDefinition

namespace Import

/-- A simple name for which the imports provide one class stands for that class. -/
theorem resolveName_of_agree {imports : List Import} {name cls : String}
    (hsome : ∃ i ∈ imports, i.simpleName = name)
    (hagree : ∀ i ∈ imports, i.simpleName = name → i.neededClass = cls) :
    resolveName imports name = pure (some cls) := by
  have hfirst : Dotted.firstSegment name = name := by
    obtain ⟨i, -, rfl⟩ := hsome
    exact Dotted.firstSegment_eq_self (Dotted.dot_notMem_lastSegment i.neededClass)
  refine resolveName_of_provides ?_ ?_
  · rintro ⟨i, hi, j, hj, hi', hj', hne⟩
    rw [hfirst] at hi' hj'
    exact hne ((hagree i hi hi').trans (hagree j hj hj').symm)
  · obtain ⟨i, hi, hname⟩ := hsome
    exact ⟨i, hi, hname.trans hfirst.symm, hagree i hi hname⟩

end Import

namespace Registry

variable {r : Registry} {package name cls : String} {target : DeclRef}

/-! ### Full names in a package -/

/-- A full name that is not taken for another one in a package: neither is it builtin, nor is a type
registered under it below the package. -/
def Unshadowed (r : Registry) (package cls : String) : Prop :=
  Vocabulary.isBuiltin cls = false ∧
    (package = "" ∨ r.indexed? (package ++ "." ++ cls) = none)

instance (r : Registry) (package cls : String) : Decidable (r.Unshadowed package cls) :=
  inferInstanceAs (Decidable (_ ∧ _))

/-- A registered name is found as itself unless there is another one below the package. -/
theorem lookup?_eq_self_iff (h : r.indexed? name = some target) :
    r.lookup? package name = some (name, target) ↔
      package = "" ∨ r.indexed? (package ++ "." ++ name) = none := by
  by_cases hpackage : package = ""
  · simp [hpackage, lookup?_empty, h]
  rw [lookup?_of_package r hpackage, lookup?_empty, h]
  cases r.indexed? (package ++ "." ++ name) with
  | none => simp
  | some other => simp [hpackage]

/-- A registered name stands for itself in a package exactly when it is not shadowed there. -/
theorem resolveIn_eq_self_iff (h : r.indexed? cls = some target) :
    r.resolveIn package cls = some ⟨cls, some target⟩ ↔ r.Unshadowed package cls := by
  rw [Unshadowed, ← lookup?_eq_self_iff h, resolveIn]
  cases Vocabulary.isBuiltin cls with
  | true => simp
  | false =>
    simp only [Bool.false_eq_true, if_false, true_and, Option.map_eq_some_iff]
    constructor
    · rintro ⟨found, hfound, heq⟩
      obtain ⟨hname, htarget⟩ := Resolution.mk.inj heq
      rw [hfound, ← hname, ← Option.some.inj htarget]
    · exact fun hfound => ⟨_, hfound, rfl⟩

/-! ### Imports -/

/-- An imported name is read as its class exactly where that is not shadowed. -/
theorem resolver_imported_iff {imports : List Import} (hsome : ∃ i ∈ imports, i.simpleName = name)
    (hagree : ∀ i ∈ imports, i.simpleName = name → i.neededClass = cls)
    (hindexed : r.indexed? cls = some target) {typeParams : List String}
    (hparam : name ∉ typeParams) :
    (r.resolver imports package typeParams name).value = some ⟨cls, some target⟩ ↔
      r.Unshadowed package cls := by
  rw [value_resolver r imports package hparam, Import.resolveName_of_agree hsome hagree]
  exact resolveIn_eq_self_iff hindexed

/-- **Imports decide unless shadowed**: let the imports of a document provide one class for a name,
and let the class be registered. Wherever the name is no type parameter, it is read as exactly that
type if and only if the class is not shadowed in the package. So when the document is resolved
without an internal error, every type written with this name in it, at any depth of arguments, has
that meaning exactly where the class is not shadowed, whatever else is registered; and likewise the
backing types when the document is completed. -/
theorem resolve_imported {number : Nat} {doc : Document} (hdoc : r.document? number = some doc)
    (hsome : ∃ i ∈ doc.imports, i.simpleName = name)
    (hagree : ∀ i ∈ doc.imports, i.simpleName = name → i.neededClass = cls)
    (hindexed : r.indexed? cls = some target) :
    let meaning : Resolution := ⟨cls, some target⟩
    let resolved := (r.resolveDocument number).value
    let completed := (r.completeDocument number).value
    (∀ package typeParams, name ∉ typeParams →
      ((r.resolver doc.imports package typeParams name).value = some meaning ↔
        r.Unshadowed package cls)) ∧
    (∀ b, resolved.2 = .ok b → ∃ after, resolved.1.document? number = some after ∧
      ∀ d ∈ after.decls, name ∉ d.typeParams → ∀ t ∈ d.nodes, t.base.written = name →
        (t.base.resolution = some meaning ↔ r.Unshadowed d.header.package cls)) ∧
    (completed.2 = .ok true → ∃ after, completed.1.document? number = some after ∧
      ∀ d ∈ after.decls, ∀ backing ∈ d.backing?, ∀ t ∈ backing.nodes, t.base.written = name →
        (t.base.resolution = some meaning ↔ r.Unshadowed d.header.package cls)) := by
  intro meaning resolved completed
  refine ⟨fun package typeParams hparam => ?_, fun b hok => ?_, fun hok => ?_⟩
  · exact resolver_imported_iff hsome hagree hindexed hparam
  · obtain ⟨after, hafter, hnames⟩ := resolution_of_resolveDocument hdoc hok
    refine ⟨after, hafter, fun d hd hparam t ht hwritten => ?_⟩
    rw [hnames d hd t ht, hwritten]
    exact resolver_imported_iff hsome hagree hindexed hparam
  · obtain ⟨after, hafter, hnames⟩ := resolution_of_completeDocument hdoc hok
    refine ⟨after, hafter, fun d hd backing hbacking t ht hwritten => ?_⟩
    rw [hnames d hd backing hbacking t ht, hwritten]
    exact resolver_imported_iff hsome hagree hindexed List.not_mem_nil

/-- A parcelable of the same name in some package. -/
def itemIn (package : String) : Document :=
  let loc : Location := ⟨"Item.aidl", none⟩
  ⟨[], [⟨⟨loc, package, "Item", "", {}⟩, .structured none {}⟩]⟩

/-- A parcelable with a field of an imported type. -/
def importing : Document :=
  let loc : Location := ⟨"Basket.aidl", none⟩
  ⟨[⟨loc, "q.Item"⟩], [⟨⟨loc, "p", "Basket", "", {}⟩,
    .structured none { fields := [⟨loc, .named loc "Item", "item", none⟩] }⟩]⟩

/-- The import decides, also where the package has a type of the same simple name. -/
theorem resolve_imported_item :
    let neighbours := ((empty.addDocument (itemIn "p")).value.addDocument (itemIn "q")).value
    let r := (neighbours.addDocument importing).value
    ∃ after, (r.resolveDocument 2).value.1.document? 2 = some after ∧
      ∃ d ∈ after.decls, ∃ t ∈ d.nodes, t.base.written = "Item" ∧
        t.base.resolution = some ⟨"q.Item", some ⟨⟨1, 0⟩, .structured⟩⟩ := by
  intro neighbours r
  have hdoc : r.document? 2 = some importing := rfl
  have hsome : ∃ i ∈ importing.imports, i.simpleName = "Item" :=
    ⟨_, List.mem_singleton_self _, by decide +kernel⟩
  have hagree : ∀ i ∈ importing.imports, i.simpleName = "Item" → i.neededClass = "q.Item" := by
    decide +kernel
  have hindexed : r.indexed? "q.Item" = some ⟨⟨1, 0⟩, .structured⟩ := by decide +kernel
  have hok : (r.resolveDocument 2).value.2 = .ok true :=
    toOption_eq_some_iff.mp (by decide +kernel)
  have hnames : ((r.resolveDocument 2).value.1.document? 2).map (fun doc =>
      doc.decls.map fun d => (d.header.package, d.typeParams, d.nodes.map (·.base.written))) =
        some [("p", [], ["Item"])] := by decide +kernel
  obtain ⟨after, hafter, hmeanings⟩ :=
    (resolve_imported hdoc hsome hagree hindexed).2.1 true hok
  rw [hafter, Option.map_some, Option.some.injEq] at hnames
  obtain ⟨d, rest, hdecls, hd, -⟩ := List.map_eq_cons_iff.mp hnames
  simp only [Prod.mk.injEq] at hd
  obtain ⟨hpackage, hparams, hwritten⟩ := hd
  obtain ⟨t, rest', hnodes, ht, -⟩ := List.map_eq_cons_iff.mp hwritten
  have hmem : d ∈ after.decls := hdecls ▸ List.mem_cons_self
  have hnode : t ∈ d.nodes := hnodes ▸ List.mem_cons_self
  have hunshadowed : r.Unshadowed d.header.package "q.Item" := by
    rw [hpackage]
    decide +kernel
  exact ⟨after, hafter, d, hmem, t, hnode, ht,
    (hmeanings d hmem (by simp [hparams]) t hnode ht).mpr hunshadowed⟩

/-- A type of the full name below the package takes the place of the imported one. -/
theorem resolve_imported_shadowed :
    let neighbours := ((empty.addDocument (itemIn "q")).value.addDocument (itemIn "p.q")).value
    let r := (neighbours.addDocument importing).value
    let resolved := (r.resolveDocument 2).value
    r.Reachable Document.IsFresh ∧ r.indexed? "q.Item" = some ⟨⟨0, 0⟩, .structured⟩ ∧
      resolved.2.toOption = some true ∧
      (resolved.1.document? 2).map (fun doc => doc.nodes.map (·.base)) =
        some [⟨"Item", some ⟨"p.q.Item", some ⟨⟨1, 0⟩, .structured⟩⟩⟩] := by
  intro neighbours r resolved
  have hr : r.Reachable Document.IsFresh :=
    .addDocument (.addDocument (.addDocument .empty (by decide +kernel)) (by decide +kernel))
      (by decide +kernel)
  exact ⟨hr, by decide +kernel, by decide +kernel, by decide +kernel⟩

end Registry

end InterfaceDefinition
