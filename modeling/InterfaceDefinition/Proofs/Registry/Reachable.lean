import InterfaceDefinition.Proofs.Registry.Index
import InterfaceDefinition.Validation

/-!
# Reachable registries

A registry is reachable when it comes from the empty one by registering documents, resolving and
completing them, and validating them, in any order and whether that succeeds or not. A property of
the empty registry is one of all reachable registries when registration and the runs of the two
passes keep it (`Registry.Reachable.of_kept`).

The index holds the first entries of all declarations (`Registry.Indexed`), whatever documents are
registered: entries depend on nothing that a pass changes. A property of names is true of all of
them if it is true of names as they are written, of those that get the meaning which a resolver
finds, and of those that are registered with a meaning (`NameInvariant`,
`Registry.Reachable.everyName_of_registered`): a pass only adds meanings that were just looked up,
and registration never changes what the index holds under a name that is taken. So every recorded
meaning is faithful, except those that a document brought along (`TypeName.BroughtBy`): it is
builtin, a type parameter, or what the index holds under its canonical name. Together they say that
meanings, index and declarations agree (`Registry.Reachable.consistent`).

Documents as they are written bring nothing along, and for them all meanings are faithful
(`Registry.Reachable.faithful`). The exception is needed: a document that was resolved in another
registry keeps the places of declarations there (`Registry.not_consistent_movedBasket`).
-/

namespace InterfaceDefinition

open Pass

/-! ### Documents before resolution -/

/-- A name as it is written: without a meaning, or of a builtin type that has itself as its meaning
from the start. -/
def TypeName.IsFresh (n : TypeName) : Prop :=
  n.resolution = none ∨ Vocabulary.isBuiltin n.written = true ∧ n = .builtin n.written

/-- A declaration as it is written: its names are, and an enum has no backing type yet. -/
def Decl.IsFresh (d : Decl) : Prop :=
  d.backing? = none ∧ ∀ t ∈ d.nodes, t.base.IsFresh

/-- A document as it is written. -/
def Document.IsFresh (doc : Document) : Prop :=
  ∀ d ∈ doc.decls, d.IsFresh

instance (n : TypeName) : Decidable n.IsFresh :=
  inferInstanceAs (Decidable (_ ∨ _))

instance (d : Decl) : Decidable d.IsFresh :=
  inferInstanceAs (Decidable (_ ∧ _))

instance (doc : Document) : Decidable doc.IsFresh :=
  inferInstanceAs (Decidable (∀ d ∈ doc.decls, d.IsFresh))

/-! ### Reachability -/

namespace Registry

/-- What the empty registry can become while only admitted documents are registered. -/
inductive Reachable (Admitted : Document → Prop) : Registry → Prop
  | empty : Reachable Admitted empty
  | addDocument {r : Registry} {doc : Document} (h : Reachable Admitted r) (hdoc : Admitted doc) :
      Reachable Admitted (r.addDocument doc).value
  | resolveDocument {r : Registry} (number : Nat) (h : Reachable Admitted r) :
      Reachable Admitted (r.resolveDocument number).value.1
  | completeDocument {r : Registry} (number : Nat) (h : Reachable Admitted r) :
      Reachable Admitted (r.completeDocument number).value.1
  | validate {r : Registry} (number : Nat) (options : Options) (h : Reachable Admitted r) :
      Reachable Admitted (r.validate number options).1

/-- A validation leaves the registry that its passes leave. -/
theorem validate_fst_cases (r : Registry) (number : Nat) (options : Options) :
    (r.validate number options).1 = (r.resolveDocument number).value.1 ∨
      (r.validate number options).1 =
        ((r.resolveDocument number).value.1.completeDocument number).value.1 := by
  have hafter : (r.validate number options).1 = (r.checkGenerally number).value.1 := rfl
  rw [hafter]
  rcases r.checkGenerally_cases number with ⟨-, heq⟩ | ⟨-, -, heq⟩ | ⟨-, -, heq⟩
  · exact .inl (by rw [heq])
  · exact .inr (by rw [heq])
  · exact .inr (by rw [heq])

/-- What registration and the runs of both passes keep is true of every reachable registry. The runs
may be of any progress, so what a failed or ended pass leaves is included. -/
theorem Reachable.of_kept {Admitted : Document → Prop} {I : Registry → Prop}
    (hempty : I Registry.empty)
    (hadd : ∀ {r doc}, I r → Admitted doc → I (r.addDocument doc).value)
    (hresolve : ∀ {r : Registry} {number doc decls progress ds}, I r →
      r.document? number = some doc →
      Steps (Decl.ResolveStep r doc.imports) doc.decls (.ok true) decls progress ds →
      I (r.withDecls number doc decls))
    (hcomplete : ∀ {r : Registry} {number doc decls progress ds}, I r →
      r.document? number = some doc →
      Steps (Decl.CompleteStep r doc.imports) doc.decls (.ok true) decls progress ds →
      I (r.withDecls number doc decls))
    {r : Registry} (h : r.Reachable Admitted) : I r := by
  have hresolveDocument : ∀ {r : Registry} (number : Nat), I r →
      I (r.resolveDocument number).value.1 := by
    intro r number h
    rcases r.resolveDocument_cases number with heq | ⟨_, _, _, _, hdoc, hsteps, heq⟩
    · rw [heq]
      exact h
    · rw [heq]
      exact hresolve h hdoc hsteps
  have hcompleteDocument : ∀ {r : Registry} (number : Nat), I r →
      I (r.completeDocument number).value.1 := by
    intro r number h
    rcases r.completeDocument_cases number with heq | ⟨_, _, _, _, hdoc, hsteps, heq⟩
    · rw [heq]
      exact h
    · rw [heq]
      exact hcomplete h hdoc hsteps
  induction h with
  | empty => exact hempty
  | addDocument _ hdoc ih => exact hadd ih hdoc
  | resolveDocument number _ ih => exact hresolveDocument number ih
  | completeDocument number _ ih => exact hcompleteDocument number ih
  | @validate r number options _ ih =>
    rcases r.validate_fst_cases number options with heq | heq
    · rw [heq]
      exact hresolveDocument number ih
    · rw [heq]
      exact hcompleteDocument number (hresolveDocument number ih)

end Registry

/-! ### Invariants of names -/

/-- The nodes of all types of a declaration, the backing type of an enum included. -/
def Decl.allNodes (d : Decl) : List TypeSpec :=
  d.nodes ++ d.backing?.toList.flatMap TypeSpec.nodes

/-- The types of a declaration are those in its body and, for an enum, those in its backing type. -/
theorem Decl.forall_allNodes_iff {d : Decl} {P : TypeSpec → Prop} :
    (∀ t ∈ d.allNodes, P t) ↔
      (∀ t ∈ d.nodes, P t) ∧ ∀ b ∈ d.backing?, ∀ t ∈ b.nodes, P t := by
  rw [allNodes, List.forall_mem_append, List.forall_mem_flatMap]
  simp

/-- A node of a declaration is one of a type of its members or of its backing type. -/
theorem Decl.mem_allNodes_iff {d : Decl} {n : TypeSpec} :
    n ∈ d.allNodes ↔ ∃ t, (t ∈ d.typeSpecs ∨ t ∈ d.backing?) ∧ n ∈ t.nodes := by
  have htypes : d.nodes = d.typeSpecs.flatMap TypeSpec.nodes := rfl
  rw [allNodes, htypes, ← List.flatMap_append, List.mem_flatMap]
  simp

/-- The nodes of a node of a declaration are nodes of it. -/
theorem Decl.nodes_subset_allNodes {d : Decl} {t : TypeSpec} (h : t ∈ d.allNodes) :
    t.nodes ⊆ d.allNodes := by
  have hflatMap : ∀ ts : List TypeSpec, t ∈ ts.flatMap TypeSpec.nodes →
      t.nodes ⊆ ts.flatMap TypeSpec.nodes := by
    intro ts ht
    rw [← TypeSpec.nodesOf_eq_flatMap] at ht ⊢
    exact TypeSpec.nodes_subset_of_mem_nodesOf ts ht
  rcases List.mem_append.mp h with h | h
  · exact List.subset_append_of_subset_left _ (hflatMap _ h)
  · exact List.subset_append_of_subset_right _ (hflatMap _ h)

/-- The names of a declaration as it is written are as they are written: there is no backing type
yet that could have another one. -/
theorem Decl.IsFresh.base {d : Decl} (h : d.IsFresh) : ∀ t ∈ d.allNodes, t.base.IsFresh := by
  rw [forall_allNodes_iff, h.1]
  exact ⟨h.2, by simp⟩

/-- A property of names, in declarations with some type parameters, that nothing makes false which
happens to a registry. -/
structure NameInvariant (P : Registry → List String → TypeName → Prop) : Prop where
  /-- It stays while the index keeps what it holds. -/
  mono : ∀ {r r' : Registry} {typeParams typeParams' : List String} {n : TypeName},
    P r typeParams n →
    (∀ name target, r.indexed? name = some target → r'.indexed? name = some target) →
    typeParams ⊆ typeParams' → P r' typeParams' n
  /-- It is true of names as they are written. -/
  fresh : ∀ {n : TypeName}, n.IsFresh → ∀ r typeParams, P r typeParams n
  /-- It is true of a name that has got the meaning which a resolver found. -/
  found : ∀ {r : Registry} {imports : List Import} {package : String} {typeParams : List String}
    {written : String} {resolution : Resolution},
    (r.resolver imports package typeParams written).value = some resolution →
    P r typeParams ⟨written, some resolution⟩

namespace Registry

/-- A property holds of every name of a registry, at any depth of arguments. -/
def EveryName (P : Registry → List String → TypeName → Prop) (r : Registry) : Prop :=
  ∀ doc ∈ r.documents, ∀ d ∈ doc.decls, ∀ t ∈ d.allNodes, P r d.typeParams t.base

namespace EveryName

variable {P : Registry → List String → TypeName → Prop} (hP : NameInvariant P) {r : Registry}

include hP in
/-- Registration keeps what the index holds, so only the names of the new document are to be looked
at. -/
theorem addDocument (h : r.EveryName P) {doc : Document}
    (hdoc : ∀ r : Registry, ∀ d ∈ doc.decls, ∀ t ∈ d.allNodes, P r d.typeParams t.base) :
    (r.addDocument doc).value.EveryName P := by
  have hindex : ∀ name target, r.indexed? name = some target →
      (r.addDocument doc).value.indexed? name = some target := by
    intro name target htarget
    have hold : r.index.lookup name = some target := htarget
    rw [indexed?, index_addDocument, lookup_foldl_noteEntry, hold]
    rfl
  rw [EveryName, documents_addDocument]
  rintro doc' hdoc' d hd t ht
  rcases List.mem_append.mp hdoc' with hdoc' | hdoc'
  · exact hP.mono (h doc' hdoc' d hd t ht) hindex (List.Subset.refl _)
  · obtain rfl := List.mem_singleton.mp hdoc'
    exact hdoc _ d hd t ht

variable (h : r.EveryName P) {number : Nat} {doc : Document} {decls : List Decl}
include h

/-- A document may be put back with other names that have the property. -/
theorem withDecls (hP : NameInvariant P)
    (hdecls : ∀ d ∈ decls, ∀ t ∈ d.allNodes, P r d.typeParams t.base) :
    (r.withDecls number doc decls).EveryName P := by
  intro doc' hdoc' d hd t ht
  refine hP.mono (r := r) ?_ (fun _ _ => id) (List.Subset.refl _)
  rcases List.mem_or_eq_of_mem_set hdoc' with hdoc' | rfl
  · exact h doc' hdoc' d hd t ht
  · exact hdecls d hd t ht

variable {progress : Progress} {ds : List Diagnostic} (hdoc : r.document? number = some doc)
include hP hdoc

/-- Resolution adds meanings that its resolver has just found. -/
theorem resolve
    (hsteps : Steps (Decl.ResolveStep r doc.imports) doc.decls (.ok true) decls progress ds) :
    (r.withDecls number doc decls).EveryName P := by
  refine h.withDecls hP fun d' hd' => ?_
  obtain ⟨d, hd, _, _, _, hnodes, hshell, hbacking⟩ := hsteps.exists_of_mem hd'
  have hold := h doc (List.mem_of_getElem? hdoc) d hd
  rw [Decl.forall_allNodes_iff] at hold ⊢
  rw [Decl.typeParams_of_shell hshell, hbacking]
  exact ⟨hnodes.forall_base hold.1 fun _ _ => hP.found, hold.2⟩

/-- Completion adds backing types, read where there are no type parameters. -/
theorem complete
    (hsteps : Steps (Decl.CompleteStep r doc.imports) doc.decls (.ok true) decls progress ds) :
    (r.withDecls number doc decls).EveryName P := by
  refine h.withDecls hP fun d' hd' => ?_
  obtain ⟨d, hd, _, _, _, hstep⟩ := hsteps.exists_of_mem hd'
  have hold := h doc (List.mem_of_getElem? hdoc) d hd
  rw [Decl.forall_allNodes_iff] at hold ⊢
  rw [Decl.typeParams_of_shell hstep.shell_eq, hstep.nodes_eq]
  refine ⟨hold.1, hstep.forall_base hold.2 (fun _ => hP.fresh (.inl rfl) r d.typeParams) ?_⟩
  exact fun _ _ hfound => hP.mono (hP.found hfound) (fun _ _ => id) (List.nil_subset _)

end EveryName

variable {Admitted : Document → Prop} {r : Registry} (hr : r.Reachable Admitted)
  {P : Registry → List String → TypeName → Prop}
include hr

/-- An invariant of names is true of every name of a reachable registry, if it is true of the names
in the documents that are registered. -/
theorem Reachable.everyName_of_registered (hP : NameInvariant P)
    (hregistered : ∀ doc, Admitted doc → ∀ r : Registry, ∀ d ∈ doc.decls, ∀ t ∈ d.allNodes,
      P r d.typeParams t.base) : r.EveryName P := by
  refine hr.of_kept (I := EveryName P) ?_ ?_ ?_ ?_
  · simp [EveryName, Registry.empty]
  · intro r doc h hdoc
    exact h.addDocument hP (hregistered doc hdoc)
  · intro r number doc decls progress ds h hdoc hsteps
    exact h.resolve hP hdoc hsteps
  · intro r number doc decls progress ds h hdoc hsteps
    exact h.complete hP hdoc hsteps

/-- When documents are registered as they are written, an invariant of names is true of every name
of a reachable registry. -/
theorem Reachable.everyName (hfresh : ∀ doc, Admitted doc → doc.IsFresh) (hP : NameInvariant P) :
    r.EveryName P :=
  hr.everyName_of_registered hP fun doc hdoc r d hd t ht =>
    hP.fresh ((hfresh doc hdoc d hd).base t ht) r d.typeParams

end Registry

/-! ### Faithful meanings -/

/-- A meaning that a name in a declaration with the given type parameters may have. -/
def Resolution.Faithful (r : Registry) (typeParams : List String) (resolution : Resolution) :
    Prop :=
  match resolution.target with
  | none =>
    Vocabulary.isBuiltin resolution.canonicalName = true ∨ resolution.canonicalName ∈ typeParams
  | some target => r.indexed? resolution.canonicalName = some target

/-- A name whose meaning, if it has one, is faithful. -/
def TypeName.Faithful (r : Registry) (typeParams : List String) (n : TypeName) : Prop :=
  ∀ resolution ∈ n.resolution, resolution.Faithful r typeParams

section Faithful

variable {r r' : Registry} {typeParams typeParams' : List String}

/-- A meaning stays faithful while the index keeps what it holds. -/
theorem Resolution.Faithful.mono {resolution : Resolution}
    (h : resolution.Faithful r typeParams)
    (hindex : ∀ name target, r.indexed? name = some target → r'.indexed? name = some target)
    (hparams : typeParams ⊆ typeParams') : resolution.Faithful r' typeParams' := by
  rw [Resolution.Faithful] at h ⊢
  cases htarget : resolution.target with
  | none =>
    rw [htarget] at h
    exact h.imp_right fun hmem => hparams hmem
  | some target =>
    rw [htarget] at h
    exact hindex _ _ h

/-- A meaning stays faithful while the index keeps its entries, so it need not be looked at again
when documents are added. -/
theorem TypeName.Faithful.mono {n : TypeName} (h : n.Faithful r typeParams)
    (hindex : ∀ name target, r.indexed? name = some target → r'.indexed? name = some target)
    (hparams : typeParams ⊆ typeParams') : n.Faithful r' typeParams' :=
  fun resolution hresolution => (h resolution hresolution).mono hindex hparams

/-- A name without a meaning has none that could be wrong. -/
theorem TypeName.faithful_of_unresolved (r : Registry) (typeParams : List String) {n : TypeName}
    (h : n.resolution = none) : n.Faithful r typeParams := by
  simp [TypeName.Faithful, h]

/-- A name as it is written has no meaning yet, or that of a builtin type. -/
theorem TypeName.IsFresh.faithful {n : TypeName} (h : n.IsFresh) (r : Registry)
    (typeParams : List String) : n.Faithful r typeParams := by
  rcases h with h | ⟨hbuiltin, h⟩
  · exact faithful_of_unresolved r typeParams h
  · rw [h]
    rintro resolution hresolution
    obtain rfl := Option.some.inj hresolution
    exact .inl hbuiltin

end Faithful

namespace Registry

/-! ### Reading names -/

/-- A name that is no type parameter means what the name that the imports give means in the
package. -/
theorem value_resolver (r : Registry) (imports : List Import) (package : String)
    {typeParams : List String} {name : String} (hparam : name ∉ typeParams) :
    (r.resolver imports package typeParams name).value =
      (Import.resolveName imports name).value.bind (r.resolveIn package) := by
  rw [resolver, if_neg (by simpa using hparam), Reporting.bind_def]
  cases (Import.resolveName imports name).value <;> rfl

/-- What resolution finds is in the index under the canonical name that it gives the name. -/
theorem faithful_of_resolveIn {r : Registry} {package name : String} {resolution : Resolution}
    (h : r.resolveIn package name = some resolution) (typeParams : List String) :
    resolution.Faithful r typeParams := by
  rw [resolveIn] at h
  split at h
  · next hbuiltin =>
    obtain rfl := Option.some.inj h
    exact .inl hbuiltin
  · obtain ⟨found, hfound, rfl⟩ := Option.map_eq_some_iff.mp h
    exact indexed?_of_lookup? hfound

/-- What a resolver finds is faithful. -/
theorem faithful_of_resolver {r : Registry} {imports : List Import} {package : String}
    {typeParams : List String} {name : String} {resolution : Resolution}
    (h : (r.resolver imports package typeParams name).value = some resolution) :
    resolution.Faithful r typeParams := by
  by_cases hparam : name ∈ typeParams
  · rw [resolver, if_pos (by simpa using hparam)] at h
    obtain rfl := Option.some.inj h
    exact .inr hparam
  · rw [value_resolver r imports package hparam] at h
    obtain ⟨full, -, h⟩ := Option.bind_eq_some_iff.mp h
    exact faithful_of_resolveIn h typeParams

/-! ### The index -/

/-- The index holds the first entry of every canonical name, and nothing else. -/
def Indexed (r : Registry) : Prop :=
  r.index = firstEntries r.entries

section Indexed

variable {r : Registry}

/-- A document is entered into the index declaration by declaration, first entries first. -/
theorem Indexed.addDocument (h : r.Indexed) (doc : Document) :
    (r.addDocument doc).value.Indexed := by
  rw [Indexed] at h ⊢
  rw [index_addDocument, entries, declarations_addDocument, List.map_append, firstEntries,
    List.foldl_append, h]
  rfl

/-- A pass that keeps the shells keeps the index right. -/
theorem Indexed.withDecls (h : r.Indexed) {number : Nat} {doc : Document} {decls : List Decl}
    (hdoc : r.document? number = some doc)
    (hshells : decls.map Decl.shell = doc.decls.map Decl.shell) :
    (r.withDecls number doc decls).Indexed := by
  rw [Indexed] at h ⊢
  rw [index_withDecls, entries_eq, shells_withDecls hdoc hshells, ← entries_eq, h]

/-- In a reachable registry the index holds the first declaration of every name: passes do not
change names, kinds or places. -/
theorem Reachable.indexed {Admitted : Document → Prop} (hr : r.Reachable Admitted) : r.Indexed := by
  refine hr.of_kept (I := Indexed) rfl (fun h _ => h.addDocument _) ?_ ?_
  · intro r number doc decls progress ds h hdoc hsteps
    exact h.withDecls hdoc (hsteps.map_eq fun _ _ _ _ _ hstep => hstep.2.1)
  · intro r number doc decls progress ds h hdoc hsteps
    exact h.withDecls hdoc (hsteps.map_eq fun _ _ _ _ _ hstep => hstep.shell_eq)

/-- The keys of the index are the canonical names of all declarations, each once. -/
theorem Indexed.map_fst_index (h : r.Indexed) :
    r.index.map (·.1) = firstOccurrences (r.declarations.map (·.2.canonicalName)) := by
  have hentries : r.entries.map (·.1) = r.declarations.map (·.2.canonicalName) := by
    rw [entries, List.map_map]
    rfl
  rw [h, map_fst_firstEntries, hentries]

/-- The index holds the first declaration of a name. -/
theorem Indexed.indexed?_eq (h : r.Indexed) (name : String) :
    r.indexed? name =
      (r.declarations.find? (·.2.canonicalName == name)).map fun (id, d) => ⟨id, d.kind⟩ := by
  rw [indexed?, h, lookup_firstEntries, lookup_entries]

/-- What the index holds under a name is a declaration of that name and kind. -/
theorem Indexed.exists_decl_of_indexed? (h : r.Indexed) {name : String} {target : DeclRef}
    (htarget : r.indexed? name = some target) :
    ∃ d, r.decl? target.id = some d ∧ d.canonicalName = name ∧ d.kind = target.kind := by
  rw [h.indexed?_eq] at htarget
  obtain ⟨⟨id, d⟩, hfound, rfl⟩ := Option.map_eq_some_iff.mp htarget
  refine ⟨d, mem_declarations_iff.mp (List.mem_of_find?_eq_some hfound), ?_, rfl⟩
  simpa using List.find?_some hfound

end Indexed

/-! ### Meanings -/

/-- Every recorded meaning agrees with the index. -/
def Faithful (r : Registry) : Prop :=
  ∀ doc ∈ r.documents, ∀ d ∈ doc.decls, ∀ t ∈ d.allNodes, t.base.Faithful r d.typeParams

/-- Fresh names are faithful, and what resolution finds is; growth of the index keeps both. -/
theorem nameInvariant_faithful : NameInvariant fun r typeParams n => n.Faithful r typeParams where
  mono h hindex hparams := h.mono hindex hparams
  fresh h r typeParams := h.faithful r typeParams
  found hfound := fun _ hresolution => Option.some.inj hresolution ▸ faithful_of_resolver hfound

/-- When documents are registered as they are written, all meanings are faithful. -/
theorem Reachable.faithful {Admitted : Document → Prop} {r : Registry} (hr : r.Reachable Admitted)
    (hfresh : ∀ doc, Admitted doc → doc.IsFresh) : r.Faithful :=
  hr.everyName hfresh nameInvariant_faithful

end Registry

/-! ### Meanings that documents bring along -/

/-- A name with a meaning that stood in one of the documents when it was registered: it is not as
names are written. -/
def TypeName.BroughtBy (Admitted : Document → Prop) (n : TypeName) : Prop :=
  ¬ n.IsFresh ∧ ∃ doc, Admitted doc ∧ ∃ d ∈ doc.decls, ∃ t ∈ d.allNodes, t.base = n

/-- Documents as they are written bring no meanings along. -/
theorem TypeName.not_broughtBy {Admitted : Document → Prop}
    (hfresh : ∀ doc, Admitted doc → doc.IsFresh) (n : TypeName) : ¬ n.BroughtBy Admitted := by
  rintro ⟨hn, doc, hdoc, d, hd, t, ht, rfl⟩
  exact hn ((hfresh doc hdoc d hd).base t ht)

/-- A meaning of a name in a declaration with the given type parameters agrees with the registry: it
is that of a builtin type or of a type parameter, or it is what the index holds under its canonical
name, and this is a declaration of that name and kind. -/
def Resolution.Consistent (r : Registry) (typeParams : List String) (resolution : Resolution) :
    Prop :=
  match resolution.target with
  | none =>
    Vocabulary.isBuiltin resolution.canonicalName = true ∨ resolution.canonicalName ∈ typeParams
  | some target =>
    r.indexed? resolution.canonicalName = some target ∧
      ∃ declared, r.decl? target.id = some declared ∧
        declared.canonicalName = resolution.canonicalName ∧ declared.kind = target.kind

/-- What the index holds is declared, so a faithful meaning agrees with the declarations, too. -/
theorem Resolution.consistent_of_faithful {r : Registry} {typeParams : List String}
    {resolution : Resolution} (h : resolution.Faithful r typeParams) (hindexed : r.Indexed) :
    resolution.Consistent r typeParams := by
  rw [Resolution.Faithful] at h
  rw [Resolution.Consistent]
  cases htarget : resolution.target with
  | none =>
    rw [htarget] at h
    exact h
  | some target =>
    rw [htarget] at h
    exact ⟨h, hindexed.exists_decl_of_indexed? h⟩

namespace Registry

/-- A name has been brought along, or its meaning is faithful: nothing that happens to a registry
changes that. -/
theorem nameInvariant_broughtBy_or_faithful (Admitted : Document → Prop) :
    NameInvariant fun r typeParams n => n.BroughtBy Admitted ∨ n.Faithful r typeParams where
  mono h hindex hparams := h.imp_right fun hfaithful => hfaithful.mono hindex hparams
  fresh h r typeParams := .inr (h.faithful r typeParams)
  found hfound := .inr (nameInvariant_faithful.found hfound)

/-- **Consistency**: in a reachable registry the keys of the index are the canonical names of all
declarations in the order of registration, and each leads to the first declaration of that name
with its kind. Every name that has a meaning, at any depth of arguments and in backing types too,
means a builtin type, a type parameter of its declaration, or what the index holds under its
canonical name, which is a declaration of that name and kind; unless it is a name with a meaning
that a document brought along when it was registered, which those as they are written do not. What
is admitted can be said as narrowly as one likes, up to the very documents that were registered. -/
theorem Reachable.consistent {Admitted : Document → Prop} {r : Registry}
    (hr : r.Reachable Admitted) :
    (r.index.map (·.1) = firstOccurrences (r.declarations.map (·.2.canonicalName)) ∧
      ∀ name, r.indexed? name =
        (r.declarations.find? (·.2.canonicalName == name)).map fun (id, d) => ⟨id, d.kind⟩) ∧
    (∀ id d, (id, d) ∈ r.declarations → ∀ t ∈ d.allNodes, ¬ t.base.BroughtBy Admitted →
      ∀ resolution, t.base.resolution = some resolution →
        resolution.Consistent r d.typeParams) ∧
    ((∀ doc, Admitted doc → doc.IsFresh) → ∀ n : TypeName, ¬ n.BroughtBy Admitted) := by
  have hindexed := hr.indexed
  refine ⟨⟨hindexed.map_fst_index, hindexed.indexed?_eq⟩, ?_, TypeName.not_broughtBy⟩
  intro id d hd t ht hbrought resolution hresolution
  obtain ⟨doc, hdoc, hmem⟩ := exists_mem_of_decl? (mem_declarations_iff.mp hd)
  have hname : t.base.BroughtBy Admitted ∨ t.base.Faithful r d.typeParams := by
    refine hr.everyName_of_registered (nameInvariant_broughtBy_or_faithful Admitted) ?_
      doc hdoc d hmem t ht
    intro doc hdoc r d hd t ht
    by_cases hfresh : t.base.IsFresh
    · exact .inr (hfresh.faithful r d.typeParams)
    · exact .inl ⟨hfresh, doc, hdoc, d, hd, t, ht, rfl⟩
  have hfaithful := hname.resolve_left hbrought resolution hresolution
  exact Resolution.consistent_of_faithful hfaithful hindexed

/-- A parcelable with a field of its own type, and an interface that takes its name again. -/
def takenName : Document :=
  let loc : Location := ⟨"Node.aidl", none⟩
  let header : Header := ⟨loc, "p", "Node", "", {}⟩
  ⟨[], [⟨header, .structured none { fields := [⟨loc, .named loc "Node", "next", none⟩] }⟩,
    ⟨header, .interface false {}⟩]⟩

/-- The index keeps the first declaration of the name, and after resolution the type of the field
means that one: the meaning was not brought along, so it agrees with the index and the
declarations. -/
theorem consistent_takenName :
    let r := ((empty.addDocument takenName).value.resolveDocument 0).value.1
    r.Reachable Document.IsFresh ∧ r.index.map (·.1) = ["p.Node"] ∧
      r.indexed? "p.Node" = some ⟨⟨0, 0⟩, .structured⟩ ∧
      ∃ d t, (⟨0, 0⟩, d) ∈ r.declarations ∧ t ∈ d.allNodes ∧
        ¬ t.base.BroughtBy Document.IsFresh ∧
        t.base.resolution = some ⟨"p.Node", some ⟨⟨0, 0⟩, .structured⟩⟩ ∧
        Resolution.Consistent r d.typeParams ⟨"p.Node", some ⟨⟨0, 0⟩, .structured⟩⟩ := by
  intro r
  have hr : r.Reachable Document.IsFresh :=
    .resolveDocument 0 (.addDocument .empty (by decide +kernel))
  obtain ⟨⟨hkeys, hfirst⟩, hmeanings, hfresh⟩ := hr.consistent
  have hbrought := hfresh fun _ h => h
  have hnode : ∃ x ∈ r.declarations, ∃ t ∈ x.2.allNodes, x.1 = ⟨0, 0⟩ ∧
      t.base.resolution = some ⟨"p.Node", some ⟨⟨0, 0⟩, .structured⟩⟩ := by decide +kernel
  obtain ⟨⟨id, d⟩, hd, t, ht, rfl, hresolution⟩ := hnode
  exact ⟨hr, hkeys.trans (by decide +kernel), (hfirst "p.Node").trans (by decide +kernel), d, t, hd,
    ht, hbrought t.base, hresolution, hmeanings _ d hd t ht (hbrought t.base) _ hresolution⟩

/-- A parcelable without fields. -/
def emptyItem : Document :=
  let loc : Location := ⟨"Item.aidl", none⟩
  ⟨[], [⟨⟨loc, "p", "Item", "", {}⟩, .structured none {}⟩]⟩

/-- A parcelable with a field of that one. -/
def itemBasket : Document :=
  let loc : Location := ⟨"Basket.aidl", none⟩
  ⟨[], [⟨⟨loc, "p", "Basket", "", {}⟩,
    .structured none { fields := [⟨loc, .named loc "Item", "item", none⟩] }⟩]⟩

/-- The basket as it is after its resolution in a registry that has the item first. -/
def movedBasket : Document :=
  let r := ((empty.addDocument emptyItem).value.addDocument itemBasket).value
  ((r.resolveDocument 1).value.1.document? 1).getD {}

/-- A document that is registered with the meanings it got in another registry keeps them. The
basket still means the item by the first place of the registry, but here it is itself what stands
there, and the index has no item. -/
theorem not_consistent_movedBasket :
    let r := (empty.addDocument movedBasket).value
    r.Reachable (fun _ => True) ∧
      (∃ x ∈ r.declarations, ∃ t ∈ x.2.allNodes,
        t.base.resolution = some ⟨"p.Item", some ⟨⟨0, 0⟩, .structured⟩⟩ ∧
        ¬ Resolution.Consistent r x.2.typeParams ⟨"p.Item", some ⟨⟨0, 0⟩, .structured⟩⟩) ∧
      r.indexed? "p.Item" = none ∧
      (r.decl? ⟨0, 0⟩).map Decl.canonicalName = some "p.Basket" := by
  intro r
  have hindexed : r.indexed? "p.Item" = none := by decide +kernel
  have hname : ∃ x ∈ r.declarations, ∃ t ∈ x.2.allNodes,
      t.base.resolution = some ⟨"p.Item", some ⟨⟨0, 0⟩, .structured⟩⟩ := by decide +kernel
  obtain ⟨x, hx, t, ht, hresolution⟩ := hname
  refine ⟨.addDocument .empty trivial, ⟨x, hx, t, ht, hresolution, ?_⟩, hindexed, by decide +kernel⟩
  rintro ⟨hheld, -⟩
  rw [hindexed] at hheld
  cases hheld

end Registry

end InterfaceDefinition
