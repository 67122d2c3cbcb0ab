import InterfaceDefinition.Proofs.Registry.Reachable

/-!
# Names that were read

A name in a registry is as it is written, or it has the meaning that a resolver found when the
registry held no more than it holds now (`TypeName.ReadIn`). This is the strongest invariant of
names: it implies every other one (`NameInvariant.of_readIn`). It is true of all names of a
reachable registry (`Registry.Reachable.readIn`), and of the names of a type that is resolved in the
registry without being part of a document (`TypeSpec.ReadIn.resolve`).

A meaning that was read leads to a declaration of the recorded kind
(`Registry.Indexed.exists_named?`), and a builtin name never leads to a declaration, even where one
is registered under the same name (`TypeName.ReadIn.target?_eq_none`).
-/

namespace InterfaceDefinition

/-! ### Names -/

/-- A name as it is written, or with a meaning that was found among some of the type parameters and
some of what the registry holds. -/
inductive TypeName.ReadIn (r : Registry) (typeParams : List String) : TypeName → Prop
  | fresh {n : TypeName} (h : n.IsFresh) : ReadIn r typeParams n
  | found {earlier : Registry} {imports : List Import} {package written : String}
      {params : List String} {resolution : Resolution}
      (hindex : ∀ name target, earlier.indexed? name = some target →
        r.indexed? name = some target)
      (hparams : params ⊆ typeParams)
      (hfound : (earlier.resolver imports package params written).value = some resolution) :
      ReadIn r typeParams ⟨written, some resolution⟩

/-- A meaning that was read in a registry is read the same way in all that it grows into. -/
theorem nameInvariant_readIn : NameInvariant fun r typeParams n => n.ReadIn r typeParams where
  mono h hindex hparams := by
    cases h with
    | fresh h => exact .fresh h
    | found hindex' hparams' hfound =>
      exact .found (fun name target h => hindex name target (hindex' name target h))
        (List.Subset.trans hparams' hparams) hfound
  fresh h _ _ := .fresh h
  found hfound := .found (fun _ _ => id) (List.Subset.refl _) hfound

/-- Every invariant of names is true of a name that was read. -/
theorem NameInvariant.of_readIn {P : Registry → List String → TypeName → Prop}
    (hP : NameInvariant P) {r : Registry} {typeParams : List String} {n : TypeName}
    (h : n.ReadIn r typeParams) : P r typeParams n := by
  cases h with
  | fresh h => exact hP.fresh h r typeParams
  | found hindex hparams hfound => exact hP.mono (hP.found hfound) hindex hparams

/-- A name that stands for no declaration if its canonical name is builtin. -/
def TypeName.KeepsBuiltins (n : TypeName) : Prop :=
  ∀ resolution ∈ n.resolution, Vocabulary.isBuiltin resolution.canonicalName = true →
    resolution.target = none

/-- The names of builtin types keep their meanings, which no declaration can take from them. -/
theorem nameInvariant_keepsBuiltins : NameInvariant fun _ _ n => n.KeepsBuiltins where
  mono h _ _ := h
  fresh {n} h _ _ := by
    rcases h with hnone | ⟨-, hself⟩
    · simp [TypeName.KeepsBuiltins, hnone]
    · rw [hself]
      intro resolution hresolution _
      obtain rfl := Option.some.inj hresolution
      rfl
  found := by
    intro r imports package typeParams written resolution hfound _ hresolution hbuiltin
    obtain rfl := Option.some.inj hresolution
    by_cases hparam : written ∈ typeParams
    · rw [Registry.resolver, if_pos (by simpa using hparam)] at hfound
      obtain rfl := Option.some.inj hfound
      rfl
    rw [Registry.value_resolver r imports package hparam] at hfound
    obtain ⟨full, -, hfound⟩ := Option.bind_eq_some_iff.mp hfound
    rw [Registry.resolveIn] at hfound
    split at hfound
    · obtain rfl := Option.some.inj hfound
      rfl
    · next hfull =>
      -- what is looked up has no builtin name
      obtain ⟨found, hlookup, rfl⟩ := Option.map_eq_some_iff.mp hfound
      have hnot := Registry.isBuiltin_eq_false_of_lookup? hlookup (by simpa using hfull)
      simp [hnot] at hbuiltin

namespace TypeName.ReadIn

variable {r : Registry} {typeParams : List String} {n : TypeName}

/-- How a meaning was come by tells more than that it is faithful. -/
theorem faithful (h : n.ReadIn r typeParams) : n.Faithful r typeParams :=
  Registry.nameInvariant_faithful.of_readIn h

/-- A builtin name stands for itself. -/
theorem target?_eq_none (h : n.ReadIn r typeParams)
    (hbuiltin : Vocabulary.isBuiltin n.text = true) : n.target? = none := by
  have hkeeps : n.KeepsBuiltins := nameInvariant_keepsBuiltins.of_readIn h
  rw [text] at hbuiltin
  rw [target?]
  cases hresolution : n.resolution with
  | none => rfl
  | some resolution =>
    rw [hresolution] at hbuiltin
    exact hkeeps resolution hresolution hbuiltin

/-- A resolved name that stands for no declaration is builtin or a type parameter. -/
theorem isBuiltin_or_mem (h : n.ReadIn r typeParams) (hresolved : n.isResolved = true)
    (htarget : n.target? = none) : Vocabulary.isBuiltin n.text = true ∨ n.text ∈ typeParams := by
  obtain ⟨resolution, hresolution⟩ := Option.isSome_iff_exists.mp hresolved
  have hfaithful := h.faithful resolution hresolution
  have hnone : resolution.target = none := by simpa [target?, hresolution] using htarget
  have htext : n.text = resolution.canonicalName := by rw [text, hresolution]
  rw [Resolution.Faithful, hnone] at hfaithful
  rwa [htext]

end TypeName.ReadIn

/-- The declaration that a name stands for. -/
def Registry.named? (r : Registry) (n : TypeName) : Option Decl :=
  n.target?.bind fun target => r.decl? target.id

/-- What a name was read as is a declaration of its canonical name and of the recorded kind. -/
theorem Registry.Indexed.exists_named? {r : Registry} (hr : r.Indexed) {typeParams : List String}
    {n : TypeName} (h : n.ReadIn r typeParams) {target : DeclRef}
    (htarget : n.target? = some target) :
    ∃ d, r.named? n = some d ∧ d.canonicalName = n.text ∧ d.kind = target.kind := by
  obtain ⟨resolution, hresolution, hsome⟩ := Option.bind_eq_some_iff.mp htarget
  have hfaithful := h.faithful resolution hresolution
  rw [Resolution.Faithful, hsome] at hfaithful
  obtain ⟨d, hd, hname, hkind⟩ := hr.exists_decl_of_indexed? hfaithful
  refine ⟨d, ?_, ?_, hkind⟩
  · rw [named?, htarget, Option.bind_some, hd]
  · rw [hname, TypeName.text, hresolution]

/-! ### Types -/

/-- A type of which all names were read. -/
def TypeSpec.ReadIn (r : Registry) (typeParams : List String) (t : TypeSpec) : Prop :=
  ∀ n ∈ t.nodes, n.base.ReadIn r typeParams

/-- Resolution reads the names that are left. -/
theorem TypeSpec.ReadIn.resolve {r : Registry} {typeParams : List String} {t : TypeSpec}
    (h : t.ReadIn r typeParams) (imports : List Import) (package : String) (p : Progress) :
    ((t.resolve (r.resolver imports package typeParams)).run p).value.1.ReadIn r typeParams := by
  have hrun := takes_resolve (r.resolver imports package typeParams) t p
  refine Pass.Steps.forall_base hrun h fun written resolution hfound => ?_
  exact nameInvariant_readIn.found hfound

/-- The types of a reachable registry were read in it. -/
theorem Registry.Reachable.readIn {Admitted : Document → Prop} {r : Registry}
    (hr : r.Reachable Admitted) (hfresh : ∀ doc, Admitted doc → doc.IsFresh) {doc : Document}
    (hdoc : doc ∈ r.documents) {d : Decl} (hd : d ∈ doc.decls) {t : TypeSpec}
    (ht : t ∈ d.allNodes) : t.ReadIn r d.typeParams := by
  intro n hn
  exact hr.everyName hfresh nameInvariant_readIn doc hdoc d hd n (Decl.nodes_subset_allNodes ht hn)

end InterfaceDefinition
