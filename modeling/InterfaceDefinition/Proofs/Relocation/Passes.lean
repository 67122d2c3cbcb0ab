import InterfaceDefinition.Proofs.Relocation.Evaluation
import InterfaceDefinition.Proofs.Resolution.Completion

/-!
# Passes at other places

Reading a name gives the same meaning at another place. So a pass over a declaration gives the
declaration with the declarations it names at their other places, moves the progress the same way
and reports the same; both passes satisfy an equation that says so
(`Registry.SameNames.resolve_decl_eq`, `Registry.SameNames.complete_decl_eq`).

Resolution does not come to the backing type of an enum, and completion makes it anew: a backing
type that is there before, and the places in it, do not matter when completion succeeds
(`Decl.run_complete_mapBacking`).
-/

namespace InterfaceDefinition

open Pass

variable {ρ : DeclId → DeclId}

/-- A map goes through a guard. -/
theorem Pass.map_guarded {α β : Type} (g : α → β) (unchanged : α) (step : Pass α) :
    g <$> guarded unchanged step = guarded (g unchanged) (g <$> step) := by
  rw [guarded, guarded, map_bind]
  congr 1
  funext progress
  cases progress <;> simp

theorem Pass.start_map {α β : Type} (g : α → β) (pass : Pass α) :
    start (g <$> pass) = ⟨(g pass.start.value.1, pass.start.value.2), pass.start.diagnostics⟩ := by
  rw [map_eq_pure_bind, start, run_bind]
  simp only [run_pure, List.append_nil]
  rfl

/-! ### Types -/

namespace TypeSpec

section Resolvers

variable {resolver resolver' : Resolver}
  (hresolver : ∀ name, resolver' name = Option.map (·.relocate ρ) <$> resolver name)
include hresolver

/-- A name is resolved in the moved registry to the moved meaning, with the same report. -/
theorem resolveName_relocate (loc : Location) (n : TypeName) :
    resolveName resolver' loc (n.relocate ρ) =
      TypeName.relocate ρ <$> resolveName resolver loc n := by
  rw [resolveName, resolveName, TypeName.isResolved_relocate]
  split
  · simp
  · rw [map_bind, TypeName.written_relocate, hresolver, liftM_map, bind_map_left]
    congr 1
    funext resolution
    cases resolution with
    | none => simp
    | some resolution => rfl

end Resolvers

mutual

/-- A type is resolved with its declarations at their other places. -/
theorem resolve_relocate {resolver resolver' : Resolver}
    (hresolver : ∀ name, resolver' name = Option.map (·.relocate ρ) <$> resolver name) :
    (t : TypeSpec) → resolve resolver' (t.relocate ρ) = relocate ρ <$> resolve resolver t
  | ⟨loc, base, arguments, isArray, annotations, comments⟩ => by
    rw [relocate, resolve, resolve, resolveName_relocate hresolver, ← map_guarded,
      resolveAll_relocate hresolver arguments]
    simp [relocate]

theorem resolveAll_relocate {resolver resolver' : Resolver}
    (hresolver : ∀ name, resolver' name = Option.map (·.relocate ρ) <$> resolver name) :
    (ts : List TypeSpec) →
      resolveAll resolver' (relocateAll ρ ts) = relocateAll ρ <$> resolveAll resolver ts
  | [] => by simp [relocateAll, resolveAll]
  | t :: rest => by
    rw [relocateAll, resolveAll, resolveAll, resolve_relocate hresolver t,
      resolveAll_relocate hresolver rest]
    simp [relocateAll]

end

end TypeSpec

/-! ### Members -/

section Traversals

variable {m : Type → Type} [Monad m] [LawfulMonad m]

/-- Steps that agree up to a map give lists that agree up to the map. -/
theorem mapM_map_eq {α : Type} {step step' : α → m α} {g : α → α}
    (h : ∀ a, step' (g a) = g <$> step a) (as : List α) :
    (as.map g).mapM step' = List.map g <$> as.mapM step := by
  induction as with
  | nil => simp
  | cons a as ih => simp [List.mapM_cons, h, ih]

variable {f f' : TypeSpec → m TypeSpec} {g : TypeSpec → TypeSpec}

/-- A traversal of mapped members is the traversal of the members, with what it gives mapped. -/
theorem Members.mapTypesM_mapTypes (h : ∀ t, f' (g t) = g <$> f t) (ms : Members) :
    (ms.mapTypes g).mapTypesM f' = mapTypes g <$> ms.mapTypesM f := by
  have hfields :
      ((ms.fields.map (·.mapType g)).mapM fun x => do return { x with type := ← f' x.type }) =
        List.map (·.mapType g) <$> ms.fields.mapM fun x => do
          return { x with type := ← f x.type } :=
    mapM_map_eq (fun x => by simp [Field.mapType, h]) _
  have hconstants :
      ((ms.constants.map (·.mapType g)).mapM fun c => do return { c with type := ← f' c.type }) =
        List.map (·.mapType g) <$> ms.constants.mapM fun c => do
          return { c with type := ← f c.type } :=
    mapM_map_eq (fun c => by simp [Constant.mapType, h]) _
  have harguments : ∀ arguments : List Argument,
      ((arguments.map (·.mapType g)).mapM fun a => do return { a with type := ← f' a.type }) =
        List.map (·.mapType g) <$> arguments.mapM fun a => do
          return { a with type := ← f a.type } :=
    mapM_map_eq fun a => by simp [Argument.mapType, h]
  have hmethods : ((ms.methods.map (·.mapTypes g)).mapM fun method : Method => do
        let returnType ← f' method.returnType
        let arguments ← method.arguments.mapM fun a : Argument => do
          return { a with type := ← f' a.type }
        return { method with returnType, arguments }) =
      List.map (·.mapTypes g) <$> ms.methods.mapM fun method => do
        let returnType ← f method.returnType
        let arguments ← method.arguments.mapM fun a : Argument => do
          return { a with type := ← f a.type }
        return { method with returnType, arguments } := by
    refine mapM_map_eq (fun method => ?_) _
    simp only [Method.mapTypes, h, harguments, map_bind, bind_map_left, map_pure]
  simp only [mapTypesM, mapTypes, hfields, hconstants, hmethods, map_bind, bind_map_left, map_pure]

end Traversals

/-! ### Declarations -/

/-- The backing type that annotations name has no meaning, and so no place, before it is read. -/
theorem AnnotationSet.map_relocate_backing (s : AnnotationSet) (ρ : DeclId → DeclId) :
    Option.map (·.relocate ρ) <$> s.backing = s.backing := by
  have hnamed : ∀ loc name, (TypeSpec.named loc name).relocate ρ = .named loc name := fun _ _ => rfl
  rw [backing]
  cases s.get? .backing with
  | none => simp [hnamed]
  | some a =>
    simp only [map_bind]
    congr 1
    funext valid
    cases valid with
    | true => cases a.paramString? "type" <;> simp [hnamed]
    | false => simp

namespace Registry.SameNames

variable {r r' : Registry}

/-- A declaration is resolved with its declarations at their other places. -/
theorem resolve_decl_eq (h : SameNames ρ r r') (imports : List Import) (d : Decl) :
    (d.mapTypes (·.relocate ρ)).resolve r' imports =
      Decl.mapTypes (·.relocate ρ) <$> d.resolve r imports := by
  have hmembers : ∀ typeParams (ms : Members), (ms.mapTypes (·.relocate ρ)).mapTypesM
      (TypeSpec.resolve (r'.resolver imports d.header.package typeParams)) =
        Members.mapTypes (·.relocate ρ) <$>
          ms.mapTypesM (TypeSpec.resolve (r.resolver imports d.header.package typeParams)) :=
    fun typeParams => Members.mapTypesM_mapTypes <| TypeSpec.resolve_relocate <|
      h.resolver_eq imports d.header.package typeParams
  obtain ⟨header, body⟩ := d
  cases body <;> simp [Decl.resolve, Decl.mapTypes, Decl.mapTypesM, Decl.typeParams,
    Decl.typeParams?, hmembers]

/-- An enum is given its backing type with its declarations at their other places. -/
theorem complete_decl_eq (h : SameNames ρ r r') (imports : List Import) (d : Decl) :
    (d.relocate ρ).complete r' imports = Decl.relocate ρ <$> d.complete r imports := by
  obtain ⟨header, body⟩ := d
  cases body with
  | enum enumerators old members =>
    have hresolve : ∀ backing : TypeSpec,
        (backing.relocate ρ).resolve (r'.resolver imports header.package []) =
          TypeSpec.relocate ρ <$> backing.resolve (r.resolver imports header.package []) :=
      TypeSpec.resolve_relocate (h.resolver_eq imports header.package [])
    have hdecl : ∀ backing : Option TypeSpec,
        Decl.relocate ρ ⟨header, .enum enumerators backing members⟩ =
          ⟨header, .enum enumerators (backing.map (·.relocate ρ))
            (members.mapTypes (·.relocate ρ))⟩ := fun _ => rfl
    rw [hdecl]
    simp only [Decl.complete, Decl.annotations]
    -- what the annotations name has no place yet
    rw [← header.annotations.map_relocate_backing ρ, bind_map_left, map_bind,
      header.annotations.map_relocate_backing ρ]
    congr 1
    funext backing
    cases backing with
    | none => rfl
    | some backing =>
      simp only [Option.map_some, hresolve, start_map]
      rcases start (backing.resolve (r.resolver imports header.package [])) with
        ⟨⟨backing, e | _ | _⟩, ds⟩
      · rfl
      · -- the report names the backing type as it is written
        have hreport :
            header.invalidBacking (backing.relocate ρ) = header.invalidBacking backing := by
          simp [Header.invalidBacking]
        exact congrArg (fun error => (do
          Reporting.report error
          return Decl.relocate ρ ⟨header, .enum enumerators (some backing) members⟩ : Pass Decl))
          hreport
      · rfl
  | _ => rfl

end Registry.SameNames

/-- A backing type that an enum has already does not matter to a completion that succeeds. -/
theorem Decl.run_complete_mapBacking (g : TypeSpec → TypeSpec) (r : Registry)
    (imports : List Import) (d : Decl) (b : Bool) :
    let completed := (d.complete r imports).run (.ok b)
    let completed' := ((d.mapBacking g).complete r imports).run (.ok b)
    completed'.value.2 = completed.value.2 ∧ completed'.diagnostics = completed.diagnostics ∧
      (completed.value.2 = .ok true → completed'.value.1 = completed.value.1) := by
  obtain ⟨header, body⟩ := d
  cases body with
  | enum enumerators old members =>
    simp only [mapBacking, complete, annotations, run_bind]
    rcases header.annotations.backing_cases b with ⟨loc, name, ds, hbacking⟩ | ⟨ds, hbacking⟩
    · obtain ⟨backing, resolved, ds', hstart, -⟩ :=
        TypeSpec.start_resolve_named (r.resolver imports header.package []) loc name
      simp [hbacking, hstart]
    · rw [hbacking]
      exact ⟨rfl, rfl, fun h => by simp at h⟩
  | _ => exact ⟨rfl, rfl, fun _ => rfl⟩

namespace Registry.SameNames

variable {r r' : Registry} (h : SameNames ρ r r') (imports : List Import)
include h

/-- A declaration without resolved names is the same at other places before its resolution. -/
theorem start_resolve_eq {d : Decl} (hfresh : ∀ t ∈ d.nodes, t.base.isResolved = false) :
    let resolved := (d.resolve r imports).start
    (d.resolve r' imports).start =
      ⟨(resolved.value.1.mapTypes (·.relocate ρ), resolved.value.2), resolved.diagnostics⟩ := by
  have hself : d.mapTypes (·.relocate ρ) = d :=
    Decl.mapTypes_relocate_eq_self ρ fun t ht =>
      TypeName.relocate_eq_self ρ (by simpa [TypeName.isResolved] using hfresh t ht)
  have hresolve := h.resolve_decl_eq imports d
  rw [hself] at hresolve
  rw [hresolve, start_map]

/-- A declaration is completed the same when only the types of its members are at other places, and
a success leaves the backing type there too. -/
theorem start_complete_mapTypes (d : Decl) :
    let completed := (d.complete r imports).start
    let completed' := ((d.mapTypes (·.relocate ρ)).complete r' imports).start
    completed'.value.2 = completed.value.2 ∧ completed'.diagnostics = completed.diagnostics ∧
      (completed.value.2 = .ok true → completed'.value.1 = completed.value.1.relocate ρ) := by
  have hcomplete := Pass.start_map (Decl.relocate ρ) (d.complete r imports)
  rw [← h.complete_decl_eq] at hcomplete
  obtain ⟨hprogress, hreports, hvalue⟩ := Decl.run_complete_mapBacking (·.relocate ρ) r' imports
    (d.mapTypes (·.relocate ρ)) true
  rw [show (d.mapTypes _).mapBacking _ = d.relocate ρ from rfl,
    show ((d.relocate ρ).complete r' imports).run (.ok true) = _ from hcomplete]
    at hprogress hreports hvalue
  refine ⟨hprogress.symm, hreports.symm, fun hsuccess => ?_⟩
  exact (hvalue (hprogress.symm.trans hsuccess)).symm

end Registry.SameNames

end InterfaceDefinition
