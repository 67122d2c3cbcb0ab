import InterfaceDefinition.Proofs.Independence.Passes
import InterfaceDefinition.Proofs.Verdict.Passes

/-!
# What resolution reports

A document that is resolved for the first time is resolved to its end, and what is reported is known
from the nodes that are left: each one without a meaning is reported under `E0101` where it stands,
behind an error under `E0501` about the imports if it is these that give its name no single class,
and no other node is (`Registry.resolveDocument_complaints`). Resolution succeeds exactly when no
node is left. The reports are written out field by field (`TypeSpec.complaints`,
`Import.complaints`), without the functions that make them in the pass.

Imports are in conflict about a name exactly when they disagree about its first segment
(`Import.isSome_conflict?_iff`), in whatever order they stand; which two of them are named depends
on the order (`Import.Conflict`).
-/

namespace InterfaceDefinition

open Pass

/-! ### Imports in conflict -/

namespace Import

variable {imports : List Import} {name : String}

/-- Two imports give different classes to the first segment of a name. -/
def Disagree (imports : List Import) (name : String) : Prop :=
  ∃ i ∈ imports, ∃ j ∈ imports, i.simpleName = Dotted.firstSegment name ∧
    j.simpleName = Dotted.firstSegment name ∧ i.neededClass ≠ j.neededClass

/-- Two imports are in conflict about a name: they stand in this order, both provide the first
segment of the name, and they give it different classes. -/
structure Conflict (imports : List Import) (name : String) (earlier later : Import) : Prop where
  sublist : [earlier, later].Sublist imports
  simpleName_earlier : earlier.simpleName = Dotted.firstSegment name
  simpleName_later : later.simpleName = Dotted.firstSegment name
  neededClass_ne : earlier.neededClass ≠ later.neededClass

/-- The first import for a name that gives another class than the one for it before, with that
one. -/
def conflict? (imports : List Import) (name : String) : Option (Import × Import) :=
  match providing imports name with
  | [] => none
  | first :: rest => firstConflict? first rest

/-- No import is in conflict with the one before it when all of them need the class of the first. -/
theorem firstConflict?_eq_none_iff {first : Import} {rest : List Import} :
    firstConflict? first rest = none ↔ ∀ i ∈ rest, i.neededClass = first.neededClass := by
  induction rest generalizing first with
  | nil => simp [firstConflict?]
  | cons next rest ih =>
    rw [firstConflict?, List.forall_mem_cons]
    split
    · next h => rw [ih, h, and_iff_right rfl]
    · next h => exact iff_of_false nofun fun hall => h hall.1.symm

/-- So the imports that provide a name are not in conflict when all of them need one class. -/
theorem conflict?_eq_none_iff :
    conflict? imports name = none ↔ ∀ i ∈ providing imports name, ∀ j ∈ providing imports name,
      i.neededClass = j.neededClass := by
  rw [conflict?]
  cases providing imports name with
  | nil => simp
  | cons first rest =>
    dsimp only
    rw [firstConflict?_eq_none_iff]
    -- only neighbours are compared, so agreement goes through the first of all
    constructor
    · intro h
      have hfirst : ∀ i ∈ first :: rest, i.neededClass = first.neededClass :=
        List.forall_mem_cons.mpr ⟨rfl, h⟩
      exact fun i hi j hj => (hfirst i hi).trans (hfirst j hj).symm
    · exact fun h i hi => h i (List.mem_cons_of_mem _ hi) first List.mem_cons_self

/-- There is a conflict about a name exactly when imports disagree about it. -/
theorem isSome_conflict?_iff :
    (conflict? imports name).isSome = true ↔ Disagree imports name := by
  rw [Option.isSome_iff_ne_none, ne_eq, conflict?_eq_none_iff, Disagree]
  simp only [providing, List.mem_filter, beq_iff_eq]
  push Not
  constructor
  · rintro ⟨i, ⟨hi, hname⟩, j, ⟨hj, hname'⟩, hne⟩
    exact ⟨i, hi, j, hj, hname, hname', hne⟩
  · rintro ⟨i, hi, j, hj, hname, hname', hne⟩
    exact ⟨i, ⟨hi, hname⟩, j, ⟨hj, hname'⟩, hne⟩

/-- Where neighbours are compared, a conflict is between two imports in their order. -/
theorem firstConflict?_eq_some {first earlier later : Import} {rest : List Import}
    (h : firstConflict? first rest = some (earlier, later)) :
    [earlier, later].Sublist (first :: rest) ∧ earlier.neededClass ≠ later.neededClass := by
  induction rest generalizing first with
  | nil => cases h
  | cons next rest ih =>
    rw [firstConflict?] at h
    split at h
    · obtain ⟨hsub, hne⟩ := ih h
      exact ⟨hsub.cons first, hne⟩
    · next hne =>
      obtain ⟨rfl, rfl⟩ := Prod.mk.inj (Option.some.inj h)
      exact ⟨((List.nil_sublist rest).cons_cons _).cons_cons _, hne⟩

/-- What is found is a conflict. -/
theorem conflict_of_conflict?_eq_some {earlier later : Import}
    (h : conflict? imports name = some (earlier, later)) : Conflict imports name earlier later := by
  rw [conflict?] at h
  split at h
  · cases h
  · next first rest hlist =>
    obtain ⟨hsub, hne⟩ := firstConflict?_eq_some h
    rw [← hlist] at hsub
    have hname : ∀ i ∈ [earlier, later], i.simpleName = Dotted.firstSegment name :=
      fun i hi => by simpa using (List.mem_filter.mp (hsub.subset hi)).2
    exact ⟨hsub.trans List.filter_sublist, hname _ List.mem_cons_self,
      hname _ (List.mem_cons_of_mem _ List.mem_cons_self), hne⟩

/-- What is reported of a name about which imports are in conflict: one error at the later of two
that are, which names the classes of both. -/
def complaints (imports : List Import) (name : String) : List Diagnostic :=
  (conflict? imports name).toList.map fun (earlier, later) =>
    { location := later.location, severity := .error, code := some "E0501", advisory := none,
      message := "Ambiguous type: " ++ earlier.neededClass ++ " vs. " ++ later.neededClass }

/-- Reading a name reports a conflict, and then gives nothing. -/
theorem resolveName_eq (imports : List Import) (name : String) :
    (resolveName imports name).diagnostics = complaints imports name ∧
      ((resolveName imports name).value.isSome → complaints imports name = []) := by
  rw [resolveName, complaints, conflict?]
  cases providing imports name with
  | nil => simp
  | cons first rest =>
    dsimp only
    cases firstConflict? first rest with
    | none => simp
    | some pair => exact ⟨rfl, fun h => absurd h Bool.false_ne_true⟩

end Import

/-- A name with a meaning is read without a report, any other with one about the imports if these
are in conflict. -/
theorem Registry.diagnostics_resolver (r : Registry) (imports : List Import) (package : String)
    (typeParams : List String) (name : String) :
    (r.resolver imports package typeParams name).diagnostics =
      if (r.resolver imports package typeParams name).value.isSome then []
      else Import.complaints imports name := by
  rw [resolver]
  split
  · simp
  · obtain ⟨hreports, hsilent⟩ := Import.resolveName_eq imports name
    rw [Reporting.bind_def]
    cases hfull : (Import.resolveName imports name).value with
    | none => simp [hreports]
    | some full =>
      have hnone : Import.complaints imports name = [] := hsilent (by simp [hfull])
      simp [hreports, hnone]

/-! ### Complaints -/

/-- What is reported of a node that is left without a meaning: a conflict of imports about its name
if there is one, and then the name, at the place of the node. -/
def TypeSpec.complaints (imports : List Import) (t : TypeSpec) : List Diagnostic :=
  if t.base.isResolved then []
  else
    Import.complaints imports t.base.written ++
      [{ location := t.location, severity := .error, code := some "E0101", advisory := none,
         message := "Failed to resolve '" ++ t.base.written ++ "'" }]

/-- Nodes that all have meanings draw no complaints. -/
theorem Document.flatMap_complaints_eq_nil {doc : Document} (imports : List Import)
    (hresolved : ∀ t ∈ doc.nodes, t.base.isResolved = true) :
    doc.nodes.flatMap (TypeSpec.complaints imports) = [] :=
  List.flatMap_eq_nil_iff.mpr fun t ht => if_pos (hresolved t ht)

namespace TypeSpec

/-- What resolution does at a node, which stays where it is. -/
def PlacedStep (resolver : Resolver) : StepRel TypeSpec :=
  fun t p t' p' ds => ResolveStep resolver t p t' p' ds ∧ t'.location = t.location

/-- A name is resolved once and for good: what is reported for it is settled by the resolver, and by
whether the name has a meaning then. -/
theorem takesNames_placedStep (resolver : Resolver) : TakesNames resolver (PlacedStep resolver) :=
  fun _ _ p hlocation hbase => ⟨resolveStep_guarded resolver p hbase, hlocation⟩

/-- At a node that is reached while the pass goes on, nothing is reported but complaints about the
node that is left. -/
theorem PlacedStep.reports {resolver : Resolver} {imports : List Import} {t t' : TypeSpec}
    {p p' : Progress} {ds : List Diagnostic} (h : PlacedStep resolver t p t' p' ds)
    (hresolver : ∀ name, (resolver name).diagnostics =
      if (resolver name).value.isSome then [] else Import.complaints imports name)
    (hp' : ∃ b, p' = .ok b) : (∃ b, p = .ok b) ∧ ds = t'.complaints imports := by
  obtain ⟨hstep, hlocation⟩ := h
  obtain ⟨b, rfl⟩ := hp'
  refine ⟨(hstep.resolution_of_ok rfl).1, ?_⟩
  rw [complaints]
  cases hstep with
  | found _ _ hfound hbase =>
    rw [if_pos (by rw [hbase]; rfl), hresolver, hfound]
    rfl
  | missing _ hnone hmissing hbase =>
    rw [if_neg (by simp [hbase, TypeName.isResolved, hnone]), hresolver, hmissing, hbase,
      hlocation]
    rfl

end TypeSpec

/-- A declaration that is resolved to its end draws the complaints about its nodes. -/
def Decl.ComplainingStep (r : Registry) (imports : List Import) : StepRel Decl :=
  fun d p d' p' ds =>
    Through nodes
        (TypeSpec.PlacedStep (r.resolver imports d.header.package d.typeParams)) d p d' p' ds ∧
      d'.shell = d.shell ∧ d'.backing? = d.backing?

namespace Decl.ComplainingStep

variable {r : Registry} {imports : List Import} {d d' : Decl} {p p' : Progress}
  {ds : List Diagnostic}

/-- Resolution of a declaration does with each name in it what it does with the name by itself. -/
theorem takes_resolve (r : Registry) (imports : List Import) (d : Decl) :
    Takes (ComplainingStep r imports) d (guarded d (d.resolve r imports)) :=
  Takes.guarded
    (d.takes_mapTypesM (TypeSpec.takes_resolve_of_names (TypeSpec.takesNames_placedStep _)))
    fun e => ⟨Steps.ended fun _ _ => ⟨.ended e rfl, rfl⟩, rfl, rfl⟩

/-- While no name ends the pass, the reports of a declaration are those of its names, in the order
of the names. -/
theorem reports (h : ComplainingStep r imports d p d' p' ds) (hp' : ∃ b, p' = .ok b) :
    (∃ b, p = .ok b) ∧ ds = d'.nodes.flatMap (TypeSpec.complaints imports) :=
  h.1.reports_eq (G := fun p => ∃ b, p = .ok b)
    (fun _ _ _ _ _ hstep => hstep.reports (r.diagnostics_resolver imports _ _)) hp'

end Decl.ComplainingStep

/-! ### Documents -/

namespace Registry

variable {r : Registry} {number : Nat} {doc : Document}

/-- A name that is written like a type parameter means that parameter. -/
theorem isSome_resolver_of_mem {typeParams : List String} {name : String}
    (h : name ∈ typeParams) (imports : List Import) (package : String) :
    (r.resolver imports package typeParams name).value.isSome := by
  rw [resolver, if_pos (by simpa using h)]
  rfl

/-- A resolution that is not ended reports complaints about the nodes it leaves. -/
theorem diagnostics_resolveDocument (hdoc : r.document? number = some doc) {b : Bool}
    (hok : (r.resolveDocument number).value.2 = .ok b) :
    ∃ after, (r.resolveDocument number).value.1.document? number = some after ∧
      (r.resolveDocument number).diagnostics =
        after.nodes.flatMap (TypeSpec.complaints doc.imports) := by
  obtain ⟨decls, progress, ds, hrun, hsteps⟩ := runPass_spec
    (R := fun imports => Decl.ComplainingStep r imports)
    (fun imports d => Decl.ComplainingStep.takes_resolve r imports d) hdoc
  rw [resolveDocument, hrun] at hok ⊢
  have hreports := hsteps.reports_eq (G := fun p => ∃ b, p = .ok b)
    (fun _ _ _ _ _ hstep => hstep.reports) ⟨b, hok⟩
  refine ⟨_, document?_withDecls hdoc decls, ?_⟩
  rw [Document.nodes, List.flatMap_assoc]
  exact hreports.2

/-- A document of whose nodes none is resolved is resolved to its end. -/
theorem resolveDocument_ok (hdoc : r.document? number = some doc)
    (hunresolved : ∀ t ∈ doc.nodes, t.base.isResolved = false) :
    ∃ passed, (r.resolveDocument number).value.2 = .ok passed := by
  obtain ⟨decls, progress, ds, hrun, hsteps⟩ := r.resolveDocument_spec hdoc
  have hprogress := hsteps.anyResolveSteps.progress_of_ok rfl
  have hnone : (doc.decls.flatMap Decl.nodes).find? (·.base.isResolved) = none :=
    List.find?_eq_none.mpr fun t ht => by simp [hunresolved t ht]
  rw [hnone] at hprogress
  rw [hrun]
  exact hprogress

/-- A resolution that succeeds leaves no node without a meaning. -/
theorem resolved_of_passed (hdoc : r.document? number = some doc)
    (hok : (r.resolveDocument number).value.2 = .ok true) {after : Document}
    (hafter : (r.resolveDocument number).value.1.document? number = some after) :
    ∀ t ∈ after.nodes, t.base.isResolved = true := by
  obtain ⟨decls, progress, ds, hrun, hsteps⟩ := r.resolveDocument_spec hdoc
  rw [hrun] at hok hafter
  rw [document?_withDecls hdoc] at hafter
  obtain rfl := Option.some.inj hafter
  exact (hsteps.anyResolveSteps.resolved_of_ok_true hok).2

/-- A resolution that succeeds reports nothing. -/
theorem resolveDocument_silent (hok : (r.resolveDocument number).value.2 = .ok true) :
    (r.resolveDocument number).diagnostics = [] := by
  cases hdoc : r.document? number with
  | none =>
    rw [resolveDocument, runPass_of_none hdoc] at hok
    cases hok
  | some doc =>
    obtain ⟨after, hafter, hreports⟩ := diagnostics_resolveDocument hdoc hok
    rw [hreports]
    exact Document.flatMap_complaints_eq_nil _ (resolved_of_passed hdoc hok hafter)

/-- A resolution that is not ended succeeds when no node is left without a meaning: a failure would
have been reported. -/
theorem passed_of_resolved {after : Document} {passed : Bool}
    (hok : (r.resolveDocument number).value.2 = .ok passed)
    (hreports : (r.resolveDocument number).diagnostics =
      after.nodes.flatMap (TypeSpec.complaints doc.imports))
    (hresolved : ∀ t ∈ after.nodes, t.base.isResolved = true) : passed = true := by
  cases passed with
  | true => rfl
  | false =>
    have hsilent : (r.resolveDocument number).diagnostics = [] :=
      hreports.trans (Document.flatMap_complaints_eq_nil _ hresolved)
    rcases (r.vocal_resolveDocument number).exists_error hok with hfailed | ⟨d, hd, -⟩
    · cases hfailed
    · rw [hsilent] at hd
      cases hd

/-- **Resolution is exhaustive.** A document of whose nodes none is resolved is resolved to its end.
Nothing but meanings is recorded in it. Resolution succeeds exactly when every node has one
afterwards, as the nodes have that are written like a type parameter, and what is reported are the
complaints about all others in order, each about the name at the place of the node and, in front of
that, about two imports in conflict when the imports disagree. -/
theorem resolveDocument_complaints (hdoc : r.document? number = some doc)
    (hunresolved : ∀ t ∈ doc.nodes, t.base.isResolved = false) :
    ∃ passed after, (r.resolveDocument number).value.2 = .ok passed ∧
      (r.resolveDocument number).value.1.document? number = some after ∧
      (after.imports = doc.imports ∧ after.decls.map (Decl.mapTypes TypeSpec.unresolved) =
        doc.decls.map (Decl.mapTypes TypeSpec.unresolved)) ∧
      (passed = true ↔ ∀ t ∈ after.nodes, t.base.isResolved = true) ∧
      (∀ d ∈ after.decls, ∀ t ∈ d.nodes, t.base.written ∈ d.typeParams →
        t.base.isResolved = true) ∧
      (r.resolveDocument number).diagnostics =
        after.nodes.flatMap (TypeSpec.complaints doc.imports) ∧
      ∀ name,
        ((Import.conflict? doc.imports name).isSome = true ↔ Import.Disagree doc.imports name) ∧
        ∀ earlier later, Import.conflict? doc.imports name = some (earlier, later) →
          Import.Conflict doc.imports name earlier later := by
  obtain ⟨passed, hpassed⟩ := resolveDocument_ok hdoc hunresolved
  obtain ⟨after, hafter, hreports⟩ := diagnostics_resolveDocument hdoc hpassed
  have hkept := DocumentPass.resolution.map_view_run
    (DocumentPass.resolution.takes_step_outline r) number
  rw [DocumentPass.run, hafter, hdoc, Option.map_some, Option.map_some, Option.some.injEq] at hkept
  obtain ⟨himports, hdecls⟩ := Prod.mk.inj hkept
  refine ⟨passed, after, hpassed, hafter, ⟨himports, hdecls⟩, ⟨?_, ?_⟩, ?_, hreports, fun name =>
    ⟨Import.isSome_conflict?_iff, fun _ _ => Import.conflict_of_conflict?_eq_some⟩⟩
  · rintro rfl
    exact resolved_of_passed hdoc hpassed hafter
  · exact passed_of_resolved hpassed hreports
  · obtain ⟨after', hafter', hmeanings⟩ := resolution_of_resolveDocument hdoc hpassed
    obtain rfl : after = after' := Option.some.inj (hafter.symm.trans hafter')
    intro d hd t ht hparam
    rw [TypeName.isResolved, hmeanings d hd t ht]
    exact isSome_resolver_of_mem hparam _ _

/-- A generic parcelable with a list of a type that two imports provide, a value of the parameter,
and a field of a type that does not exist, each at a place of its own. -/
def crowdedBasket : Document :=
  let loc : Nat → Location := fun line => ⟨"Basket.aidl", some ⟨⟨line, 1⟩, ⟨line, 9⟩⟩⟩
  let items : TypeSpec :=
    { TypeSpec.named (loc 4) "List" with arguments := [.named (loc 5) "Item"] }
  let fields : List Field := [⟨loc 4, items, "items", none⟩,
    ⟨loc 6, .named (loc 6) "T", "value", none⟩,
    ⟨loc 7, .named (loc 8) "Missing", "missing", none⟩]
  ⟨[⟨loc 1, "a.Item"⟩, ⟨loc 2, "b.Item"⟩],
    [⟨⟨loc 3, "p", "Basket", "", {}⟩, .structured (some ["T"]) { fields }⟩]⟩

/-- The list and the parameter get a meaning. The element of the list is reported behind the second
of the two imports that provide it, and the type of the last field is reported by itself. -/
theorem resolveDocument_complaints_crowdedBasket :
    let r := (empty.addDocument crowdedBasket).value
    let resolved := r.resolveDocument 0
    let loc : Nat → Location := fun line => ⟨"Basket.aidl", some ⟨⟨line, 1⟩, ⟨line, 9⟩⟩⟩
    ∃ after, resolved.value.1.document? 0 = some after ∧
      after.nodes.map (fun t => (t.base.written, t.base.isResolved)) =
        [("List", true), ("Item", false), ("T", true), ("Missing", false)] ∧
      resolved.value.2 = .ok false ∧
      resolved.diagnostics = after.nodes.flatMap (TypeSpec.complaints crowdedBasket.imports) ∧
      resolved.diagnostics =
        [⟨loc 2, .error, some "E0501", none, "Ambiguous type: a.Item vs. b.Item", []⟩,
          ⟨loc 5, .error, some "E0101", none, "Failed to resolve 'Item'", []⟩,
          ⟨loc 8, .error, some "E0101", none, "Failed to resolve 'Missing'", []⟩] := by
  intro r resolved loc
  have hdoc : r.document? 0 = some crowdedBasket := rfl
  have hnodes : (resolved.value.1.document? 0).map
      (fun doc => doc.nodes.map fun t => (t.base.written, t.base.isResolved)) =
        some [("List", true), ("Item", false), ("T", true), ("Missing", false)] := by
    decide +kernel
  obtain ⟨passed, after, hpassed, hafter, -, -, -, hreports, -⟩ :=
    resolveDocument_complaints hdoc (by decide +kernel)
  rw [show resolved.value.1.document? 0 = some after from hafter] at hnodes
  have hnegative : passed = false := by
    have hfailed : resolved.value.2.toOption = some false := by decide +kernel
    have hpassed : resolved.value.2.toOption = some passed := toOption_eq_some_iff.mpr hpassed
    exact Option.some.inj (hpassed.symm.trans hfailed)
  exact ⟨after, hafter, Option.some.inj hnodes, hnegative ▸ hpassed, hreports, by decide +kernel⟩

end Registry

end InterfaceDefinition
